import ScriptHost.Proofs.KeyPaths
import ScriptHost.Proofs.PropertyRequests
/-!
# Writes and deletions change what they report

A write that fails has changed no property that there was, as long as telling why it failed runs
nothing.  One that goes well has changed one property, and so has a deletion that reports one.
-/

namespace ScriptHost

namespace Host

open Accounting (bind_ok bind_error tryCatch_ok live_ok)
open Machine (Follows Written Deleted nowhere place)
open ScriptEngine (Holds Steady)

variable {c : ContextId} {r : RealmId} {m : Machine} {id : Nat} {k : Key} {ps held : List Nat}
  {v : Handle} {s : Host ScriptEngine} {α : Type}

/-! ## By key -/

section Keys

variable (hr : (Contexts.entry s.contexts c).realm = some r) (hsimple : m.Simple k id ps)
include hr hsimple

/-- A write goes well and has changed one property, or it fails and has changed none. -/
theorem setKey_reports (hid : id ∈ held) (hs : Holds s.engine (v.value.objects ++ held) (· = m)) :
    ∃ outcome s', setKey ⟨c, .object id⟩ k v s = (outcome, s') ∧
      ((outcome = .ok () ∧ m.Written held id k v.value s'.engine.machine) ∨
        ((∃ stop, outcome = .error stop) ∧
          (m.TellsTypeErrors r → m.Follows held nowhere s'.engine.machine))) := by
  have hbegin : (tryCatch (do
      requireObject "set_atom" ⟨c, .object id⟩
      live c) fun e => do
        drop v
        throw e : Action ScriptEngine RealmId) s = (.ok r, s) := tryCatch_ok (live_ok hr)
  obtain ⟨a, s₁, hask, hX, ha⟩ := ask_set hsimple hid s rfl hs
  have hset : setKey ⟨c, .object id⟩ k v s = (do
      let _ ← orViolation c "set_atom" a
      pure () : Action ScriptEngine Unit) s₁ := (bind_ok hbegin).trans (bind_ok hask)
  rw [hset]
  -- The engine answers with yes or throws; nothing else can come of a simple object.
  rcases ha with ⟨rfl, hwritten⟩ | ⟨rfl, htold⟩
  · exact ⟨_, s₁, rfl, .inl ⟨rfl, hwritten.machine⟩⟩
  · -- It fails however it is told why, and if that runs nothing then nothing else happens.
    obtain ⟨o, s₂, htake⟩ : ∃ o s₂, takeException c s₁ = (o, s₂) := ⟨_, _, rfl⟩
    have hleft : m.TellsTypeErrors r → m.Follows held nowhere s₂.engine.machine := by
      intro htells
      obtain ⟨d, hpending, hholds⟩ := htold htells
      obtain ⟨record, s₃, htake', -, hfollows⟩ :=
        takeException_leaves hr .follows s₁ hX ⟨hholds, hpending⟩
      obtain ⟨-, rfl⟩ := Prod.mk.inj (htake.symm.trans htake')
      exact hfollows.machine
    cases o with
    | ok record => exact ⟨_, s₂, bind_error (bind_ok htake), .inr ⟨⟨_, rfl⟩, hleft⟩⟩
    | error stop => exact ⟨_, s₂, bind_error (bind_error htake), .inr ⟨⟨_, rfl⟩, hleft⟩⟩

/-- Whether there is a property, own or inherited. -/
theorem hasKey_reports (hs : Holds s.engine held (· = m)) :
    ∃ s', hasKey ⟨c, .object id⟩ k s = (.ok (m.firstProperty k (id :: ps)).isSome, s') ∧
      m.Follows held nowhere s'.engine.machine := by
  obtain ⟨a, s₁, hask, hX, rfl, hholds⟩ := ask_has hsimple s rfl hs
  refine ⟨s₁, ?_, hholds.machine⟩
  exact (bind_ok (live_ok hr)).trans (bind_ok hask)

theorem deleteKey_reports (hid : id ∈ held) (hs : Holds s.engine held (· = m)) :
    ∃ b s', deleteKey ⟨c, .object id⟩ k s = (.ok b, s') ∧
      (b = true ∧ (∃ p, (m.obj id).props.get? k = some p ∧ p.configurable = true) ∧
        m.Deleted held id k s'.engine.machine ∨
      b = false ∧ (∀ p, (m.obj id).props.get? k = some p → p.configurable = false) ∧
        m.Follows held nowhere s'.engine.machine) := by
  obtain ⟨a, s₁, hask, hX, rfl, hholds⟩ := ask_hasOwn hsimple hid s rfl hs
  have hdelete : deleteKey ⟨c, .object id⟩ k s =
      (if ((m.obj id).props.get? k).isSome then do
        orViolation c "delete_atom" (← ask (.delete (← live c) (.object id) k))
      else pure false) s₁ := (bind_ok (live_ok hr)).trans (bind_ok hask)
  rw [hdelete]
  -- What is not there is not asked to be deleted.
  cases hp : (m.obj id).props.get? k with
  | none => exact ⟨false, s₁, rfl, .inr ⟨rfl, nofun, hholds.machine.1⟩⟩
  | some p =>
      obtain ⟨a, s₂, hask₂, -, rfl, hholds₂⟩ := ask_delete hsimple hid hp s₁ hX hholds
      have hr₁ : (Contexts.entry s₁.contexts c).realm = some r := by rwa [hX]
      refine ⟨p.configurable, s₂, (bind_ok (live_ok hr₁)).trans (bind_ok hask₂), ?_⟩
      have hmachine := hholds₂.machine
      cases hconfigurable : p.configurable with
      | true =>
          rw [hconfigurable] at hmachine
          exact .inl ⟨rfl, ⟨p, rfl, hconfigurable⟩, hmachine⟩
      | false =>
          rw [hconfigurable] at hmachine
          refine .inr ⟨rfl, fun p' hp' => ?_, hmachine⟩
          obtain rfl := Option.some.inj hp'
          exact hconfigurable

end Keys

/-! ## By any name -/

/-- What a host is told of a write, of a deletion and of a question, and what has changed.  The host
holds some objects, the one that it names among them.

A write that goes well has put the value under the key, with the attributes that the property had, and
has changed nothing else.  A write that fails has changed nothing, where the type errors of the realm
are told without running anything.  A deletion reports whether there was an own property that is
configurable; that property alone is gone then, and otherwise nothing has changed.  Whether there is a
property depends on the object and its prototypes. -/
theorem changes_reported {l : Label} (hrest : s.engine.AtRest)
    (hlive : (Contexts.entry s.contexts c).realm = some r)
    (hsimple : s.engine.machine.Simple l.key id ps) (hid : id ∈ held)
    (hheld : ∀ j, held.count j ≤ s.engine.ledger.count (.value (.object j)))
    (p : Client.Path l) :
    let m := s.engine.machine
    (∀ v : Handle,
      (∀ j, (v.value.objects ++ held).count j ≤ s.engine.ledger.count (.value (.object j))) →
      match Host.set ⟨c, .object id⟩ p.name v s with
      | (.ok (), s') =>
        s'.engine.machine.own? id l.key =
            some { (m.own? id l.key).getD (.plain v.value) with content := .data v.value true } ∧
          m.Keeps (v.value.objects ++ held) (place id l.key) s'.engine.machine
      | (.error _, s') => m.TellsTypeErrors r → m.Keeps held nowhere s'.engine.machine) ∧
    (∃ gone s', Host.delete ⟨c, .object id⟩ p.name s = (.ok gone, s') ∧
      (gone = true ↔ ∃ pr, m.own? id l.key = some pr ∧ pr.configurable = true) ∧
      if gone then s'.engine.machine.own? id l.key = none ∧
        m.Keeps held (place id l.key) s'.engine.machine
      else m.Keeps held nowhere s'.engine.machine) ∧
    ∃ found s', Host.has ⟨c, .object id⟩ p.name s = (.ok found, s') ∧
      (found = true ↔ ∃ j ∈ id :: ps, (m.own? j l.key).isSome) ∧
      m.Keeps held nowhere s'.engine.machine := by
  intro m
  have hown := hsimple.plain.own_eq l.key
  refine ⟨fun v hv => ?_, ?_, ?_⟩
  · -- By whatever path the property is named, it comes to the same key.
    have hset := run_eq_runKey (h := ⟨c, .object id⟩) hrest hlive (.set v) p
    obtain ⟨outcome, s', hrun, hreports⟩ :=
      setKey_reports (v := v) (s := s) hlive hsimple hid ⟨rfl, hv⟩
    have hset' : Host.set ⟨c, .object id⟩ p.name v s = (outcome, s') := hset.trans hrun
    rw [hset', hown]
    rcases hreports with ⟨rfl, hwritten⟩ | ⟨⟨stop, rfl⟩, hfollows⟩
    · exact ⟨(hwritten.plain.own_eq l.key).trans hwritten.own, hwritten.follows.keeps⟩
    · exact fun htells => (hfollows htells).keeps
  · have hdelete := run_eq_runKey (h := ⟨c, .object id⟩) hrest hlive .delete p
    obtain ⟨gone, s', hrun, hreports⟩ := deleteKey_reports hlive hsimple hid ⟨rfl, hheld⟩
    refine ⟨gone, s', hdelete.trans hrun, ?_⟩
    rw [hown]
    rcases hreports with ⟨rfl, hthere, hdeleted⟩ | ⟨rfl, hstays, hfollows⟩
    · refine ⟨iff_of_true rfl hthere, ?_, hdeleted.follows.keeps⟩
      exact (hdeleted.plain.own_eq l.key).trans hdeleted.own
    · refine ⟨iff_of_false Bool.false_ne_true ?_, hfollows.keeps⟩
      rintro ⟨pr, hpr, hconfigurable⟩
      rw [hstays pr hpr] at hconfigurable
      cases hconfigurable
  · have hhas := run_eq_runKey (h := ⟨c, .object id⟩) hrest hlive .has p
    obtain ⟨s', hrun, hfollows⟩ := hasKey_reports hlive hsimple ⟨rfl, hheld⟩
    refine ⟨_, s', hhas.trans hrun, ?_, hfollows.keeps⟩
    rw [Machine.firstProperty, List.findSome?_isSome_iff]
    refine exists_congr fun j => and_congr_right fun hj => ?_
    have hplain : m.IsPlain j := by
      rcases List.mem_cons.1 hj with rfl | hj
      · exact hsimple.plain
      · exact hsimple.descends.mem_plain j hj
    rw [hplain.own_eq]

/-- A host with one context that holds a frozen object and another one.  The cause that type errors
inherit is a text, or it is what a function says that writes into the other object. -/
def frozenHost (calls : Bool) : Host ScriptEngine :=
  let places := (Array.replicate Intrinsic.places none).setIfInBounds
    Intrinsic.typeErrorPrototype.place (some 1)
  let member (name : String) (p : Property) : PropertyTable := { members := #[(Key.str name, p)] }
  let cause : Property := if calls then ⟨.accessor (some 3) none, false, true⟩ else .plain (.str "x")
  { engine :=
      { machine :=
          { heap := #[
              { props := member "a" ⟨.data (.int 1) false, true, false⟩, extensible := false },
              { props := member "cause" cause }, { props := member "hit" (.plain (.int 0)) },
              { body := .bound (.object 4) .undefined #[.object 2, .str "hit", .int 1] },
              { body := .native { family := .reflect, index := 11 } 0 }]
            realms := #[{ intrinsics := places }] }
        ledger := (({} : Ledger).add (.value (.object 0))).add (.value (.object 2)) }
    contexts := (∅ : Contexts).insert 0 { realm := some 0 } }

theorem simple_frozen (calls : Bool) :
    (frozenHost calls).engine.machine.Simple (Key.ofText (.ofString "a")) 0 [] := by
  refine ⟨⟨Nat.zero_lt_succ _, rfl⟩, nofun, rfl, fun j hj p hp getter setter hcontent => ?_⟩
  obtain rfl := List.mem_singleton.1 hj
  have hdata : ∀ b, ((((frozenHost b).engine.machine.obj 0).props.get?
      (Key.ofText (.ofString "a"))).bind Property.value?).isSome := by decide +kernel
  have hdata := hdata calls
  rw [hp, Option.bind_some, Property.value?, hcontent] at hdata
  cases hdata

/-- The write is refused, and where the cause is a text nothing has changed. -/
theorem changes_reported_frozen :
    let s := frozenHost false
    ∃ stop s', Host.set ⟨0, .object 0⟩ (.text "a") ⟨0, .int 2⟩ s = (.error stop, s') ∧
      s.engine.machine.Keeps [0, 2] nowhere s'.engine.machine := by
  intro s
  have hheld : ∀ j, [0, 2].count j ≤ s.engine.ledger.count (.value (.object j)) := by
    intro j
    by_cases hj : j ∈ [0, 2]
    · revert j
      decide
    · rw [List.count_eq_zero.2 hj]
      exact Nat.zero_le _
  -- The prototype of type errors has data for the name and the cause.
  have htells : s.engine.machine.TellsTypeErrors 0 := by
    have hproto : (s.engine.machine.realms[0]?.getD ({} : Realm)).intrinsic? .typeErrorPrototype =
        some 1 := by decide +kernel
    intro q hq
    obtain rfl : 1 = q := Option.some.inj (hproto.symm.trans hq)
    refine ⟨[], by decide, rfl, fun k hk p hp => ?_⟩
    have hdata : ∀ k ∈ [Key.str "name", Key.str "cause"], (s.engine.machine.firstProperty k [1]).all
        fun p => p.value?.any fun v => v.objectId?.isNone := by decide
    have hvalue := hdata k hk
    rw [hp, Option.all_some] at hvalue
    cases hv : p.value? with
    | none =>
        rw [hv] at hvalue
        cases hvalue
    | some v =>
        rw [hv] at hvalue
        exact ⟨v, rfl, Option.isNone_iff_eq_none.1 hvalue⟩
  have hmember : 0 ∈ [0, 2] := by decide
  obtain ⟨hset, -⟩ := changes_reported (s := s) (r := 0) (c := 0) (l := .text (.ofString "a"))
    ⟨rfl, rfl⟩ rfl (simple_frozen false) hmember hheld (.text "a")
  have hset := hset ⟨0, .int 2⟩ hheld
  have hrefused : (Host.set ⟨0, .object 0⟩ (.text "a") ⟨0, .int 2⟩ s).1.isOk = false := by
    decide +kernel
  obtain ⟨outcome, s', hrun⟩ :
      ∃ outcome s', Host.set ⟨0, .object 0⟩ (.text "a") ⟨0, .int 2⟩ s = (outcome, s') := ⟨_, _, rfl⟩
  rw [Client.Path.name, hrun] at hset
  rw [hrun] at hrefused
  cases outcome with
  | ok _ => cases hrefused
  | error stop => exact ⟨stop, s', hrun, hset htells⟩

/-- Where a function is called for the cause, it has written into another object. -/
theorem refused_write_changes :
    let s := frozenHost true
    s.engine.AtRest ∧ Contexts.isLive s.contexts 0 ∧
      s.engine.machine.Simple (Key.ofText (.ofString "a")) 0 [] ∧
      (∀ j ∈ [0, 2], s.engine.ledger.count (.value (.object j)) = 1) ∧
      ∃ stop s', Host.set ⟨0, .object 0⟩ (.text "a") ⟨0, .int 2⟩ s = (.error stop, s') ∧
        ¬s.engine.machine.Keeps [0, 2] nowhere s'.engine.machine := by
  intro s
  refine ⟨⟨rfl, rfl⟩, by decide, simple_frozen true, by decide, ?_⟩
  obtain ⟨outcome, s', hrun⟩ :
      ∃ outcome s', Host.set ⟨0, .object 0⟩ (.text "a") ⟨0, .int 2⟩ s = (outcome, s') := ⟨_, _, rfl⟩
  have hrefused : (Host.set ⟨0, .object 0⟩ (.text "a") ⟨0, .int 2⟩ s).1.isOk = false ∧
      ((Host.set ⟨0, .object 0⟩ (.text "a") ⟨0, .int 2⟩ s).2.engine.machine.body 2).isPlain = true ∧
      ((Host.set ⟨0, .object 0⟩ (.text "a") ⟨0, .int 2⟩ s).2.engine.machine.own? 2
        (Key.str "hit")).bind Property.value? = some (.int 1) := by
    decide +kernel
  have hbefore : (s.engine.machine.own? 2 (Key.str "hit")).bind Property.value? = some (.int 0) := by
    decide
  rw [hrun] at hrefused
  obtain ⟨hfailed, hplain, hafter⟩ := hrefused
  cases outcome with
  | ok _ => cases hfailed
  | error stop =>
      refine ⟨stop, s', hrun, fun hkeeps => ?_⟩
      have hthere : ¬s.engine.machine.Gone s'.engine.machine 2 := by
        rintro (hfreed | ⟨t, g, i, b, htyped, -⟩)
        · dsimp only at hplain
          rw [hfreed] at hplain
          cases hplain
        · cases htyped
      have hrel := hkeeps.same 2 (by decide) hthere (Key.str "hit") fun hno => hno
      -- What was written before would still be there.
      have hstill := Property.Settles.rel_value hrel hbefore
      cases hstill.symm.trans hafter

end Host

end ScriptHost
