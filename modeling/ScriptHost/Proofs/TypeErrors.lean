import ScriptHost.Proofs.Handles
import ScriptHost.Proofs.RangeErrors
import ScriptHost.Proofs.SimpleObjects
/-!
# Errors that are told without running anything

The host that takes an error off the engine reads what it says.  Where all of that is data and no
object, reading it makes objects at most, so what lasts while objects are made and freed is known
afterwards as it was before.
-/

namespace ScriptHost

theorem Value.count_objects (v : Value) (id : Nat) :
    (Ref.ofValue v).count (.value (.object id)) = v.objects.count id := by
  have hcount : ∀ j, [Ref.value (.object j)].count (.value (.object id)) = [j].count id := by
    intro j
    rw [List.count_singleton, List.count_singleton]
    simp
  cases v with
  | object j => exact hcount j
  | string _ | symbol _ | bigint _ => exact List.count_eq_zero.2 (by simp [Ref.ofValue])
  | _ => rfl

namespace Machine

variable {m m' : Machine} {d : Nat} {k : Key} {r : RealmId}

/-- The keys under which the host reads what an error says. -/
def toldKeys : List Key := [Key.str "name", Key.str "message", Key.str "cause", Key.str "stack"]

/-- An error that says what it says by data, and by no object. -/
structure IsTold (m : Machine) (d : Nat) : Prop where
  body : m.body d = .error
  inherits : ∃ ps, m.Descends d ps ∧ ∀ k ∈ toldKeys, m.ShowsData k (d :: ps)

namespace IsTold

theorem plain (h : m.IsTold d) : m.IsPlain d :=
  ⟨lt_of_body (by simp [h.body]), by simp [h.body, Body.isPlain]⟩

theorem grows (h : m.IsTold d) (hgrows : m.Grows m') : m'.IsTold d := by
  obtain ⟨ps, hps, hdata⟩ := h.inherits
  refine ⟨?_, ps, hgrows.descends h.plain.1 hps, fun k hk => hgrows.showsData ?_ (hdata k hk)⟩
  · rw [hgrows.body d h.plain.1]
    exact h.body
  · intro id hid
    rcases List.mem_cons.1 hid with rfl | hid
    · exact h.plain.1
    · exact (hps.mem_plain id hid).1

/-- What is found in it is data. -/
theorem getOf_data {I : Interp} (h : m.IsTold d) (hk : k ∈ toldKeys) :
    ∃ v, Eval.getOf (.object d) k I m = .ok v m ∧ v.objectId? = none := by
  obtain ⟨ps, hps, hdata⟩ := h.inherits
  rcases find_cases hps h.plain k with ⟨j, -, p, hfind, -, hfirst, -⟩ | ⟨hfind, -⟩
  · obtain ⟨v, hv, hobject⟩ := hdata k hk p hfirst
    exact ⟨v, Eval.getOf_value hfind hv, hobject⟩
  · have hget : Eval.getOf (.object d) k = Eval.getRule (Eval.reading 999) d k (.object d) := rfl
    refine ⟨.undefined, ?_, rfl⟩
    rw [hget, Eval.getRule, Eval.get_bind, hfind]
    rfl

end IsTold

/-- The own properties of an error that was raised. -/
theorem get_errorObj (message : Text) : (Eval.errorObj m .type message).props.get? k =
    if k = Key.str "stack" then some (.hidden (.string (Eval.traceText m 0)))
    else if k = Key.str "message" then some (.hidden (.string message)) else none := by
  have hempty : ({} : PropertyTable).get? k = none := PropertyTable.lists_empty.get_eq k
  rw [Eval.errorObj, PropertyTable.get_put, PropertyTable.get_put, hempty]

/-- What is raised where type errors are told is told. -/
theorem isTold_raised (htells : m.TellsTypeErrors m.realm) (message : Text) :
    (Eval.raised m .type message).IsTold m.heap.size := by
  have hgrows := Eval.raised_grows m .type message
  have hobj := Eval.obj_raised (m := m) .type message
  -- Its own properties are texts, so what is inherited under the other keys decides.
  have hshows : ∀ ids, (∀ k ∈ [Key.str "name", Key.str "cause"],
      (Eval.raised m .type message).ShowsData k ids) →
        ∀ k ∈ toldKeys, (Eval.raised m .type message).ShowsData k (m.heap.size :: ids) := by
    intro ids hids k hk p hp
    rw [firstProperty, List.findSome?_cons, hobj, get_errorObj] at hp
    by_cases hstack : k = Key.str "stack"
    · rw [if_pos hstack] at hp
      cases hp
      exact ⟨_, rfl, rfl⟩
    · rw [if_neg hstack] at hp
      by_cases hmessage : k = Key.str "message"
      · rw [if_pos hmessage] at hp
        cases hp
        exact ⟨_, rfl, rfl⟩
      · rw [if_neg hmessage] at hp
        refine hids k ?_ p hp
        simpa [toldKeys, hstack, hmessage] using hk
  refine ⟨by rw [body, hobj]; rfl, ?_⟩
  have hproto : ((Eval.raised m .type message).obj m.heap.size).proto =
      m.intrinsic? .typeErrorPrototype := by
    rw [hobj]
    rfl
  cases hp : m.intrinsic? .typeErrorPrototype with
  | none => exact ⟨[], hproto.trans hp, hshows [] fun k _ p hp => by cases hp⟩
  | some p =>
      obtain ⟨ps, hplain, hps, hdata⟩ := htells p hp
      refine ⟨p :: ps, ⟨hproto.trans hp, hgrows.isPlain hplain, hgrows.descends hplain.1 hps⟩,
        hshows _ fun k hk => hgrows.showsData ?_ (hdata k hk)⟩
      intro id hid
      rcases List.mem_cons.1 hid with rfl | hid
      · exact hplain.1
      · exact (hps.mem_plain id hid).1

end Machine

/-- A computation that makes objects at most, whether it throws or not. -/
def Eval.Mild {α : Type} (x : Eval α) : Prop :=
  ∀ (interp : Interp) (m : Machine), ∃ m', m.Grows m' ∧
    ((∃ a, x interp m = .ok a m') ∨ ∃ v, x interp m = .error v m')

/-- The text of what is no object. -/
theorem Eval.toText_mild {v : Value} (hv : v.objectId? = none) :
    (do pure (← toText v).toHostString : Eval String).Mild := by
  intro interp m
  cases v with
  | object id => cases hv
  | symbol id =>
      exact ⟨_, raised_grows m .type (txt "cannot convert symbol to string"), .inr ⟨_, rfl⟩⟩
  | exception => exact ⟨m, .refl m, .inr ⟨_, rfl⟩⟩
  | _ => exact ⟨m, .refl m, .inl ⟨_, rfl⟩⟩

namespace ScriptEngine

variable {held held' : List Nat} {I J : Machine → Prop} {d : Nat} {m₀ : Machine}
  {but : Nat → Key → Prop} {e : ScriptEngine} {r : RealmId} {α : Type}

/-- What is known of machines and goes by neither when objects are made nor, as long as some are
held, when others are freed. -/
structure Steady (held : List Nat) (I : Machine → Prop) : Prop where
  lasting : Lasting held I
  grows : ∀ m m' : Machine, I m → m.Grows m' → I m'

namespace Steady

theorem mono (h : Steady held I) (hsub : ∀ id ∈ held, id ∈ held') : Steady held' I :=
  ⟨h.lasting.mono hsub, h.grows⟩

theorem and (hI : Steady held I) (hJ : Steady held J) : Steady held fun m => I m ∧ J m :=
  ⟨hI.lasting.and hJ.lasting, fun m m' hm hgrows =>
    ⟨hI.grows m m' hm.1 hgrows, hJ.grows m m' hm.2 hgrows⟩⟩

theorem evolves : Steady held fun m => m₀.Evolves but m :=
  ⟨fun _ _ _ _ hm hsheds => hm.trans (.of_sheds hsheds), fun _ _ hm hgrows => hm.trans hgrows.evolves⟩

theorem isTold (hd : d ∈ held) : Steady held fun m => m.IsTold d := by
  refine ⟨fun m m' roots hroots hm hsheds => ?_, fun m m' hm hgrows => hm.grows hgrows⟩
  have hspares := Machine.Spares.of_sheds hsheds
  have hroot : m.Held roots (.object d) := .root (List.mem_append_left _ (hroots d hd))
  obtain ⟨ps, hps, hdata⟩ := hm.inherits
  obtain ⟨hps', hall⟩ := hspares.descends hroot hm.plain.1 hm.plain.not_weak hps
  refine ⟨?_, ps, hps', fun k hk p hp => hdata k hk p ?_⟩
  · rw [hspares.body_eq hroot hm.plain.1 hm.plain.not_weak]
    exact hm.body
  · rwa [hspares.firstProperty (by simpa using ⟨hroot, hall⟩)
      (by simpa using ⟨hm.plain, hps.mem_plain⟩)] at hp

end Steady

/-! ## Requests -/

section Requests

variable {q : Request}

/-- A request of which is known what it does to the machine. -/
theorem Holds.answered {a : q.Reply} {e₁ : ScriptEngine} (h : e.Holds held J)
    (hlasting : Lasting held' I) (hq : q ≠ .collect ∧ q ≠ .shutDown) (hcore : core q e = (a, e₁))
    (hledger : e₁.ledger = e.ledger) (hmachine : I e₁.machine)
    (hcount : ∀ id, held'.count id + q.taken.count (.value (.object id)) ≤ held.count id +
      (q.given a).count (.value (.object id))) :
    (Engine.answer q e).reply = a ∧ (Engine.answer q e).state.Holds held' I ∧
      (Engine.answer q e).state.pending = e₁.pending := by
  have hheld : ∀ id, held'.count id ≤ e.ledger.count (.value (.object id)) -
      q.taken.count (.value (.object id)) + (q.given a).count (.value (.object id)) := by
    intro id
    have hle := h.held id
    have hcount := hcount id
    omega
  exact answer_holds hq hcore hledger hmachine (hlasting.mono fun _ => List.mem_append_left _) hheld

/-- What is known is known of the machine that a computation leaves that makes objects at most. -/
theorem run_mild {x : Eval α} (hI : Steady held I) (hx : x.Mild) (he : I e.machine) :
    ∃ a e₁, run r x e = (a, e₁) ∧ e₁.ledger = e.ledger ∧ I e₁.machine := by
  have hstarted : I (e.machine.started r) := hI.lasting.started he
  obtain ⟨m', hgrows, ⟨a, hrun⟩ | ⟨v, hrun⟩⟩ :=
    hx (Eval.interp Builtin.supply depthLimit) (e.machine.started r)
  · exact ⟨_, _, run_eq hrun, rfl, hI.grows _ _ hstarted hgrows⟩
  · exact ⟨_, _, run_error hrun, rfl, hI.grows _ _ hstarted hgrows⟩

end Requests

end ScriptEngine

/-! ## Taking an error off -/

namespace Host

open ScriptEngine (Holds Lasting Steady)

variable {X : Contexts} {c : ContextId} {r : RealmId} {held : List Nat} {I J : Machine → Prop}
  {d : Nat} {v : Value} {name : String} {α : Type}

/-- An action that gives a result and, whatever it gives, leaves what is known of the engine. -/
abbrev Leaves (X : Contexts) (held : List Nat) (I : Machine → Prop) (x : Action ScriptEngine α) :
    Prop := Yields X (fun e => Holds e held I) x fun _ e => Holds e held I

/-- What was thrown is the host's when it was taken. -/
theorem takeException_gives (hI : Lasting held I) :
    Yields X (fun e => Holds e held I) (Host.ask (.takeException r)) fun (v : Value) e =>
      Holds e (v.objects ++ held) I := by
  refine Yields.ask fun e he => ?_
  obtain ⟨hreply, hholds, -⟩ : _ ∧ (Engine.answer (.takeException r) e).state.Holds
      ((e.pending.getD .uninitialized).objects ++ held) I ∧ _ := he.answered (q := .takeException r)
    (hI.mono fun _ => List.mem_append_right _) ⟨nofun, nofun⟩ rfl rfl he.machine fun id => by
      have hgiven : (Request.takeException r).given (e.pending.getD .uninitialized) =
          Ref.ofValue (e.pending.getD .uninitialized) := rfl
      have htaken : (Request.takeException r).taken = [] := rfl
      rw [hgiven, htaken, Value.count_objects, List.count_append, List.count_nil]
      omega
  rw [hreply]
  exact hholds

section Live

variable (hr : (X.entry c).realm = some r)
include hr

/-- What is given back was there besides what stays. -/
theorem drop_leaves (hI : Lasting held I) (hJ : ∀ m, J m → I m) :
    Yields X (fun e => Holds e (v.objects ++ held) J) (Host.drop ⟨c, v⟩)
      fun _ e => Holds e held I := by
  have hasked : Yields X (fun e => Holds e (v.objects ++ held) J)
      (Host.ask (.release r [.value v])) fun _ e => Holds e held I := by
    refine Yields.ask fun e he => ?_
    refine (he.answered (q := .release r [.value v]) hI ⟨nofun, nofun⟩ rfl rfl
      (hJ _ he.machine) fun id => ?_).2.1
    have htaken : (Request.release r [.value v]).taken = Ref.ofValue v := List.append_nil _
    rw [htaken, Value.count_objects, List.count_append]
    omega
  unfold Host.drop
  split
  next => exact Yields.live_bind hr hasked
  next hcounted =>
    refine Yields.pure fun e he => ⟨hJ _ he.machine, fun id => ?_⟩
    have hle := he.held id
    rw [List.count_append] at hle
    omega

theorem discardException_leaves (hI : Lasting held I) :
    Leaves X held I (discardException c) := by
  unfold discardException
  refine Yields.live_bind hr ((takeException_gives hI).bind fun (v : Value) =>
    Yields.ask fun e he => ?_)
  refine (he.answered (q := .release r (Ref.ofValue v)) hI ⟨nofun, nofun⟩ rfl rfl he.machine
    fun id => ?_).2.1
  have htaken : (Request.release r (Ref.ofValue v)).taken = Ref.ofValue v :=
    Ref.flatMap_counted_ofValue v
  rw [htaken, Value.count_objects, List.count_append]
  omega

variable (hI : Steady held I)
include hI

theorem textLossy_leaves (hv : v.objectId? = none) : Leaves X held I (textLossy ⟨c, v⟩) := by
  have hasked : Leaves X held I (Host.ask (.toText r v)) := by
    refine Yields.ask fun e he => ?_
    obtain ⟨a, e₁, hrun, hledger, hmachine⟩ := ScriptEngine.run_mild (r := r) hI
      (Eval.toText_mild hv) he.machine
    exact (he.answered (q := .toText r v) hI.lasting ⟨nofun, nofun⟩ hrun hledger hmachine
      fun id => Nat.le_add_right _ _).2.1
  unfold textLossy
  refine Yields.live_bind hr (hasked.bind fun a => ?_)
  cases a with
  | some t => exact Yields.pure fun _ => id
  | none => exact (discardException_leaves hr hI.lasting).bind fun _ => Yields.pure fun _ => id

variable (hd : ∀ m, I m → m.IsTold d)
include hd

theorem isError_isTold : Tells X held I (isError ⟨c, .object d⟩) true := by
  have hasked : Tells X held I (Host.ask (.isError r (.object d))) true := by
    refine ask_tells hI.lasting ⟨nofun, nofun⟩ rfl fun e he => ⟨e.machine, ?_, he⟩
    have hcore : ScriptEngine.core (.isError r (.object d)) e = ((e.machine.body d).isError, e) := rfl
    rw [hcore, (hd _ he).body]
    rfl
  have hobject : (Value.object d).isObject = true := rfl
  unfold isError
  rw [if_pos hobject]
  exact Yields.live_bind hr hasked

theorem memberText_leaves (hname : Key.ofText (txt name) ∈ Machine.toldKeys) :
    Leaves X held I (memberText ⟨c, .object d⟩ name) := by
  have hasked : Yields X (fun e => Holds e held I) (Host.ask (.getNamed r (.object d) name))
      fun v e => v.objectId? = none ∧ Holds e held I := by
    refine Yields.ask fun e he => ?_
    have hstarted : I (e.machine.started r) := hI.lasting.started he.machine
    obtain ⟨v, hget, hv⟩ := (hd _ hstarted).getOf_data
      (I := Eval.interp Builtin.supply ScriptEngine.depthLimit) hname
    obtain ⟨hreply, hholds, -⟩ := he.answered (q := .getNamed r (.object d) name)
      hI.lasting ⟨nofun, nofun⟩ (ScriptEngine.runValue_ok hget) rfl hstarted
      fun id => Nat.le_add_right _ _
    rw [hreply]
    exact ⟨hv, hholds⟩
  unfold memberText
  refine Yields.live_bind hr (hasked.bind fun (v : Value) s hX hs => ?_)
  obtain ⟨hv, hs⟩ := hs
  have hheld : Leaves X held I (Host.holding ⟨c, v⟩ textLossy) := by
    refine Yields.ensuring (textLossy_leaves hr hI hv) fun _ => ?_
    have hdrop := drop_leaves (c := c) (v := v) hr hI.lasting fun _ => id
    rwa [Value.objects, hv] at hdrop
  refine (?_ : Leaves X held I _) s hX hs
  cases v with
  | exception => exact (discardException_leaves hr hI.lasting).bind fun _ => Yields.pure fun _ => id
  | undefined => exact Yields.pure fun _ => id
  | _ => exact hheld

/-- All that is read of an error is texts. -/
theorem recordOf_leaves : Leaves X held I (recordOf ⟨c, .object d⟩) := by
  have hmember : ∀ name, Key.ofText (txt name) = Key.str name → Key.str name ∈ Machine.toldKeys →
      Leaves X held I (memberText ⟨c, .object d⟩ name) :=
    fun _ hkey htold => memberText_leaves hr hI hd (hkey ▸ htold)
  have hrecord : Yields X (fun e => Holds e held I) (errorRecord? ⟨c, .object d⟩)
      fun record e => record.isSome ∧ Holds e held I := by
    unfold errorRecord?
    refine (isError_isTold hr hI hd).bind ?_
    rw [if_pos rfl]
    refine (hmember "name" (Key.ofText_eq_name (by decide)) (by simp [Machine.toldKeys])).bind
      fun _ => ?_
    refine (hmember "message" (Key.ofText_eq_name (by decide)) (by simp [Machine.toldKeys])).bind
      fun _ => ?_
    refine (hmember "cause" (Key.ofText_eq_name (by decide)) (by simp [Machine.toldKeys])).bind
      fun _ => ?_
    refine (hmember "stack" (Key.ofText_eq_name (by decide)) (by simp [Machine.toldKeys])).bind
      fun _ => ?_
    exact Yields.pure fun _ he => ⟨rfl, he⟩
  unfold recordOf
  refine hrecord.bind fun record s hX hs => ?_
  cases record with
  | none => cases hs.1
  | some record => exact ⟨record, s, rfl, hX, hs.2⟩

end Live

/-- An error that was thrown is taken off and described, and nothing is left of it. -/
theorem takeException_leaves (hr : (X.entry c).realm = some r) (hI : Steady held I) :
    Yields X (fun e => Holds e held (fun m => I m ∧ m.IsTold d) ∧ e.pending = some (.object d))
      (takeException c) fun _ e => Holds e held I := by
  have hboth : Steady (d :: held) fun m => I m ∧ m.IsTold d :=
    (hI.mono fun _ => List.mem_cons_of_mem d).and (.isTold List.mem_cons_self)
  unfold takeException
  refine Yields.live_bind hr ((takePending_yields hboth.lasting).bind fun v s hX hs => ?_)
  obtain ⟨rfl, hs⟩ := hs
  have hdescribed : Yields X (fun e => Holds e (d :: held) fun m => I m ∧ m.IsTold d)
      (holding ⟨c, .object d⟩ recordOf) fun _ e => Holds e held I :=
    Yields.ensuring (recordOf_leaves hr hboth fun _ hm => hm.2) fun _ =>
      drop_leaves (v := .object d) hr hI.lasting fun _ hm => hm.1
  exact hdescribed s hX hs

end Host

end ScriptHost
