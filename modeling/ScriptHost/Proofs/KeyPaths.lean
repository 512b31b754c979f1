import ScriptHost.Client.Thrown
import ScriptHost.Proofs.Absorption
import ScriptHost.Proofs.ObjectsAsMaps
import ScriptHost.Proofs.SpareKeys
/-!
# All ways to a property agree

A text or an index is made a key, the key is used, and it is given back.  Meanwhile the host holds
one reference more than if it had been told the key, which makes no difference, and after that none.
So it does not matter to any target which way a property is named.
-/

namespace ScriptHost

namespace Client

/-- What a client can do with a property. -/
inductive PropertyUse where
  | get
  /-- Writes it; the value is handed over. -/
  | set (v : Handle)
  | has
  | delete

namespace PropertyUse

variable {σ : Type} [Engine σ]

/-- What it gives. -/
def Result : PropertyUse → Type
  | get => Handle
  | set _ => Unit
  | has | delete => Bool

/-- Does it to the property under a name. -/
def run (h : Handle) (n : PropertyName) : (u : PropertyUse) → Action σ u.Result
  | get => Host.get h n
  | set v => Host.set h n v
  | has => Host.has h n
  | delete => Host.delete h n

/-- Does it to the property under a key. -/
def runKey (h : Handle) (k : Key) : (u : PropertyUse) → Action σ u.Result
  | get => Host.getKey h k
  | set v => Host.setKey h k v
  | has => Host.hasKey h k
  | delete => Host.deleteKey h k

/-- The value that is handed over. -/
def handedOver : PropertyUse → List Handle
  | set v => [v]
  | get | has | delete => []

/-- The requests by which what was handed over is given back. -/
def releases (X : Contexts) (u : PropertyUse) : List Request :=
  u.handedOver.flatMap fun v => Item.releases X (.value v)

end PropertyUse

end Client

namespace Host

open Accounting (bind_ok bind_error tryCatch_ok tryCatch_error live_ok)

variable {s s' : Host ScriptEngine} {c : ContextId} {r : RealmId} {h : Handle} {k : Key}
  {l : Label} {α : Type}

/-! ## Keys that are made for a while -/

/-- A request that gives a key leaves everything else as it was. -/
theorem ask_spares {q : Request} {a : q.Reply} (hrest : s.engine.AtRest)
    (hcore : ScriptEngine.core q s.engine = (a, s.engine))
    (hplain : q ≠ .collect ∧ q ≠ .shutDown) (hidle : ∀ e : ScriptEngine, e.mayFree q a = false)
    (htaken : q.taken = []) (hgiven : q.given a = [.key k]) :
    ∃ s', Host.ask q s = (.ok a, s') ∧ s.Spares k s' := by
  have hanswer := ScriptEngine.answer_idle hrest hcore hplain hidle
  have hledger : s.engine.ledger.after q a = s.engine.ledger.add (.key k) := by
    rw [Ledger.after, htaken, hgiven]
    rfl
  refine ⟨s.withEngine (s.engine.withLedger (s.engine.ledger.add (.key k))), ?_, rfl, ⟨rfl, ?_⟩,
    hrest⟩
  · rw [ask_run, hanswer, hledger]
    rfl
  · exact Ledger.spares_add k s.engine.ledger

/-- When the key is given back, everything is as it would be without it. -/
theorem dropKey_spares (h : s.Spares k s') (hlive : (Contexts.entry s.contexts c).realm = some r)
    (hk : k.isNull = false) : Host.dropKey ⟨c, k⟩ s' = (.ok (), s) := by
  have hcontexts : (Contexts.entry s'.contexts c).realm = some r := by
    rw [h.same]
    exact hlive
  have hengine : s'.engine = s.engine.withLedger s'.engine.ledger := h.engine.same
  have hrest : s'.engine.AtRest := by
    rw [hengine]
    exact h.rest
  -- The reference that was given back is the one that there was more.
  have hledger : s'.engine.ledger.after (.release r [.key k]) () = s.engine.ledger := by
    have htaken : (Request.release r [.key k]).taken = [.key k] := by
      simp [Request.taken, Ref.counted, Ref.ofKey, hk]
    unfold Ledger.after
    rw [htaken]
    exact h.engine.ledger.remove_key
  have hanswer := ScriptEngine.answer_idle (q := .release r [.key k]) hrest rfl
    ⟨by simp, by simp⟩ fun _ => rfl
  rw [hledger] at hanswer
  have hdrop : Host.dropKey ⟨c, k⟩ s' = Host.ask (.release r [.key k]) s' := by
    rw [Host.dropKey, hk]
    exact bind_ok (live_ok hcontexts)
  rw [hdrop, ask_run, hanswer, h.same, hengine]
  rfl

/-- What is done while the key is held comes to the same without it. -/
theorem ensuring_dropKey {x : Action ScriptEngine α} (hx : Parallel k x) (h : s.Spares k s')
    (hlive : (Contexts.entry s.contexts c).realm = some r) (hk : k.isNull = false) :
    Host.ensuring x (Host.dropKey ⟨c, k⟩) s' = x s := by
  -- However it ends, the context is still live and the key can be given back.
  obtain ⟨e | a, s₁, s₁', hrun, hrun', hspare, hcontexts⟩ := hx.run_eq h
  all_goals
    have hlive' : (Contexts.entry s₁.contexts c).realm = some r := by rwa [hcontexts]
    have hdrop := dropKey_spares hspare hlive' hk
  · have hcatch : tryCatch x (fun e => do
        Host.dropKey ⟨c, k⟩
        throw e) s' = (.error e, s₁) := by
      rw [tryCatch_error hrun', bind_ok hdrop]
      rfl
    rw [Host.ensuring, bind_error hcatch, hrun]
  · rw [Host.ensuring, bind_ok (tryCatch_ok hrun'), bind_ok hdrop, hrun]
    rfl

/-- So a key that is held for an action only makes no difference to the action. -/
theorem holdingKey_eq {x : Key → Action ScriptEngine α} (hx : Parallel k (x k))
    (h : s.Spares k s') (hlive : (Contexts.entry s.contexts c).realm = some r)
    (hk : k.isNull = false) : Host.holdingKey ⟨c, k⟩ (fun k => x k.key) s' = x k s :=
  ensuring_dropKey hx h hlive hk

/-! ## Ways to say which property is meant -/

section Live

variable (hrest : s.engine.AtRest) (hlive : (Contexts.entry s.contexts h.context).realm = some r)
include hrest hlive

theorem newKey_spares (t : String) : ∃ s',
    Host.newKey h.context t s = (.ok ⟨h.context, Key.ofText (.ofString t)⟩, s') ∧
      s.Spares (Key.ofText (.ofString t)) s' := by
  have hgiven : (Request.keyOfText r t).given (Key.ofText (.ofString t)) =
      [.key (Key.ofText (.ofString t))] := if_neg (by simp [Key.isNull_ofText])
  obtain ⟨s', hask, hspare⟩ := ask_spares (q := .keyOfText r t) hrest rfl ⟨nofun, nofun⟩
    (fun _ => rfl) rfl hgiven
  refine ⟨s', ?_, hspare⟩
  rw [Host.newKey, bind_ok (live_ok hlive), bind_ok hask]
  rfl

theorem indexKey_spares {i : Nat} (hi : i ≤ maxIndex) : ∃ s',
    Host.indexKey h i s = (.ok ⟨h.context, Key.ofText (Key.natText i)⟩, s') ∧
      s.Spares (Key.ofText (Key.natText i)) s' := by
  -- The index goes to the engine as a number of 32 bits.
  have hback : (UInt32.ofNat i).toNat = i := by
    have hmax : maxIndex < 2 ^ 32 := by decide
    have hsmall : i < 2 ^ 32 := by omega
    exact UInt32.toNat_ofNat_of_lt' hsmall
  have hcore : ScriptEngine.core (.keyOfIndex r (UInt32.ofNat i)) s.engine =
      (Key.ofText (Key.natText i), s.engine) := by
    have hkey : Key.ofNat (UInt32.ofNat i).toNat = Key.ofText (Key.natText i) := by
      rw [hback, Key.ofNat_eq_ofText]
    rw [← hkey]
    rfl
  have hgiven : (Request.keyOfIndex r (UInt32.ofNat i)).given (Key.ofText (Key.natText i)) =
      [.key (Key.ofText (Key.natText i))] := if_neg (by simp [Key.isNull_ofText])
  obtain ⟨s', hask, hspare⟩ := ask_spares (q := .keyOfIndex r (UInt32.ofNat i)) hrest hcore
    ⟨nofun, nofun⟩ (fun _ => rfl) rfl hgiven
  refine ⟨s', ?_, hspare⟩
  rw [Host.indexKey, if_pos ⟨Int.natCast_nonneg i, hi⟩, Int.toNat_natCast, Host.newIndexKey,
    bind_ok (live_ok hlive), bind_ok hask]
  rfl

/-- A property under a name is the one under the key for what it is called. -/
theorem withKey_eq (p : Client.Path l) {x : Key → Action ScriptEngine α}
    (hx : Parallel l.key (x l.key)) : Host.withKey h p.name x s = x l.key s := by
  cases p with
  | text t =>
      obtain ⟨s', hkey, hspare⟩ := newKey_spares hrest hlive t
      have hname : Host.withKey h (.text t) x = (do
          Host.holdingKey (← Host.newKey h.context t) fun k => x k.key) := rfl
      rw [Client.Path.name, hname, bind_ok hkey]
      exact holdingKey_eq hx hspare hlive (Key.isNull_ofText _)
  | index i hi =>
      obtain ⟨s', hkey, hspare⟩ := indexKey_spares hrest hlive hi
      have hname : Host.withKey h (.index i) x = (do
          Host.holdingKey (← Host.indexKey h i) fun k => x k.key) := rfl
      rw [Client.Path.name, hname, bind_ok hkey]
      exact holdingKey_eq hx hspare hlive (Key.isNull_ofText _)
  | key k hk =>
      have hname : Host.withKey h (.key k) x = x k.key := rfl
      rw [Client.Path.name, hname, hk.key_eq]

theorem set_eq (p : Client.Path l) (v : Handle) :
    Host.set h p.name v s = Host.setKey h l.key v s := by
  have hparallel : Parallel l.key (Host.setKey h l.key v) := .setKey
  -- A write makes its key in a place of its own, for it gives the value back if there is no key.
  cases p with
  | text t =>
      obtain ⟨s', hkey, hspare⟩ := newKey_spares hrest hlive t
      rw [Client.Path.name, set_text, bind_ok (tryCatch_ok hkey)]
      exact holdingKey_eq (x := fun k => Host.setKey h k v) hparallel hspare hlive
        (Key.isNull_ofText _)
  | index i hi =>
      obtain ⟨s', hkey, hspare⟩ := indexKey_spares hrest hlive hi
      rw [Client.Path.name, set_index, bind_ok (tryCatch_ok hkey)]
      exact holdingKey_eq (x := fun k => Host.setKey h k v) hparallel hspare hlive
        (Key.isNull_ofText _)
  | key k hk => rw [Client.Path.name, set_key, hk.key_eq]

/-- Whichever way a property is named, the same is done as by the key for what it is called. -/
theorem run_eq_runKey (u : Client.PropertyUse) (p : Client.Path l) :
    u.run h p.name s = u.runKey h l.key s := by
  cases u with
  | get => exact withKey_eq hrest hlive p .getKey
  | set v => exact set_eq hrest hlive p v
  | has => exact withKey_eq hrest hlive p .hasKey
  | delete => exact withKey_eq hrest hlive p .deleteKey

end Live

/-! ## Indices out of range -/

/-- No property can be named by an index that is out of range. -/
theorem indexKey_refused {σ : Type} [Engine σ] (h : Handle) {i : Int}
    (hi : ¬(0 ≤ i ∧ i ≤ maxIndex)) (s : Host σ) :
    Host.indexKey h i s = (.error (.failed (.indexOutOfRange i)), s) := by
  unfold Host.indexKey
  rw [if_neg hi]
  rfl

/-- What was handed over is given back, and nothing else is done. -/
theorem index_refused {σ : Type} [Engine σ] {s : Host (Recorded σ)} {i : Int} (h : Handle)
    (u : Client.PropertyUse) (hi : ¬(0 ≤ i ∧ i ≤ maxIndex))
    (hu : ∀ v ∈ u.handedOver, (Client.Item.value v).Rooted s.contexts) :
    Comes (u.releases s.contexts) (.refused (.indexOutOfRange i)) (u.run h (.index i)) s := by
  have hrefused := indexKey_refused h hi s
  cases u with
  | get | has | delete => exact .of_run (bind_error hrefused) (.refl s)
  | set v =>
      have hv := Client.Item.rooted_value.1 (hu v (List.mem_singleton_self v))
      have hhalts : Halts (.refused (.indexOutOfRange i)) (Host.indexKey h i) s := by
        rw [Halts, hrefused]
        exact ⟨rfl, rfl⟩
      have hset := giveBack_comes (f := fun k => Host.holdingKey k fun k => Host.setKey h k.key v)
        (e := .refused (.indexOutOfRange i)) rfl hv (fun h => by cases h)
        hhalts
      have hreleases : (Client.PropertyUse.set v).releases s.contexts =
          Client.Item.releases s.contexts (.value v) := List.append_nil _
      have hrun : (Client.PropertyUse.set v).run h (.index i) =
          (Host.set h (.index i) v : Action (Recorded σ) Unit) := rfl
      rw [hreleases]
      exact hset

end Host

/-! ## Engines at rest -/

/-- That the engine is at rest, whatever the host has. -/
def Accounting.resting : Accounting ScriptEngine where
  books _ e _ := e.AtRest
  exempt _ := True
  ask q _ _ _ := ScriptEngine.answer_atRest q _

namespace Client

/-- The engine is at rest between any two operations of a client. -/
theorem run_atRest (settings : Settings) (ops : List Operation) :
    ((start (ScriptEngine.start settings) settings).run ops).host.engine.AtRest := by
  have hstart : (start (ScriptEngine.start settings) settings).Kept Accounting.resting :=
    start_kept ⟨rfl, rfl⟩
  have hlend : Accounting.resting.Lends := fun _ _ _ _ _ _ _ => ScriptEngine.answer_atRest _ _
  have hleak : Accounting.resting.Leaks := fun _ _ _ _ hrest => hrest
  exact (run_kept_of_exempt hlend hleak (fun _ => trivial) hstart ops).books

/-- In a live context it makes no difference to anything, whatever the target is, which way a
property is named.  The engine is at rest because every answer leaves it so, which makes this hold
wherever a client can do something.  An index that is out of range is refused anywhere: the engine is
asked nothing but to take back what was handed over. -/
theorem paths_agree {s : Host ScriptEngine} (hrest : s.engine.AtRest) (h : Handle)
    (u : PropertyUse) :
    (Contexts.isLive s.contexts h.context → ∀ {l : Label} (p p' : Path l),
      u.run h p.name s = u.run h p'.name s) ∧
    ∀ i : Int, ¬(0 ≤ i ∧ i ≤ maxIndex) →
      (∀ v ∈ u.handedOver, (Item.value v).Rooted s.contexts) →
        Host.Comes (u.releases s.contexts) (.refused (.indexOutOfRange i)) (u.run h (.index i))
          s.recorded := by
  constructor
  · intro hlive l p p'
    obtain ⟨r, hr⟩ := Option.isSome_iff_exists.1 hlive
    exact (Host.run_eq_runKey hrest hr u p).trans (Host.run_eq_runKey hrest hr u p').symm
  · intro i hi hu
    exact Host.index_refused (s := s.recorded) h u hi hu

/-- An object is written into itself under the number ten, in digits or not; under a number that is
too large it is given back. -/
theorem paths_agree_inheriting :
    let u : PropertyUse := .set ⟨0, .object 0⟩
    u.run ⟨0, .object 0⟩ (.text "10") inheritingHost =
        u.run ⟨0, .object 0⟩ (.index 10) inheritingHost ∧
      Host.Comes [.release 0 [.value (.object 0)]] (.refused (.indexOutOfRange 2147483648))
        (u.run ⟨0, .object 0⟩ (.index 2147483648)) inheritingHost.recorded := by
  intro u
  have hlive : Contexts.isLive inheritingHost.contexts 0 := by decide
  obtain ⟨hagree, hrefused⟩ := paths_agree (s := inheritingHost) ⟨rfl, rfl⟩ ⟨0, .object 0⟩ u
  constructor
  · exact hagree hlive (.text (toString 10)) (.index 10 (by decide))
  · have hrooted : ∀ v ∈ u.handedOver, (Item.value v).Rooted inheritingHost.contexts := by
      intro v hv
      obtain rfl := List.mem_singleton.1 hv
      exact Item.rooted_value.2 fun _ => hlive
    have hreleases : u.releases inheritingHost.contexts = [.release 0 [.value (.object 0)]] := rfl
    have hcomes := hrefused 2147483648 (by decide) hrooted
    rwa [hreleases] at hcomes

end Client

end ScriptHost
