import ScriptHost.Proofs.Describing
import ScriptHost.Proofs.Keeping
import ScriptHost.Proofs.Tracing
/-!
# What is known from one request to the next

An action is a row of requests.  What is known of an engine before a request has to be known again
after it, when things may have been freed.  The host holds some objects, and whatever these refer to
is as it was, so it is enough that what is known is about such things only.
-/

namespace ScriptHost

open Accounting (bind_ok bind_error tryCatch_ok tryCatch_error context_ok live_ok ask_eq)

/-! ## Actions in a table of contexts -/

namespace Host

variable {σ : Type} [Engine σ] {X : Contexts} {c : ContextId} {r : RealmId} {α β : Type}
  {P : σ → Prop} {Q Q' : α → σ → Prop} {R : β → σ → Prop} {E : Stop → Prop}

/-- An action that comes to its end on the engines of a kind, and what is known then. -/
def Yields (X : Contexts) (P : σ → Prop) (x : Action σ α) (Q : α → σ → Prop) : Prop :=
  ∀ s : Host σ, s.contexts = X → P s.engine →
    ∃ a s', x s = (.ok a, s') ∧ s'.contexts = X ∧ Q a s'.engine

/-- An action that stops on the engines of a kind, and why. -/
def Fails (X : Contexts) (P : σ → Prop) (x : Action σ α) (E : Stop → Prop) : Prop :=
  ∀ s : Host σ, s.contexts = X → P s.engine →
    ∃ e s', x s = (.error e, s') ∧ s'.contexts = X ∧ E e

namespace Yields

omit [Engine σ] in
theorem pure {a : α} (h : ∀ e, P e → Q a e) : Yields X P (Pure.pure a) Q := by
  intro s hX hP
  exact ⟨a, s, rfl, hX, h _ hP⟩

omit [Engine σ] in
theorem bind {x : Action σ α} {f : α → Action σ β} (hx : Yields X P x Q)
    (hf : ∀ a, Yields X (Q a) (f a) R) : Yields X P (x >>= f) R := by
  intro s hX hP
  rcases hx s hX hP with ⟨a, s₁, hrun, hX₁, hQ⟩
  rw [bind_ok hrun]
  exact hf a s₁ hX₁ hQ

omit [Engine σ] in
theorem mono {x : Action σ α} (hx : Yields X P x Q) (h : ∀ a e, Q a e → Q' a e) :
    Yields X P x Q' := by
  intro s hX hP
  rcases hx s hX hP with ⟨a, s', hrun, hX', hQ⟩
  exact ⟨a, s', hrun, hX', h a _ hQ⟩

omit [Engine σ] in
/-- What is known may come from how the engine is. -/
theorem given {x : Action σ α} (hx : ∀ e, P e → Yields X (· = e) x Q) : Yields X P x Q := by
  intro s hX hP
  exact hx s.engine hP s hX rfl

theorem ask {q : Request} {Q : q.Reply → σ → Prop}
    (h : ∀ e, P e → Q (Engine.answer q e).reply (Engine.answer q e).state) :
    Yields X P (Host.ask q) Q := by
  intro s hX hP
  rcases ask_eq q s with ⟨s', hrun, hcontexts, hengine, -⟩
  refine ⟨_, s', hrun, hcontexts.trans hX, ?_⟩
  rw [hengine]
  exact h _ hP

omit [Engine σ] in
theorem live_bind {f : RealmId → Action σ β} (hr : (X.entry c).realm = some r)
    (hf : Yields X P (f r) R) : Yields X P (Host.live c >>= f) R := by
  intro s hX hP
  rw [bind_ok (live_ok (by rw [hX, hr]))]
  exact hf s hX hP

omit [Engine σ] in
theorem context_bind {f : Context → Action σ β} (hf : Yields X P (f (X.entry c)) R) :
    Yields X P (Host.context c >>= f) R := by
  intro s hX hP
  rw [bind_ok (context_ok c s), hX]
  exact hf s hX hP

/-- A request that is made in a live context. -/
theorem asked {q : RealmId → Request} {f : ∀ r, (q r).Reply → Action σ β}
    {Q : (q r).Reply → σ → Prop} (hr : (X.entry c).realm = some r)
    (hq : ∀ e, P e → Q (Engine.answer (q r) e).reply (Engine.answer (q r) e).state)
    (hf : ∀ a, Yields X (Q a) (f r a) R) :
    Yields X P (do
      let r ← Host.live c
      let a ← Host.ask (q r)
      f r a) R :=
  live_bind hr ((ask hq).bind hf)

omit [Engine σ] in
theorem ensuring {x : Action σ α} {last : Action σ Unit} (hx : Yields X P x Q)
    (hlast : ∀ a, Yields X (Q a) last fun _ => Q' a) : Yields X P (Host.ensuring x last) Q' := by
  intro s hX hP
  rcases hx s hX hP with ⟨a, s₁, hrun, hX₁, hQ⟩
  rcases hlast a s₁ hX₁ hQ with ⟨u, s', hend, hX', hQ'⟩
  refine ⟨a, s', ?_, hX', hQ'⟩
  exact (bind_ok (tryCatch_ok hrun)).trans (bind_ok hend)

/-- A value that the engine gave is handed on. -/
theorem check {v : Value} (hv : v ≠ .exception) : Yields X P (Host.check c v)
    fun h e => h = ⟨c, v⟩ ∧ P e := by
  unfold Host.check
  rw [if_neg (by simpa using hv)]
  exact pure fun _ hP => ⟨rfl, hP⟩

theorem orThrow {a : α} : Yields X P (Host.orThrow c (some a)) fun b e => b = a ∧ P e :=
  pure fun _ hP => ⟨rfl, hP⟩

theorem orViolation {a : α} (operation : String) :
    Yields X P (Host.orViolation c operation (some a)) fun b e => b = a ∧ P e :=
  pure fun _ hP => ⟨rfl, hP⟩

end Yields

namespace Fails

omit [Engine σ] in
theorem fail {e : HostError} : Fails X P (Host.fail e : Action σ α) (· = .failed e) := by
  intro s hX _
  exact ⟨_, s, rfl, hX, rfl⟩

omit [Engine σ] in
theorem mono {E' : Stop → Prop} {x : Action σ α} (hx : Fails X P x E) (h : ∀ e, E e → E' e) :
    Fails X P x E' := by
  intro s hX hP
  rcases hx s hX hP with ⟨e, s', hrun, hX', hE⟩
  exact ⟨e, s', hrun, hX', h e hE⟩

omit [Engine σ] in
/-- An action that stops later on. -/
theorem bind {x : Action σ α} {f : α → Action σ β} (hx : Yields X P x Q)
    (hf : ∀ a, Fails X (Q a) (f a) E) : Fails X P (x >>= f) E := by
  intro s hX hP
  rcases hx s hX hP with ⟨a, s₁, hrun, hX₁, hQ⟩
  rw [bind_ok hrun]
  exact hf a s₁ hX₁ hQ

omit [Engine σ] in
/-- An action that stops in its first step. -/
theorem head {x : Action σ α} {f : α → Action σ β} (hx : Fails X P x E) :
    Fails X P (x >>= f) E := by
  intro s hX hP
  rcases hx s hX hP with ⟨e, s', hrun, hX', hE⟩
  exact ⟨e, s', bind_error hrun, hX', hE⟩

omit [Engine σ] in
theorem live_bind {f : RealmId → Action σ β} (hr : (X.entry c).realm = some r)
    (hf : Fails X P (f r) E) : Fails X P (Host.live c >>= f) E := by
  intro s hX hP
  rw [bind_ok (live_ok (by rw [hX, hr]))]
  exact hf s hX hP

omit [Engine σ] in
theorem context_bind {f : Context → Action σ β} (hf : Fails X P (f (X.entry c)) E) :
    Fails X P (Host.context c >>= f) E := by
  intro s hX hP
  rw [bind_ok (context_ok c s), hX]
  exact hf s hX hP

/-- What is done at the end is done, and then the action stops as it would have. -/
theorem holding {h : Handle} {x : Handle → Action σ α} (hr : (X.entry c).realm = some r)
    (hc : h.context = c) (hx : Fails X P (x h) E) : Fails X P (Host.holding h x) E := by
  intro s hX hP
  rcases hx s hX hP with ⟨e, s₁, hrun, hX₁, hE⟩
  rcases drop_sure hr hc s₁ hX₁ with ⟨u, s', hdrop, hX'⟩
  refine ⟨e, s', ?_, hX', hE⟩
  have hcaught : tryCatch (x h) (fun e => do
      Host.drop h
      throw e) s = (.error e, s') := (tryCatch_error hrun).trans (bind_ok hdrop)
  exact bind_error hcaught

end Fails

end Host

/-! ## What lasts -/

namespace ScriptEngine

open Host (Yields)

variable {e e₁ : ScriptEngine} {q : Request} {held held' : List Nat} {I : Machine → Prop}

/-- Something that is known of machines and does not go by as long as some objects are held. -/
def Lasting (held : List Nat) (I : Machine → Prop) : Prop :=
  ∀ (m m' : Machine) (roots : List Node), (∀ id ∈ held, .object id ∈ roots) → I m →
    m.Sheds (fun id => m.Held roots (.object id)) m' → I m'

/-- What lasts does so if more is held. -/
theorem Lasting.mono (h : Lasting held I) (hsub : ∀ id ∈ held, id ∈ held') : Lasting held' I := by
  intro m m' roots hroots
  exact h m m' roots fun id hid => hroots id (hsub id hid)

theorem Lasting.and {J : Machine → Prop} (hI : Lasting held I) (hJ : Lasting held J) :
    Lasting held fun m => I m ∧ J m := by
  intro m m' roots hroots hm hsheds
  exact ⟨hI m m' roots hroots hm.1 hsheds, hJ m m' roots hroots hm.2 hsheds⟩

/-- An engine with a machine of which something is known, to whose objects the host has references:
as many as a list has entries. -/
structure Holds (e : ScriptEngine) (held : List Nat) (I : Machine → Prop) : Prop where
  machine : I e.machine
  held : ∀ id, held.count id ≤ e.ledger.count (.value (.object id))

/-- The object that was thrown. -/
def thrownObjects (e : ScriptEngine) : List Nat := (e.pending.bind Value.objectId?).toList

end ScriptEngine

/-- Changing what has nothing to do with objects frees nothing. -/
theorem Machine.Sheds.of_same {P : Nat → Prop} {m m' : Machine} (hheap : m'.heap = m.heap)
    (hcells : m'.cells = m.cells) (hrealms : m'.realms = m.realms) (hlimits : m'.limits = m.limits)
    (hregions : m'.regions = m.regions) : m.Sheds P m' := by
  have hobj : ∀ id, m'.obj id = m.obj id := by
    intro id
    rw [Machine.obj, hheap, Machine.obj]
  refine ⟨by rw [hheap], fun id _ => ?_, fun id => ?_, hcells, hrealms, hlimits, fun g => .inl ?_⟩
  · rw [hobj]
    exact .same
  · rw [hobj]
    exact .same
  · rw [Machine.region, hregions, Machine.region]

namespace ScriptEngine

variable {e e₁ : ScriptEngine} {q : Request} {held held' : List Nat} {I : Machine → Prop}

/-- What the host holds, or has still to take, is a root. -/
theorem Holds.mem_roots (h : e.Holds held I) {id : Nat} (hid : id ∈ held ++ e.thrownObjects) :
    .object id ∈ e.roots := by
  rcases List.mem_append.1 hid with hid | hid
  · have hpos : 0 < e.ledger.count (.value (.object id)) :=
      (List.count_pos_iff.2 hid).trans_le (h.held id)
    exact List.mem_append_left _ (List.mem_map_of_mem (Ledger.mem_heldObjects hpos))
  · -- What was thrown is still with the engine.
    rw [thrownObjects, Option.mem_toList, Option.bind_eq_some_iff] at hid
    rcases hid with ⟨v, hv, hobject⟩
    cases v with
    | object j =>
        cases hobject
        refine List.mem_append_right _ (List.mem_append_left _ ?_)
        rw [hv]
        exact List.mem_singleton_self _
    | _ => cases hobject

/-- Freeing after an answer leaves alone what lasts. -/
theorem Holds.tidy (h : e.Holds held I) (hlasting : Lasting (held ++ e.thrownObjects) I)
    (hq : q ≠ .collect ∧ q ≠ .shutDown) (a : q.Reply) :
    (tidy q a e).Holds held I ∧ (tidy q a e).pending = e.pending := by
  rw [tidy_eq hq]
  split
  · refine ⟨⟨?_, h.held⟩, rfl⟩
    exact hlasting _ _ e.roots (fun id => h.mem_roots) h.machine (Machine.settle_sheds _ _)
  · exact ⟨h, rfl⟩

/-- An answer follows from what is done to the machine and from the references that change hands. -/
theorem answer_holds {a : q.Reply} (hq : q ≠ .collect ∧ q ≠ .shutDown)
    (hcore : core q e = (a, e₁)) (hledger : e₁.ledger = e.ledger) (hmachine : I e₁.machine)
    (hlasting : Lasting (held' ++ e₁.thrownObjects) I)
    (hheld : ∀ id, held'.count id ≤ e.ledger.count (.value (.object id)) -
      q.taken.count (.value (.object id)) + (q.given a).count (.value (.object id))) :
    (Engine.answer q e).reply = a ∧ (Engine.answer q e).state.Holds held' I ∧
      (Engine.answer q e).state.pending = e₁.pending := by
  have hcounted : Holds { e₁ with ledger := e₁.ledger.after q a } held' I := by
    refine ⟨hmachine, fun id => ?_⟩
    have hcount := Ledger.count_after e₁.ledger q a (.value (.object id))
    rw [hledger] at hcount
    change held'.count id ≤ (e₁.ledger.after q a).count (.value (.object id))
    rw [hledger, hcount]
    exact hheld id
  rcases hcounted.tidy hlasting hq a with ⟨htidy, hpending⟩
  have hanswer : Engine.answer q e = answer q e := rfl
  rw [hanswer, answer, hcore]
  refine ⟨rfl, ⟨?_, htidy.held⟩, hpending⟩
  -- The tokens that were given up are told to the host, and what was put off waits; neither changes
  -- an object.
  exact hlasting.mono (fun id hid => hid) _ _ (held' ++ e₁.thrownObjects |>.map .object)
    (fun id hid => List.mem_map_of_mem hid) htidy.machine (.of_same rfl rfl rfl rfl rfl)

end ScriptEngine

end ScriptHost
