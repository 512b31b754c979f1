import ScriptHost.Engine.Answer
import ScriptHost.Proofs.Accounting
import ScriptHost.Proofs.Composed
/-!
# Keys that are held beside

The engine of scripts counts references to keys but does nothing with the counts.  So an action that
neither takes nor gives references to keys does the same whether or not the host holds another one
meanwhile.
-/

namespace ScriptHost

/-- A request that neither takes nor gives references to keys. -/
structure Request.Keyless (q : Request) : Prop where
  taken : ∀ r ∈ q.taken, r.isValue
  given : ∀ a, ∀ r ∈ q.given a, r.isValue

/-- A request that takes nothing and gives a value. -/
theorem Request.Keyless.of_value {q : Request} (htaken : q.taken = [])
    (hgiven : ∀ a, ∃ v, q.given a = Ref.ofValue v) : q.Keyless where
  taken := by simp [htaken]
  given := by
    intro a r hr
    obtain ⟨v, hv⟩ := hgiven a
    rw [hv] at hr
    exact Ref.isValue_of_mem_ofValue hr

/-- A request that takes and gives nothing. -/
theorem Request.Keyless.of_none {q : Request} (htaken : q.taken = [])
    (hgiven : ∀ a, q.given a = []) : q.Keyless where
  taken := by simp [htaken]
  given := by simp [hgiven]

/-- Describing what was thrown needs no keys. -/
theorem Request.keyless_of_describes {q : Request} (hq : q.describes) : q.Keyless := by
  cases q with
  | takeException _ => exact .of_value rfl fun v => ⟨v, rfl⟩
  | getNamed _ _ _ => exact .of_value rfl fun v => ⟨v, rfl⟩
  | isError _ _ | isFunction _ _ | toText _ _ => exact .of_none rfl fun _ => rfl
  | release r rs =>
      refine ⟨fun x hx => ?_, fun _ _ => nofun⟩
      obtain ⟨y, hy, hx⟩ := List.mem_flatMap.1 hx
      have hvalue : y.isValue := List.all_eq_true.1 hq y hy
      cases y with
      | value v => exact Ref.isValue_of_mem_ofValue hx
      | key k => cases hvalue
  | _ => cases hq

/-! ## Ledgers -/

namespace Ledger

variable {k : Key} {l l' : Ledger} {r : Ref}

/-- One ledger is another one with one reference to a key more. -/
structure Spares (k : Key) (l l' : Ledger) : Prop where
  objects : l'.objects = l.objects
  held : .key k ∈ l'.others
  others : l'.others.erase (.key k) = l.others

/-- The references that come first are to other things, so the one that was added last goes. -/
theorem spares_add (k : Key) (l : Ledger) : l.Spares k (l.add (.key k)) where
  objects := rfl
  held := List.mem_cons_self
  others := List.erase_cons_head _ _

theorem Spares.remove_key (h : l.Spares k l') : l'.remove (.key k) = l := by
  obtain ⟨objects, others⟩ := l
  obtain ⟨hobjects, -, hothers⟩ := h
  have hremove : l'.remove (.key k) = { l' with others := l'.others.erase (.key k) } := rfl
  rw [hremove, hobjects, hothers]

theorem Spares.add (h : l.Spares k l') (hr : r.isValue) : (l.add r).Spares k (l'.add r) := by
  obtain ⟨hobjects, hheld, hothers⟩ := h
  cases r with
  | key _ => cases hr
  | value v =>
      have herase : (Ref.value v :: l'.others).erase (.key k) = .value v :: l.others := by
        rw [List.erase_cons_tail (by simp), hothers]
      cases v with
      | object id =>
          refine ⟨?_, hheld, hothers⟩
          unfold Ledger.add
          rw [hobjects]
      | _ => exact ⟨hobjects, List.mem_cons_of_mem _ hheld, herase⟩

theorem Spares.remove (h : l.Spares k l') (hr : r.isValue) :
    (l.remove r).Spares k (l'.remove r) := by
  obtain ⟨hobjects, hheld, hothers⟩ := h
  cases r with
  | key _ => cases hr
  | value v =>
      have hne : Ref.key k ≠ .value v := nofun
      have hmem : .key k ∈ l'.others.erase (.value v) := (List.mem_erase_of_ne hne).2 hheld
      have herase : (l'.others.erase (.value v)).erase (.key k) = l.others.erase (.value v) := by
        rw [List.erase_comm, hothers]
      cases v with
      | object id =>
          unfold Ledger.remove
          dsimp only
          rw [hobjects]
          split
          · exact ⟨rfl, hheld, hothers⟩
          · exact ⟨rfl, hheld, hothers⟩
      | _ => exact ⟨hobjects, hmem, herase⟩

/-- Whatever is done for each of some references, one after the other. -/
theorem Spares.foldl {f : Ledger → Ref → Ledger} {rs : List Ref} (h : l.Spares k l')
    (hrs : ∀ r ∈ rs, r.isValue)
    (hf : ∀ {l l' : Ledger} {r : Ref}, l.Spares k l' → r.isValue → (f l r).Spares k (f l' r)) :
    (rs.foldl f l).Spares k (rs.foldl f l') := by
  induction rs generalizing l l' with
  | nil => exact h
  | cons r rs ih =>
      have hr := hf h (hrs r List.mem_cons_self)
      exact ih hr fun r hr => hrs r (List.mem_cons_of_mem _ hr)

theorem Spares.after {q : Request} {a : q.Reply} (h : l.Spares k l') (hq : q.Keyless) :
    (l.after q a).Spares k (l'.after q a) :=
  (h.foldl hq.taken .remove).foldl (hq.given a) .add

end Ledger

/-! ## Engines -/

namespace ScriptEngine

variable {e e' : ScriptEngine} {q : Request} {k : Key}

/-- The engine with another ledger. -/
def withLedger (e : ScriptEngine) (l : Ledger) : ScriptEngine := { e with ledger := l }

/-- No lent memory is still to be given back, and nothing that was put off is still to wait. -/
def AtRest (e : ScriptEngine) : Prop := e.machine.released = #[] ∧ e.machine.jobs = #[]

/-- Every answer leaves an engine at rest. -/
theorem answer_atRest (q : Request) (e : ScriptEngine) : (Engine.answer q e).state.AtRest :=
  ⟨rfl, rfl⟩

theorem AtRest.rested (h : e.AtRest) : e.rested = e := by
  obtain ⟨machine, pending, ledger, queue⟩ := e
  obtain ⟨hreleased, hjobs⟩ := h
  dsimp only at hreleased hjobs
  unfold ScriptEngine.rested
  dsimp only
  rw [← hreleased, hjobs, Array.append_empty, ← hjobs]

theorem run_withLedger {α : Type} (r : RealmId) (x : Eval α) (e : ScriptEngine) (l : Ledger) :
    run r x (e.withLedger l) = ((run r x e).1, (run r x e).2.withLedger l) := by
  obtain ⟨machine, pending, ledger, queue⟩ := e
  unfold run withLedger
  dsimp only
  split <;> rfl

theorem runValue_withLedger (r : RealmId) (x : Eval Value) (e : ScriptEngine) (l : Ledger) :
    runValue r x (e.withLedger l) = ((runValue r x e).1, (runValue r x e).2.withLedger l) := by
  unfold runValue
  rw [run_withLedger]
  rcases run r x e with ⟨_ | v, e'⟩ <;> rfl

theorem change_withLedger {α : Type} (r : RealmId) (x : Mem α) (e : ScriptEngine) (l : Ledger) :
    change r x (e.withLedger l) = ((change r x e).1, (change r x e).2.withLedger l) := rfl

theorem openRealm_withLedger (fs : List Feature) (e : ScriptEngine) (l : Ledger) :
    openRealm fs (e.withLedger l) = ((openRealm fs e).1, (openRealm fs e).2.withLedger l) := by
  unfold openRealm
  rw [change_withLedger]
  rcases change 0 (Builtin.newRealm fs) e with ⟨r, e₁⟩
  have hmachine : (e₁.withLedger l).machine = e₁.machine := rfl
  dsimp only
  rw [hmachine]
  cases e₁.machine.limits.memory with
  | none => rfl
  | some limit =>
      dsimp only
      split
      · rfl
      · rfl

theorem runJob_withLedger (e : ScriptEngine) (l : Ledger) :
    runJob (e.withLedger l) = ((runJob e).1, (runJob e).2.withLedger l) := by
  have hqueue : (e.withLedger l).queue = e.queue := rfl
  unfold runJob
  rw [hqueue]
  cases e.queue[0]? with
  | none => rfl
  | some x =>
      obtain ⟨realm, j⟩ := x
      have hrun := run_withLedger realm (Eval.perform j)
        { e with queue := e.queue.extract 1 e.queue.size } l
      unfold withLedger at hrun ⊢
      dsimp only at hrun ⊢
      rw [hrun]
      rcases run realm (Eval.perform j) { e with queue := e.queue.extract 1 e.queue.size } with
        ⟨_ | _, e₁⟩
      · rfl
      · rfl

/-- What is answered, and what becomes of the machine, does not depend on the ledger. -/
theorem core_withLedger (q : Request) (e : ScriptEngine) (l : Ledger) :
    core q (e.withLedger l) = ((core q e).1, (core q e).2.withLedger l) := by
  cases q with
  | openRealm | openBare _ =>
      unfold core
      exact openRealm_withLedger _ e l
  | runJob =>
      unfold core
      exact runJob_withLedger e l
  | keyOfValue _ _ | set _ _ _ _ | has _ _ _ | hasOwn _ _ _ | delete _ _ _ | ownKeys _ _ _
  | isInstance _ _ _ | toInt32 _ _ | toUInt32 _ _ | toInt64 _ _ | toFloat _ _ | toBigInt64 _ _
  | toText _ _ | bufferRegion _ _ | viewInfo _ _ =>
      unfold core
      exact run_withLedger _ _ e l
  | newText _ _ | newObject _ | newArray _ | newError _ | get _ _ _ | getNamed _ _ _
  | call _ _ _ _ | construct _ _ _ | evaluate _ _ _ _ | readJson _ _ _ | writeJson _ _
  | copyBuffer _ _ | lendBuffer _ _ _ _ =>
      unfold core
      exact runValue_withLedger _ _ e l
  | _ => rfl

/-- An engine and the same engine with one reference to a key more. -/
structure Spares (k : Key) (e e' : ScriptEngine) : Prop where
  same : e' = e.withLedger e'.ledger
  ledger : e.ledger.Spares k e'.ledger

/-- What is done before the references are counted leaves the ledger alone. -/
theorem core_ledger (q : Request) (e : ScriptEngine) : (core q e).2.ledger = e.ledger :=
  congrArg (fun x => x.2.ledger) (core_withLedger q e e.ledger)

/-- What is freed depends on the objects that are held only. -/
theorem tidy_withLedger {l : Ledger} (hl : l.objects = e.ledger.objects) (q : Request)
    (a : q.Reply) : tidy q a (e.withLedger l) = (tidy q a e).withLedger l := by
  have hheld : l.heldObjects = e.ledger.heldObjects := congrArg Std.TreeMap.keys hl
  have hroots : (e.withLedger l).roots = e.roots := by
    unfold roots withLedger
    rw [hheld]
  have hfree : (e.withLedger l).mayFree q a = e.mayFree q a := by
    have hcount : ∀ id, l.count (.value (.object id)) = e.ledger.count (.value (.object id)) :=
      fun id => congrArg (·.getD id 0) hl
    cases q with
    | release r rs =>
      unfold mayFree withLedger
      simp only [hcount]
    | _ => rfl
  -- The two requests that free what they can look at the roots alone, or at nothing.
  by_cases hq : q ≠ .collect ∧ q ≠ .shutDown
  · rw [tidy_eq hq, tidy_eq hq, hroots, hfree]
    have hmachine : (e.withLedger l).machine = e.machine := rfl
    rw [hmachine]
    split
    · rfl
    · rfl
  · rw [not_and_or, not_not, not_not] at hq
    rcases hq with rfl | rfl
    · unfold tidy
      rw [hroots]
      rfl
    · rfl

/-- A key that is held beside makes no difference to an answer. -/
theorem Spares.answer (h : e.Spares k e') (hq : q.Keyless) :
    (Engine.answer q e').reply = (Engine.answer q e).reply ∧
      (Engine.answer q e').freed = (Engine.answer q e).freed ∧
      (Engine.answer q e).state.Spares k (Engine.answer q e').state := by
  obtain ⟨l', rfl⟩ : ∃ l', e' = e.withLedger l' := ⟨_, h.same⟩
  have hspare : ((core q e).2.ledger.after q (core q e).1).Spares k (l'.after q (core q e).1) := by
    rw [core_ledger]
    exact h.ledger.after hq
  -- The engine when the references have been counted and nothing has been freed yet.
  let counted := (core q e).2.withLedger ((core q e).2.ledger.after q (core q e).1)
  let tidied := tidy q (core q e).1 counted
  have htidy : tidied.ledger = counted.ledger :=
    congrArg (·.ledger) (tidy_withLedger (e := counted) rfl q (core q e).1)
  have hstate : (Engine.answer q e).state = tidied.rested := rfl
  have hstate' : Engine.answer q (e.withLedger l') = ⟨(core q e).1,
      (tidied.withLedger (l'.after q (core q e).1)).rested, tidied.machine.released.toList⟩ := by
    have hanswer : Engine.answer q (e.withLedger l') = ScriptEngine.answer q (e.withLedger l') :=
      rfl
    rw [hanswer, ScriptEngine.answer, core_withLedger]
    have hsame := tidy_withLedger (e := counted) hspare.objects q (core q e).1
    dsimp only
    have hcounted : ({ (core q e).2.withLedger l' with
        ledger := (((core q e).2.withLedger l').ledger.after q (core q e).1) } : ScriptEngine) =
          counted.withLedger (l'.after q (core q e).1) := rfl
    rw [hcounted, hsame]
    rfl
  rw [hstate']
  refine ⟨rfl, rfl, rfl, ?_⟩
  have hledger : (Engine.answer q e).state.ledger = tidied.ledger := rfl
  rw [hledger, htidy]
  exact hspare

/-- A request to which there is a plain answer, and on which nothing is freed, changes the ledger of
an engine at rest and nothing else. -/
theorem answer_idle {a : q.Reply} (hrest : e.AtRest) (hcore : core q e = (a, e))
    (hplain : q ≠ .collect ∧ q ≠ .shutDown) (hidle : ∀ e : ScriptEngine, e.mayFree q a = false) :
    Engine.answer q e = ⟨a, e.withLedger (e.ledger.after q a), []⟩ := by
  have htidy : tidy q a (e.withLedger (e.ledger.after q a)) = e.withLedger (e.ledger.after q a) :=
    tidy_idle hplain (hidle _)
  have hrested : (e.withLedger (e.ledger.after q a)).AtRest := hrest
  have hcounted : ({ e with ledger := e.ledger.after q a } : ScriptEngine) =
      e.withLedger (e.ledger.after q a) := rfl
  have hanswer : Engine.answer q e = ScriptEngine.answer q e := rfl
  rw [hanswer, ScriptEngine.answer, hcore]
  dsimp only
  rw [hcounted, htidy, hrested.rested, hrested.1]

end ScriptEngine

/-! ## Hosts -/

namespace Host

open Accounting (bind_ok bind_error tryCatch_ok tryCatch_error context_ok)

variable {k : Key} {s s' : Host ScriptEngine} {c : ContextId} {h : Handle} {α β : Type}

/-- The host with another engine. -/
def withEngine {σ : Type} (s : Host σ) (e : σ) : Host σ := { s with engine := e }

/-- A host and the same host with one reference to a key more. -/
structure Spares (k : Key) (s s' : Host ScriptEngine) : Prop where
  same : s' = s.withEngine s'.engine
  engine : s.engine.Spares k s'.engine
  rest : s.engine.AtRest

/-- An action that does the same with one reference to a key more, and that leaves the contexts as
they are. -/
def Parallel (k : Key) (x : Action ScriptEngine α) : Prop :=
  ∀ s s', Spares k s s' →
    (x s').1 = (x s).1 ∧ Spares k (x s).2 (x s').2 ∧ (x s).2.contexts = s.contexts

theorem takeBacks_withEngine {σ : Type} (s : Host σ) (e : σ) (ts : List Token) :
    ts.foldl takeBack (s.withEngine e) = (ts.foldl takeBack s).withEngine e := by
  have hone : ∀ (s : Host σ) (t : Token),
      (s.withEngine e).takeBack t = (s.takeBack t).withEngine e := by
    intro s t
    unfold takeBack
    split
    · rfl
    · have hpins : (s.withEngine e).pins = s.pins := rfl
      rw [hpins]
      split
      · rfl
      · rfl
  induction ts generalizing s with
  | nil => rfl
  | cons t ts ih => rw [List.foldl_cons, hone, ih, List.foldl_cons]

theorem ask_run {σ : Type} [Engine σ] (q : Request) (s : Host σ) :
    Host.ask q s = (.ok (Engine.answer q s.engine).reply,
      ((Engine.answer q s.engine).freed.foldl takeBack s).withEngine
        (Engine.answer q s.engine).state) := by
  rw [← takeBacks_withEngine]
  rfl

namespace Parallel

theorem pure {a : α} : Parallel k (Pure.pure a) := fun _ _ h => ⟨rfl, h, rfl⟩

theorem throw {e : Stop} : Parallel k (throw e : Action ScriptEngine α) :=
  fun _ _ h => ⟨rfl, h, rfl⟩

/-- Both runs end in the same way. -/
theorem run_eq {x : Action ScriptEngine α} (hx : Parallel k x) (hs : Spares k s s') :
    ∃ a s₁ s₁', x s = (a, s₁) ∧ x s' = (a, s₁') ∧ Spares k s₁ s₁' ∧ s₁.contexts = s.contexts := by
  obtain ⟨hreply, hspare, hcontexts⟩ := hx s s' hs
  exact ⟨(x s).1, (x s).2, (x s').2, rfl, Prod.ext hreply rfl, hspare, hcontexts⟩

theorem bind {x : Action ScriptEngine α} {f : α → Action ScriptEngine β} (hx : Parallel k x)
    (hf : ∀ a, Parallel k (f a)) : Parallel k (x >>= f) := by
  intro s s' hs
  obtain ⟨e | a, s₁, s₁', hrun, hrun', hspare, hcontexts⟩ := hx.run_eq hs
  · rw [bind_error hrun, bind_error hrun']
    exact ⟨rfl, hspare, hcontexts⟩
  · rw [bind_ok hrun, bind_ok hrun']
    obtain ⟨hreply₁, hspare₁, hcontexts₁⟩ := hf a s₁ s₁' hspare
    exact ⟨hreply₁, hspare₁, hcontexts₁.trans hcontexts⟩

theorem tryCatch {x : Action ScriptEngine α} {f : Stop → Action ScriptEngine α}
    (hx : Parallel k x) (hf : ∀ e, Parallel k (f e)) :
    Parallel k (MonadExcept.tryCatch x f) := by
  intro s s' hs
  obtain ⟨e | a, s₁, s₁', hrun, hrun', hspare, hcontexts⟩ := hx.run_eq hs
  · rw [tryCatch_error hrun, tryCatch_error hrun']
    obtain ⟨hreply₁, hspare₁, hcontexts₁⟩ := hf e s₁ s₁' hspare
    exact ⟨hreply₁, hspare₁, hcontexts₁.trans hcontexts⟩
  · rw [tryCatch_ok hrun, tryCatch_ok hrun']
    exact ⟨rfl, hspare, hcontexts⟩

theorem context : Parallel k (Host.context c) := by
  intro s s' hs
  have hcontexts := congrArg Host.contexts hs.same
  have hentry : Contexts.entry s'.contexts c = Contexts.entry s.contexts c := by
    rw [hcontexts]
    rfl
  rw [context_ok, context_ok, hentry]
  exact ⟨rfl, hs, rfl⟩

theorem ask {q : Request} (hq : q.Keyless) : Parallel k (Host.ask q) := by
  intro s s' hs
  obtain ⟨hreply, hfreed, hengine⟩ := hs.engine.answer hq
  have hcontexts := (Accounting.takeBacks_eq s (Engine.answer q s.engine).freed).1
  rw [ask_run, ask_run, hreply, hfreed]
  refine ⟨rfl, ⟨?_, hengine, ScriptEngine.answer_atRest q s.engine⟩, hcontexts⟩
  rw [hs.same, takeBacks_withEngine]
  rfl

end Parallel

/-- An action that is composed of requests without keys does the same with a key held beside. -/
theorem Composed.parallel {x : Action ScriptEngine α} (hx : Composed Request.Keyless x) :
    Parallel k x := by
  induction hx with
  | pure a => exact .pure
  | throw e => exact .throw
  | context c => exact .context
  | ask hq => exact .ask hq
  | bind _ _ ihx ihf => exact ihx.bind ihf
  | tryCatch _ _ ihx ihf => exact ihx.tryCatch ihf

/-! ## Uses of properties -/

namespace Parallel

open Request (keyless_of_describes)

variable {k' : Key}

theorem getKey : Parallel k (Host.getKey h k') :=
  (Composed.getKey (fun _ => keyless_of_describes) h k' fun _ =>
    .of_value rfl fun v => ⟨v, rfl⟩).parallel

theorem setKey {v : Handle} : Parallel k (Host.setKey h k' v) :=
  (Composed.setKey (fun _ => keyless_of_describes) h k' v fun _ =>
    ⟨fun _ => Ref.isValue_of_mem_ofValue, fun _ _ => nofun⟩).parallel

theorem hasKey : Parallel k (Host.hasKey h k') :=
  (Composed.hasKey (fun _ => keyless_of_describes) h k' fun _ => .of_none rfl fun _ => rfl).parallel

theorem deleteKey : Parallel k (Host.deleteKey h k') :=
  (Composed.deleteKey (fun _ => keyless_of_describes) h k' (fun _ => .of_none rfl fun _ => rfl)
    fun _ => .of_none rfl fun _ => rfl).parallel

end Parallel

end Host

end ScriptHost
