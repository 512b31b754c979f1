import ScriptHost.Proofs.Lifetimes
import ScriptHost.Proofs.Reserving
/-!
# Refusals are handed on

What is made without a failure being told is real as long as the engine refuses nothing.  A refusal
shows in no result: its sentinel or null key is handed on like anything else, and what the engine
threw stays pending.
-/

namespace ScriptHost

namespace Client

open Accounting (bind_ok bind_error live_ok)

variable {σ : Type} [Engine σ] {pending : σ → Option Value} {c : ContextId} {r : RealmId}
  {h : Host (Recorded σ)}

theorem Allocation.isAllocation_request (r : RealmId) (a : Allocation) :
    (a.request r).isAllocation = true := by
  cases a <;> rfl

/-- What the engine gives is handed on, and it is real unless the engine refused. -/
theorem Allocation.run_live (hr : (Contexts.entry h.contexts c).realm = some r) (a : Allocation) :
    ∃ i, a.run c h = (.ok i, (Host.ask (a.request r) h).2) ∧
      i.isReal = !(a.request r).fails (Engine.answer (a.request r) h.engine.engine).reply := by
  have hlive : Host.live c h = (.ok r, h) := live_ok hr
  -- Each of them asks one request of a live context and wraps the answer.
  cases a with
  | text s => exact ⟨_, (bind_ok ((bind_ok hlive).trans rfl)).trans rfl, rfl⟩
  | object => exact ⟨_, (bind_ok ((bind_ok hlive).trans rfl)).trans rfl, rfl⟩
  | array => exact ⟨_, (bind_ok ((bind_ok hlive).trans rfl)).trans rfl, rfl⟩
  | bigInt64 n => exact ⟨_, (bind_ok ((bind_ok hlive).trans rfl)).trans rfl, rfl⟩
  | bigUInt64 n => exact ⟨_, (bind_ok ((bind_ok hlive).trans rfl)).trans rfl, rfl⟩
  | key s => exact ⟨_, (bind_ok ((bind_ok hlive).trans rfl)).trans rfl, rfl⟩
  | indexKey n => exact ⟨_, (bind_ok ((bind_ok hlive).trans rfl)).trans rfl, rfl⟩

/-- What making things one after another comes to: items, of which just those are not real that the
engine refused.  Something is pending after an exchange only if something was refused. -/
structure Allocated (pending : σ → Option Value) (as : List (ContextId × Allocation))
    (items : List Item) (new : History σ) (h h' : Host (Recorded σ)) : Prop where
  history : h'.engine.history = new ++ h.engine.history
  contexts : h'.contexts = h.contexts
  requests : new.requests =
    as.map fun a => a.2.request ((Contexts.entry h.contexts a.1).realm.getD 0)
  real : items.map Item.isReal = new.reverse.map fun x => !x.request.fails x.reply
  calm : pending h.engine.engine = none → new.Granted →
    new.Calm pending ∧ pending h'.engine.engine = none
  granted : new.Calm pending → new.Granted

/-- One thing more is made first. -/
theorem Allocated.cons (T : Throwing pending) (R : Refusing pending) {a : Allocation}
    {as : List (ContextId × Allocation)} {i : Item} {items : List Item} {new : History σ}
    {h' : Host (Recorded σ)} (hr : (Contexts.entry h.contexts c).realm = some r)
    (hreal : i.isReal =
      !(a.request r).fails (Engine.answer (a.request r) h.engine.engine).reply)
    (hallocated : Allocated pending as items new (Host.ask (a.request r) h).2 h') :
    Allocated pending ((c, a) :: as) (i :: items) (new ++ [h.engine.exchange (a.request r)]) h
      h' := by
  let x : Exchange σ := h.engine.exchange (a.request r)
  have hcontexts := Host.contexts_ask (a.request r) h
  have hafter : (Host.ask (a.request r) h).2.engine.engine = x.after :=
    congrArg Recorded.engine (Host.engine_ask (a.request r) h)
  have hkind : x.request.isAllocation := a.isAllocation_request r
  constructor
  case history =>
    rw [hallocated.history, Host.engine_ask, Recorded.answer_history, List.append_assoc,
      List.singleton_append]
  case contexts => rw [hallocated.contexts, hcontexts]
  case requests =>
    rw [Host.Asked.requests_append, hallocated.requests, hcontexts, List.map_cons, hr]
    rfl
  case real =>
    rw [List.map_cons, hallocated.real, hreal, List.reverse_concat, List.map_cons]
    rfl
  case calm =>
    intro hclear hgranted
    -- What was given first throws nothing, so the rest starts with nothing pending.
    have hclear₁ : pending (Host.ask (a.request r) h).2.engine.engine = none := by
      rw [hafter]
      exact T.throws x.request x.before hclear (hgranted x (by simp [x]) hkind)
    obtain ⟨hcalm, hclear₂⟩ := hallocated.calm hclear₁ fun y hy =>
      hgranted y (List.mem_append_left [x] hy)
    refine ⟨?_, hclear₂⟩
    rintro y hy
    rcases List.mem_append.1 hy with hy | hy
    · exact hcalm y hy
    · rw [List.mem_singleton.1 hy]
      exact hafter ▸ hclear₁
  case granted =>
    intro hcalm y hy hallocation
    rcases List.mem_append.1 hy with hy | hy
    · have hbefore : new.Calm pending := fun z hz => hcalm z (List.mem_append_left [x] hz)
      exact hallocated.granted hbefore y hy hallocation
    · -- Had it been refused, something would have been thrown.
      rw [List.mem_singleton.1 hy]
      by_contra hfails
      have hthrown := R.throws x.request x.before hkind (Bool.not_eq_false _ ▸ hfails)
      have hnone : pending x.after = none := hcalm x (by simp [x])
      rw [Exchange.after] at hnone
      rw [hnone] at hthrown
      cases hthrown

theorem allocate_allocated (T : Throwing pending) (R : Refusing pending)
    (as : List (ContextId × Allocation)) (hlive : ∀ a ∈ as, Contexts.isLive h.contexts a.1) :
    ∃ items new h', allocate as h = (.ok items, h') ∧ Allocated pending as items new h h' := by
  induction as generalizing h with
  | nil =>
      exact ⟨[], [], h, rfl, rfl, rfl, rfl, rfl, fun hclear _ => ⟨by simp [History.Calm], hclear⟩,
        fun _ => by simp [History.Granted]⟩
  | cons a as ih =>
      obtain ⟨c, a⟩ := a
      obtain ⟨hlive, hrest⟩ := List.forall_mem_cons.1 hlive
      obtain ⟨r, hr⟩ := Option.isSome_iff_exists.1 hlive
      obtain ⟨i, hrun, hreal⟩ := a.run_live hr
      -- The first request leaves the contexts alone, so they are live for the rest.
      obtain ⟨items, new, h', hrest, hallocated⟩ := ih (h := (Host.ask (a.request r) h).2)
        (by rwa [Host.contexts_ask])
      refine ⟨i :: items, _, h', ?_, hallocated.cons T R hr hreal⟩
      rw [allocate, List.mapM_cons, bind_ok hrun]
      exact (bind_ok hrest).trans rfl

theorem Allocated.all_real_iff {as : List (ContextId × Allocation)} {items : List Item}
    {new : History σ} {h h' : Host (Recorded σ)}
    (hallocated : Allocated pending as items new h h') :
    (∀ i ∈ items, i.isReal) ↔ new.Granted := by
  have hkinds : ∀ x ∈ new, x.request.isAllocation = true := by
    intro x hx
    have hrequest : x.request ∈ new.requests := by
      rw [History.requests, List.mem_reverse]
      exact List.mem_map_of_mem hx
    rw [hallocated.requests] at hrequest
    obtain ⟨a, -, hasked⟩ := List.mem_map.1 hrequest
    rw [← hasked]
    exact a.2.isAllocation_request _
  calc (∀ i ∈ items, i.isReal)
      ↔ ∀ b ∈ items.map Item.isReal, b = true := by rw [List.forall_mem_map]
    _ ↔ ∀ x ∈ new, (!x.request.fails x.reply) = true := by
        rw [hallocated.real, List.forall_mem_map]
        simp only [List.mem_reverse]
    _ ↔ new.Granted := by
        refine forall₂_congr fun x hx => ?_
        rw [hkinds x hx, Bool.not_eq_true', eq_self, forall_const]

/-- Texts, objects, arrays, big integers and keys are always handed on, and those that are not real
are just those that the engine refused to make.  So all of them are real if and only if nothing was
refused, and just as well if and only if nothing was ever pending. -/
theorem allocations_real_iff_granted (T : Throwing pending) (R : Refusing pending)
    (hclear : pending h.engine.engine = none) (as : List (ContextId × Allocation))
    (hlive : ∀ a ∈ as, Contexts.isLive h.contexts a.1) :
    ∃ items new h', allocate as h = (.ok items, h') ∧ h'.engine.history = new ++ h.engine.history ∧
      new.requests = as.map (fun a =>
        a.2.request ((Contexts.entry h.contexts a.1).realm.getD 0)) ∧
      items.map Item.isReal = new.reverse.map (fun x => !x.request.fails x.reply) ∧
      ((∀ i ∈ items, i.isReal) ↔ new.Granted) ∧ (new.Calm pending ↔ new.Granted) ∧
      (new.Granted → pending h'.engine.engine = none) := by
  obtain ⟨items, new, h', hrun, hallocated⟩ := allocate_allocated T R as hlive
  refine ⟨items, new, h', hrun, hallocated.history, hallocated.requests, hallocated.real, ?_,
    ⟨hallocated.granted, fun hgranted => (hallocated.calm hclear hgranted).1⟩,
    fun hgranted => (hallocated.calm hclear hgranted).2⟩
  exact hallocated.all_real_iff

/-- A host with one context, whose engine may use one byte. -/
def tightHost : Host ScriptEngine :=
  { engine := ScriptEngine.start { memoryLimit := some 1 }
    contexts := (∅ : Contexts).insert 0 { realm := some 0 } }

/-- A text that there is no room for is handed on all the same, and what was thrown stays
pending. -/
theorem refused_text_handed_on :
    ∃ i h', Contexts.isLive tightHost.contexts 0 ∧ tightHost.engine.pending = none ∧
      (Allocation.text "long").run 0 tightHost = (.ok i, h') ∧ i.isReal = false ∧
      h'.engine.pending.isSome := by
  refine ⟨.value ⟨0, .exception⟩, ((Allocation.text "long").run 0 tightHost).2, by decide, rfl, ?_,
    rfl, by decide⟩
  refine Prod.fst_eq_iff.1 ?_
  decide

/-- There is no room for a text, but a key for an index needs none. -/
theorem allocations_real_iff_granted_tight :
    let as : List (ContextId × Allocation) := [(0, .text "long"), (0, .indexKey 7)]
    ∃ items new h', allocate as tightHost.recorded = (.ok items, h') ∧
      items.map Item.isReal = [false, true] ∧ ¬History.Granted new ∧
      ¬History.Calm ScriptEngine.pending new := by
  intro as
  have hreal : ((allocate as tightHost.recorded).1.map (List.map Item.isReal)) =
      .ok [false, true] := by decide
  obtain ⟨items, new, h', hrun, -, -, -, hall, hcalm, -⟩ :=
    allocations_real_iff_granted ScriptEngine.throwing ScriptEngine.refusing
      (h := tightHost.recorded) rfl as (by decide)
  rw [hrun] at hreal
  have hreal : items.map Item.isReal = [false, true] := Except.ok.inj hreal
  have hrefused : ¬new.Granted := by
    rw [← hall, ← List.forall_mem_map (P := fun b => b = true), hreal]
    decide
  exact ⟨items, new, h', hrun, hreal, hrefused, fun h => hrefused (hcalm.1 h)⟩

end Client

end ScriptHost
