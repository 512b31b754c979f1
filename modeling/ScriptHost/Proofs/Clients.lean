import ScriptHost.Client.Run
import ScriptHost.Host.History
import ScriptHost.Proofs.Operations
/-!
# Clients keep their accounts

What holds of a client that was just started, and what every operation preserves: the table of
contexts is tended, the items of the client are rooted in live contexts, its views are lent by
theirs, and an accounting is kept of the references that it owns and those that wait.

One accounting is the ledger: the host holds as many references to a thing as its client owns and as
wait for the ends of contexts.
-/

namespace ScriptHost

namespace Client

open Accounting

variable {σ : Type} [Engine σ] {A : Accounting σ} {s : Client σ} {op : Operation}

/-- A client whose contexts are tended, and whose items go with these. -/
structure Orderly (s : Client σ) : Prop where
  tended : Contexts.Tended s.host.contexts
  rooted : ∀ i ∈ s.owned, i.Rooted s.host.contexts
  lent : ∀ i ∈ s.views, i.Lent s.host.contexts

/-- A client in good order, of which an accounting is kept. -/
structure Kept (A : Accounting σ) (s : Client σ) : Prop extends Orderly s where
  books : A.books (s.ownedRefs + Contexts.bag s.host.contexts) s.host.engine s.host.pins

/-- The references in what a client owns beside the item that an operation consumes. -/
def restRefs (s : Client σ) (op : Operation) : List Ref := (s.rest op).flatMap Item.refs

/-! ## Starting -/

omit [Engine σ] in
theorem start_orderly {engine : σ} {settings : Settings} : (start engine settings).Orderly where
  tended c := Contexts.tended_of_ended (by simp [start, Host.start, Contexts.entry])
    (by simp [start, Host.start, Contexts.entry, Context.waiting, Ref.inTable])
  rooted := by simp [start]
  lent := by simp [start]

theorem start_kept {engine : σ} {settings : Settings} (h : A.books 0 engine .empty) :
    (start engine settings).Kept A where
  toOrderly := start_orderly
  books := h

/-! ## What is permitted -/

omit [Engine σ] in
theorem permits_iff : s.permits op ↔
    (∀ i ∈ op.consumed, i ∈ s.owned) ∧ (∀ u ∈ op.uses, u.2 ∈ s.rest op ∨ u.2 ∈ s.views) ∧
      (∀ c ∈ op.opened?, c ∉ s.host.contexts) ∧
      ∀ c ∈ op.closed?, ∀ i ∈ s.owned, ¬i.isOf c := by
  simp [permits, and_assoc, ← Std.TreeMap.contains_iff_mem]

omit [Engine σ] in
theorem mem_owned_of_mem_rest {i : Item} (hi : i ∈ s.rest op) : i ∈ s.owned := by
  unfold rest at hi
  cases hc : op.consumed with
  | none => rwa [hc] at hi
  | some j =>
      rw [hc] at hi
      exact List.mem_of_mem_erase hi

omit [Engine σ] in
/-- A view that outlasts an operation is one, and none of a context that is ended. -/
theorem mem_lasting {i : Item} (hi : i ∈ s.lasting op) :
    i ∈ s.views ∧ ∀ c ∈ op.closed?, ¬i.isOf c := by
  unfold lasting at hi
  cases hc : op.closed? with
  | none =>
      rw [hc] at hi
      exact ⟨hi, by simp⟩
  | some c =>
      rw [hc] at hi
      simpa using hi

omit [Engine σ] in
/-- What a client owns is what the operation consumes and the rest. -/
theorem ownedRefs_eq (hop : ∀ i ∈ op.consumed, i ∈ s.owned) :
    (s.ownedRefs : Multiset Ref) =
      (op.consumed.toList.flatMap Item.refs : List Ref) + s.restRefs op := by
  unfold ownedRefs restRefs rest
  cases hc : op.consumed with
  | none => simp
  | some i =>
      have hperm := (List.perm_cons_erase (hop i hc)).flatMap_right Item.refs
      rw [List.flatMap_cons] at hperm
      simpa using Multiset.coe_eq_coe.2 hperm

/-! ## Steps -/

/-- No item has references in a context. -/
def Idle (is : List Item) (c : ContextId) : Prop := ∀ i ∈ is, ∀ p ∈ i.parts, p.1 = c → p.2 = []

/-- Nobody has references in a context that is about to be made or ended. -/
theorem idle_of_permits (hs : s.Kept A) (hop : s.permits op) {c : ContextId}
    (hc : op.opened?.or op.closed? = some c) : Idle (s.owned ++ s.lasting op) c := by
  obtain ⟨-, -, hopened, hclosed⟩ := permits_iff.1 hop
  intro i hi p hp heq
  rcases Option.or_eq_some_iff.1 hc with hc | ⟨-, hc⟩
  · by_contra hne
    rcases List.mem_append.1 hi with hi | hi
    · exact hopened c hc (heq ▸ Contexts.mem_of_isLive (hs.rooted i hi p hp hne))
    · exact hopened c hc (heq ▸ ((hs.lent i (mem_lasting hi).1).waits p hp hne).1)
  · have hother : ¬i.isOf c := by
      rcases List.mem_append.1 hi with hi | hi
      · exact hclosed c hc i hi
      · exact (mem_lasting hi).2 c hc
    have hof : i.isOf c := List.any_eq_true.2 ⟨p, hp, beq_iff_eq.2 heq⟩
    exact absurd hof hother

theorem Item.Rooted.grown {X Y : Contexts} {c? : Option ContextId} {i : Item} (hi : i.Rooted X)
    (hXY : X.Grown c? Y) (hc : ∀ c, c? = some c → Idle [i] c) : i.Rooted Y := by
  intro p hp hne
  have hother : c? ≠ some p.1 := fun heq => hne (hc p.1 heq i (by simp) p hp rfl)
  rw [(hXY p.1 hother).1]
  exact hi p hp hne

theorem Item.Lent.grown {X Y : Contexts} {c? : Option ContextId} {i : Item} (hi : i.Lent X)
    (hXY : X.Grown c? Y) (hc : ∀ c, c? = some c → Idle [i] c) : i.Lent Y := by
  refine ⟨hi.covered, fun p hp hne => ?_⟩
  have hother : c? ≠ some p.1 := fun heq => hne (hc p.1 heq i (by simp) p hp rfl)
  obtain ⟨hlive, hmem, hsub⟩ := hXY p.1 hother
  obtain ⟨hin, hwaits⟩ := hi.waits p hp hne
  exact ⟨hmem hin, fun h => List.Subset.trans (hwaits (hlive ▸ h)) hsub⟩

/-- A client keeps its accounts if the operation settled. -/
theorem kept_of_settled {y : Yield} {h : Host σ} (hs : s.Kept A) (hop : s.permits op)
    (hh : A.Settled s.host.contexts (op.opened?.or op.closed?) (s.restRefs op) y h) :
    Kept A ⟨h, y.owned ++ s.rest op, y.views ++ s.lasting op⟩ := by
  obtain ⟨Y, hgrown, hY, hroot, hlent, hh⟩ := hh
  have hidle : ∀ i ∈ s.owned ++ s.lasting op, ∀ c, op.opened?.or op.closed? = some c → Idle [i] c := by
    intro i hi c hc j hj
    exact List.mem_singleton.1 hj ▸ idle_of_permits hs hop hc i hi
  obtain ⟨rfl, hbooks⟩ := hh
  refine ⟨⟨hY, fun i hi => ?_, fun i hi => ?_⟩, ?_⟩
  · rcases List.mem_append.1 hi with hi | hi
    · exact hroot i hi
    · have hi := mem_owned_of_mem_rest hi
      exact (hs.rooted i hi).grown hgrown (hidle i (List.mem_append_left _ hi))
  · rcases List.mem_append.1 hi with hi | hi
    · exact hlent i hi
    · exact (hs.lent i (mem_lasting hi).1).grown hgrown (hidle i (List.mem_append_right _ hi))
  · rw [ownedRefs, List.flatMap_append, ← Multiset.coe_add]
    exact hbooks

/-- What an operation needs of a client so that an accounting survives it: memory is lent in live
contexts, unless the accounting survives that it leaks, and what is used is there. -/
structure Fits (A : Accounting σ) (s : Client σ) (op : Operation) : Prop where
  lends : A.Leaks ∨ ∀ c ∈ op.lends?, s.isLive c
  serve : s.permits op → A.Serve s.host.contexts (s.restRefs op) op.uses

/-- An operation that is permitted settles. -/
theorem run_settles (hlend : A.Lends) (hs : s.Kept A) (hop : s.Fits A op) (hp : s.permits op) :
    Ends (op.run s.host)
      (A.Settled s.host.contexts (op.opened?.or op.closed?) (s.restRefs op))
      (A.Settled s.host.contexts (op.opened?.or op.closed?) (s.restRefs op) {}) := by
  obtain ⟨hconsumed, -, hopened, -⟩ := permits_iff.1 hp
  have hroot : ∀ i ∈ op.consumed, i.Rooted s.host.contexts := fun i hi =>
    hs.rooted i (hconsumed i hi)
  have howing : A.Owing s.host.contexts
      ((op.consumed.toList.flatMap Item.refs : List Ref) + (s.restRefs op : Multiset Ref))
      s.host :=
    ⟨rfl, ownedRefs_eq hconsumed ▸ hs.books⟩
  exact operation_settles hs.tended hlend hop.lends hopened hroot (hop.serve hp) s.host howing

/-- Every operation keeps the accounts. -/
theorem step_kept (hlend : A.Lends) (hs : s.Kept A) (hop : s.Fits A op) : (s.step op).Kept A := by
  unfold step
  split
  next hp =>
    have hsettles := run_settles hlend hs hop hp
    rcases hrun : op.run s.host with ⟨_ | y, host⟩
    · rw [hrun] at hsettles
      exact kept_of_settled (y := {}) hs hp hsettles
    · rw [hrun] at hsettles
      exact kept_of_settled hs hp hsettles
  next => exact hs

/-! ## What can be used -/

/-- If everything may be named, everything can be used. -/
theorem serve_of_exempt (hA : ∀ r, A.exempt r) {X : Contexts} {K : Multiset Ref}
    (us : List (ContextId × Item)) : A.Serve X K us := fun _ _ _ r _ => .inl (hA r)

/-- What belongs to live contexts is owned or waits, so it can be used. -/
theorem serve_of_borrowsLive (hs : s.Kept A) (hop : s.permits op) (hlive : s.borrowsLive op) :
    A.Serve s.host.contexts (s.restRefs op) op.uses := by
  intro u hu hc r hr
  obtain ⟨-, huses, -, -⟩ := permits_iff.1 hop
  refine .inr (Multiset.mem_add.2 ?_)
  rcases huses u hu with hrest | hview
  · exact .inl (List.mem_flatMap.2 ⟨u.2, hrest, hr⟩)
  · -- A view is lent by its context, which is live because the one that it is used in is.
    have hlent := hs.lent u.2 hview
    obtain ⟨p, hp, hrp⟩ := List.mem_flatMap.1 (hlent.covered hr)
    have hne : p.2 ≠ [] := List.ne_nil_of_mem hrp
    rw [borrowsLive, hop, Bool.not_true, Bool.false_or] at hlive
    have hparts := List.all_eq_true.1 hlive u hu
    rw [show s.isLive u.1 = true from hc, Bool.not_true, Bool.false_or] at hparts
    have hpart := List.all_eq_true.1 hparts p hp
    rw [List.isEmpty_eq_false_iff.2 hne, Bool.false_or] at hpart
    exact .inr (Contexts.mem_bag hpart ((hlent.waits p hp hne).2 hpart hrp))

/-! ## Runs -/

/-- An accounting by which everything may be named and memory may leak is kept by every run. -/
theorem run_kept_of_exempt (hlend : A.Lends) (hleak : A.Leaks) (hA : ∀ r, A.exempt r)
    (hs : s.Kept A) (ops : List Operation) : (s.run ops).Kept A := by
  induction ops generalizing s with
  | nil => exact hs
  | cons op ops ih => exact ih (step_kept hlend hs ⟨.inl hleak, fun _ => serve_of_exempt hA _⟩)

/-- An accounting by which memory may leak is kept by every run in which nothing of a freed context
is used in a live one. -/
theorem run_kept_of_borrowsLive (hlend : A.Lends) (hleak : A.Leaks) (hs : s.Kept A)
    {ops : List Operation} (hops : s.runBorrowsLive ops) : (s.run ops).Kept A := by
  induction ops generalizing s with
  | nil => exact hs
  | cons op ops ih =>
      obtain ⟨hop, hops⟩ := Bool.and_eq_true_iff.1 hops
      exact ih (step_kept hlend hs ⟨.inl hleak, fun hp => serve_of_borrowsLive hs hp hop⟩) hops

end Client

/-! ## References balance -/

variable {σ : Type} [Engine σ]

namespace Recorded

/-- The host holds just these references, as far as the history of its engine tells. -/
def Balanced (x : Recorded σ) (M : Multiset Ref) : Prop :=
  ∀ r, History.held r x.history = M.count r

/-- References that were given come to those that are held, and those that were taken go. -/
theorem Balanced.answer {x : Recorded σ} {K : Multiset Ref} {q : Request}
    (hx : x.Balanced (q.taken + K)) :
    (Engine.answer q x).state.Balanced (q.given (Engine.answer q x).reply + K) := by
  intro r
  have hr := hx r
  rw [Multiset.count_add, Multiset.coe_count] at hr
  rw [answer_history, History.held, hr, Multiset.count_add, Multiset.coe_count]
  simp only [exchange, Exchange.given, Exchange.taken, answer_reply]
  omega

omit [Engine σ] in
/-- What is taken from the references that are held is held. -/
theorem Balanced.taken_le {x : Recorded σ} {K : Multiset Ref} {refs : List Ref}
    (hx : x.Balanced (refs + K)) (r : Ref) : (refs.count r : Int) ≤ History.held r x.history := by
  rw [hx r, Multiset.count_add, Multiset.coe_count]
  omega

omit [Engine σ] in
/-- A reference that the host has is held. -/
theorem Balanced.held_pos {x : Recorded σ} {M : Multiset Ref} {r : Ref} (hx : x.Balanced M)
    (hr : r ∈ M) : 0 < History.held r x.history := by
  rw [hx r]
  exact Int.natCast_pos.2 (Multiset.count_pos.2 hr)

end Recorded

namespace Accounting

/-- The ledger of references.  It balances, and nothing is taken that was not held. -/
def ledger : Accounting (Recorded σ) where
  books M x _ := x.Balanced M ∧ x.history.Disciplined
  exempt _ := True
  ask _ _ _ hbooks := ⟨hbooks.1.answer, hbooks.1.taken_le, hbooks.2⟩

theorem ledger_lends : (ledger : Accounting (Recorded σ)).Lends := by
  intro K x p realm bytes _ hbooks
  have hx : x.Balanced ((lendRequest realm bytes p).taken + K) := by
    simpa [lendRequest, Request.taken] using hbooks.1
  exact ⟨hx.answer, hx.taken_le, hbooks.2⟩

theorem ledger_leaks : (ledger : Accounting (Recorded σ)).Leaks := fun _ _ _ _ hbooks => hbooks

end Accounting

namespace Client

/-- After any operations, however they ended, the host holds as many references to a thing as the
client owns and as wait for the ends of contexts, and it never gave back one that it did not hold. -/
theorem references_balance (engine : σ) (settings : Settings) (ops : List Operation) (r : Ref) :
    let s := (start (⟨engine, []⟩ : Recorded σ) settings).run ops
    History.held r s.host.engine.history = s.ownedRefs.count r + s.waitingRefs.count r ∧
      s.host.engine.history.Disciplined := by
  intro s
  have hstart : (start (⟨engine, []⟩ : Recorded σ) settings).Kept Accounting.ledger :=
    start_kept ⟨fun _ => rfl, trivial⟩
  have hkept : s.Kept Accounting.ledger :=
    run_kept_of_exempt Accounting.ledger_lends Accounting.ledger_leaks (fun _ => trivial) hstart ops
  obtain ⟨hbalanced, hdisciplined⟩ := hkept.books
  refine ⟨?_, hdisciplined⟩
  rw [hbalanced r, Multiset.count_add, Contexts.bag, Multiset.coe_count, Multiset.coe_count]
  exact Int.natCast_add _ _

end Client

end ScriptHost
