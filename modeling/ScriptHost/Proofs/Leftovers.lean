import Mathlib.Data.Finset.Card
import Mathlib.Data.Finset.Range
import ScriptHost.Client.TypeQueries
import ScriptHost.Proofs.SpareKeys
import ScriptHost.Proofs.Tracing
/-!
# Nothing is left to be freed

Each round of freeing frees something that was there, so the rounds come to an end with nothing left
that could be freed.  What could be freed depends on which things are roots and not on their order, so
nothing is left over between requests either, after one on which something may have been let go of.
-/

namespace ScriptHost

namespace Machine

open NodeTable (get_update_ne marked_update_self)

variable {m m' : Machine} {n : Node} {id j : Nat} {roots : List Node}

/-! ## The same objects -/

section SameObjects

variable (hheap : m'.heap = m.heap) (hcells : m'.cells = m.cells) (hrealms : m'.realms = m.realms)
include hheap hcells hrealms

theorem refs_of_same : m'.refs = m.refs := by
  funext n
  cases n with
  | object id => rw [refs, refs, obj, obj, hheap]
  | cell id => rw [refs, refs, cell, cell, hcells]
  | realm id => rw [refs, refs, hrealms]

theorem markFrom_of_same (fuel : Nat) (marks : NodeTable Bool) (work : List Node) :
    m'.markFrom fuel marks work = m.markFrom fuel marks work := by
  have hrefs := refs_of_same hheap hcells hrealms
  induction fuel generalizing marks work with
  | zero => rfl
  | succ fuel ih =>
      cases work with
      | nil => rfl
      | cons n work =>
          rw [markFrom, markFrom, hrefs]
          exact ih _ _

theorem peel_of_same (fuel : Nat) (counts : NodeTable Nat) (work ready : List Node)
    (out : List Nat) : m'.peel fuel counts work ready out = m.peel fuel counts work ready out := by
  have hrefs := refs_of_same hheap hcells hrealms
  induction fuel generalizing counts work ready out with
  | zero => rfl
  | succ fuel ih =>
      cases work with
      | nil =>
          cases ready with
          | nil => rfl
          | cons n ready => exact ih _ _ _ _
      | cons n work =>
          unfold peel
          rw [hrefs]
          exact ih _ _ _ _

/-- What nothing refers to is told by the objects, the cells and the realms. -/
theorem loose_of_same (roots : List Node) : m'.loose roots = m.loose roots := by
  have hnodes : m'.nodes = m.nodes := by rw [nodes, nodes, hheap, hcells, hrealms]
  have hcount : m'.nodeCount = m.nodeCount := by
    rw [nodeCount, nodeCount, hheap, hcells, hrealms]
  have hfill : ∀ {α : Type} (a : α), NodeTable.fill m' a = NodeTable.fill m a := by
    intro α a
    rw [NodeTable.fill, NodeTable.fill, hheap, hcells, hrealms]
  have hreachable : m'.reachable roots = m.reachable roots := by
    unfold reachable
    rw [hfill, hcount]
    exact markFrom_of_same hheap hcells hrealms _ _ _
  have hgarbage : ∀ marks, m'.garbage marks = m.garbage marks := by
    intro marks
    rw [garbage, garbage, hnodes]
  have hcounts : ∀ marks ns, m'.countRefs marks ns = m.countRefs marks ns := by
    intro marks ns
    rw [countRefs, countRefs, hfill, refs_of_same hheap hcells hrealms]
  unfold loose
  simp only [hreachable, hgarbage, hcounts, hcount]
  exact peel_of_same hheap hcells hrealms _ _ _ _ _

end SameObjects

/-! ## The same roots -/

section Marking

variable {roots : List Node} {marks : NodeTable Bool} {work ns : List Node} {P : Node → Prop}

/-- Only what is given is marked, and it is put on the list of work then. -/
theorem markNew_within (hmarks : ∀ n, marks.get true n = true → P n) (hns : ∀ n ∈ ns, P n)
    (hwork : ∀ n ∈ work, P n ∧ (NodeTable.fill m false).get true n = false)
    (hfill : ∀ n, (NodeTable.fill m false).get true n = true → marks.get true n = true) :
    (∀ n, (markNew marks work ns).1.get true n = true → P n) ∧
      ∀ n ∈ (markNew marks work ns).2, P n ∧ (NodeTable.fill m false).get true n = false := by
  induction ns generalizing marks work with
  | nil => exact ⟨hmarks, hwork⟩
  | cons n ns ih =>
      have hn := hns n List.mem_cons_self
      have hrest : ∀ k ∈ ns, P k := fun k hk => hns k (List.mem_cons_of_mem n hk)
      unfold markNew
      split
      next => exact ih hmarks hrest hwork hfill
      next hnew =>
        refine ih ?_ hrest ?_ fun k hk => NodeTable.marked_update (hfill k hk)
        · intro k hk
          by_cases hkn : n = k
          · rwa [← hkn]
          · rw [get_update_ne hkn] at hk
            exact hmarks k hk
        · intro k hk
          rcases List.mem_cons.1 hk with rfl | hk
          · -- What has no mark has a place in the table.
            exact ⟨hn, Bool.eq_false_iff.2 fun hplace => hnew (hfill k hplace)⟩
          · exact hwork k hk

/-- Marks stay within whatever they begin in that is closed under references. -/
theorem markFrom_within (hclosed : ∀ n, P n → (NodeTable.fill m false).get true n = false →
      ∀ k ∈ m.refs n, P k) {fuel : Nat} (hmarks : ∀ n, marks.get true n = true → P n)
    (hwork : ∀ n ∈ work, P n ∧ (NodeTable.fill m false).get true n = false)
    (hfill : ∀ n, (NodeTable.fill m false).get true n = true → marks.get true n = true) :
    ∀ n, (m.markFrom fuel marks work).get true n = true → P n := by
  induction fuel generalizing marks work with
  | zero => exact hmarks
  | succ fuel ih =>
      cases work with
      | nil => exact hmarks
      | cons n work =>
          have hn := hwork n List.mem_cons_self
          have hstep := markNew_within hmarks (hclosed n hn.1 hn.2)
            (fun k hk => hwork k (List.mem_cons_of_mem n hk)) hfill
          exact ih hstep.1 hstep.2 fun k hk => markNew_mono (hfill k hk)

/-- What has no place in the tables counts as marked. -/
theorem reachable_of_fill (h : (NodeTable.fill m false).get true n = true) :
    (m.reachable roots).get true n = true :=
  markFrom_mono (markNew_mono h)

/-- Everything that is marked from some roots is marked from any others that they are among. -/
theorem reachable_mono {roots' : List Node} (hsub : ∀ n ∈ roots, n ∈ roots')
    (h : (m.reachable roots).get true n = true) : (m.reachable roots').get true n = true := by
  have hplaced : ∀ n, (NodeTable.fill m false).get true n = false → m.Has n := by
    intro n hn
    cases n with
    | realm id =>
        refine Nat.lt_of_not_le fun hid => ?_
        have hnone : (Array.replicate m.realms.size false)[id]? = none :=
          Array.getElem?_eq_none (by simpa using hid)
        simp [NodeTable.fill, NodeTable.get, hnone] at hn
    | object _ | cell _ => trivial
  have hroots : ∀ n ∈ roots, (m.reachable roots').get true n = true :=
    fun n hn => reachable_root (hsub n hn)
  have hnone : ∀ n ∈ ([] : List Node),
      (m.reachable roots').get true n = true ∧ (NodeTable.fill m false).get true n = false :=
    fun n hn => absurd hn List.not_mem_nil
  have hbegun := markNew_within (fun n hn => reachable_of_fill hn) hroots hnone fun _ hn => hn
  refine markFrom_within ?_ hbegun.1 hbegun.2 (fun k hk => markNew_mono hk) n h
  intro n hn hplace k hk
  exact reachable_traced roots' n (hplaced n hplace) hn List.not_mem_nil k hk

/-- What nothing refers to depends on which things are roots, not on their order. -/
theorem loose_congr {roots' : List Node} (h : ∀ n, n ∈ roots ↔ n ∈ roots') :
    m.loose roots = m.loose roots' := by
  have hmarks : (m.reachable roots).get true = (m.reachable roots').get true := by
    funext n
    refine Bool.eq_iff_iff.2 ⟨?_, ?_⟩
    · exact reachable_mono fun k hk => (h k).1 hk
    · exact reachable_mono fun k hk => (h k).2 hk
  unfold loose garbage countRefs
  simp only [hmarks]

end Marking

/-! ## Rounds of freeing -/

/-- The objects that there are. -/
def present (m : Machine) : Finset Nat := (Finset.range m.heap.size).filter fun id => m.isThere id

theorem isThere_iff : m.isThere id = true ↔ m.body id ≠ .freed := by
  unfold isThere isGone
  dsimp only
  split
  next hfreed => simp [hfreed]
  next hother => simpa using hother

/-- What could be freed is an object that the machine has. -/
theorem lt_of_mem_loose (h : id ∈ m.loose roots) : id < m.heap.size := by
  refine Nat.lt_of_not_le fun hid => ?_
  have hnone : (Array.replicate m.heap.size false)[id]? = none :=
    Array.getElem?_eq_none (by simpa using hid)
  refine not_mem_loose_of_marked (reachable_of_fill ?_) h
  simp [NodeTable.fill, NodeTable.get, hnone]

theorem free_body (h : id < m.heap.size) : (m.free id).body id = .freed := by
  have hblank : (m.blankOut id).body id = .freed := by
    simp [body, obj, blankOut, h]
  unfold free
  split
  next b _ =>
    rw [body, obj, giveUpMemory_heap]
    exact hblank
  next => exact hblank

/-- Freeing objects that are there leaves fewer. -/
theorem freeAll_present {ids : List Nat} (hids : ids ≠ [])
    (hthere : ∀ id ∈ ids, id < m.heap.size ∧ m.isThere id = true) :
    (m.freeAll ids).present.card < m.present.card := by
  -- Whatever is freed stays so.
  have hsheds : ∀ {m : Machine} {ids : List Nat}, m.Sheds (fun _ => False) (m.freeAll ids) :=
    Sheds.freeAll fun _ _ => id
  have hfirst : ∀ {id : Nat} {ids : List Nat}, id < m.heap.size →
      (m.freeAll (id :: ids)).body id = .freed := by
    intro id ids hid
    have hrest : (m.free id).Sheds (fun _ => False) ((m.free id).freeAll ids) := hsheds
    exact (hrest.fades id).body_freed (free_body hid)
  obtain ⟨id, ids, rfl⟩ := List.exists_cons_of_ne_nil hids
  obtain ⟨hid, hyes⟩ := hthere id List.mem_cons_self
  refine Finset.card_lt_card (Finset.ssubset_iff_subset_ne.2 ⟨fun j hj => ?_, fun heq => ?_⟩)
  · obtain ⟨hrange, hstill⟩ := Finset.mem_filter.1 hj
    rw [(hsheds (m := m)).size] at hrange
    refine Finset.mem_filter.2 ⟨hrange, isThere_iff.2 fun hfreed => ?_⟩
    exact isThere_iff.1 hstill (((hsheds (m := m)).fades j).body_freed hfreed)
  · have hmem : id ∈ m.present := Finset.mem_filter.2 ⟨Finset.mem_range.2 hid, hyes⟩
    rw [← heq] at hmem
    exact isThere_iff.1 (Finset.mem_filter.1 hmem).2 (hfirst hid)

/-- With enough rounds nothing is left that could be freed. -/
theorem settle_done {fuel : Nat} (hfuel : m.present.card < fuel) :
    ((m.settle roots fuel).loose (roots ++ (m.settle roots fuel).ownRoots)).filter
      (m.settle roots fuel).isThere = [] := by
  induction fuel generalizing m with
  | zero => omega
  | succ fuel ih =>
      unfold settle
      split
      next hnone => exact hnone
      next hsome =>
        refine ih (Nat.lt_of_lt_of_le (freeAll_present hsome fun id hid => ?_)
          (Nat.le_of_lt_succ hfuel))
        obtain ⟨hloose, hthere⟩ := List.mem_filter.1 hid
        exact ⟨lt_of_mem_loose hloose, hthere⟩

theorem present_card_le : m.present.card ≤ m.heap.size := by
  have hle := Finset.card_filter_le (Finset.range m.heap.size) fun id => m.isThere id
  rwa [Finset.card_range] at hle

end Machine

namespace ScriptEngine

variable {e : ScriptEngine} {q : Request}

/-- Work that was put off is a root of the machine before, and of the engine once it waits behind the
other work. -/
theorem mem_rested_roots (e : ScriptEngine) (n : Node) :
    n ∈ e.rested.roots ++ e.rested.machine.ownRoots ↔ n ∈ e.roots ++ e.machine.ownRoots := by
  obtain ⟨machine, pending, ledger, queue⟩ := e
  unfold rested roots Machine.ownRoots
  simp only [Array.toList_append, List.flatMap_append, List.mem_append, List.flatMap_nil,
    List.not_mem_nil, or_false]
  tauto

/-- An engine in which nothing is left to be freed is settled once it is at rest. -/
theorem rested_settled (hdone : e.machine.watched = true →
    (e.machine.loose (e.roots ++ e.machine.ownRoots)).filter e.machine.isThere = []) :
    e.rested.Settled := by
  refine ⟨rfl, rfl, fun hwatched => ?_⟩
  rw [Machine.loose_congr (mem_rested_roots e)]
  have hheap : e.rested.machine.heap = e.machine.heap := rfl
  have hcells : e.rested.machine.cells = e.machine.cells := rfl
  have hrealms : e.rested.machine.realms = e.machine.realms := rfl
  rw [Machine.loose_of_same hheap hcells hrealms]
  exact hdone hwatched

/-- After a request on which something may have been let go of, nothing waits to be freed. -/
theorem answer_settled (hplain : q ≠ .collect ∧ q ≠ .shutDown)
    (hfree : ∀ (e : ScriptEngine) a, e.mayFree q a = true) :
    (Engine.answer q e).state.Settled := by
  -- The engine when references have been counted.
  let counted := (core q e).2.withLedger ((core q e).2.ledger.after q (core q e).1)
  have hstate : (Engine.answer q e).state = (tidy q (core q e).1 counted).rested := rfl
  rw [hstate, tidy_eq hplain, hfree, Bool.and_true]
  generalize counted = counted
  split
  next => exact rested_settled fun _ => Machine.settle_done (Nat.lt_succ_of_le Machine.present_card_le)
  next hno => exact rested_settled fun hwatched => absurd hwatched hno

end ScriptEngine

end ScriptHost
