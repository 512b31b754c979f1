import Mathlib.Data.List.Sort
import Mathlib.Data.String.Basic
import ScriptHost.Client.Interchange
/-!
# Documents with members in another order

Sorting a document rearranges it, and whatever rearranges it has the same sorted form.  Besides that
it is as portable and as deeply nested.
-/

namespace ScriptHost

namespace Document

variable {d e : Document} {ms : List (String × Document)} {k : String} {n : Nat}

/-! ## Nesting -/

theorem nestingItems_le {ds : List Document} : nestingItems ds ≤ n ↔ ∀ d ∈ ds, nesting d ≤ n := by
  induction ds with
  | nil => simp [nestingItems]
  | cons d ds ih => simp [nestingItems, ih]

theorem nestingMembers_le : nestingMembers ms ≤ n ↔ ∀ e ∈ ms, nesting e.2 ≤ n := by
  induction ms with
  | nil => simp [nestingMembers]
  | cons e ms ih =>
      obtain ⟨k, d⟩ := e
      simp [nestingMembers, ih]

theorem nesting_array_lt {ds : List Document} :
    nesting (array ds) < n + 1 ↔ nestingItems ds < n := by
  rw [nesting, Nat.add_lt_add_iff_right]

theorem nesting_object_lt : nesting (object ms) < n + 1 ↔ nestingMembers ms < n := by
  rw [nesting, Nat.add_lt_add_iff_right]

/-- The items of an array are nested less deeply. -/
theorem nesting_item {ds : List Document} (h : nesting (array ds) < n + 1) (hd : d ∈ ds) :
    nesting d < n :=
  (nestingItems_le.1 (Nat.le_refl _) d hd).trans_lt (nesting_array_lt.1 h)

/-- So are the members of an object. -/
theorem nesting_member {m : String × Document} (h : nesting (object ms) < n + 1) (hm : m ∈ ms) :
    nesting m.2 < n :=
  (nestingMembers_le.1 (Nat.le_refl _) m hm).trans_lt (nesting_object_lt.1 h)

/-! ## Members in order -/

/-- Members in ascending order of keys, each key once. -/
def Ascending (ms : List (String × Document)) : Prop := ms.Pairwise fun a b => a.1 < b.1

theorem insertMember_perm (d : Document) (hk : k ∉ ms.map Prod.fst) :
    (insertMember k d ms).Perm ((k, d) :: ms) := by
  induction ms with
  | nil => exact .refl _
  | cons m ms ih =>
      obtain ⟨k', d'⟩ := m
      rw [List.map_cons, List.mem_cons, not_or] at hk
      rw [insertMember]
      split
      · exact .refl _
      · rw [if_neg (by simpa using hk.1)]
        exact ((ih hk.2).cons _).trans (.swap _ _ _)

theorem insertMember_ascending (d : Document) (h : Ascending ms) (hk : k ∉ ms.map Prod.fst) :
    Ascending (insertMember k d ms) := by
  induction ms with
  | nil => exact List.pairwise_singleton _ _
  | cons m ms ih =>
      obtain ⟨k', d'⟩ := m
      obtain ⟨hhead, htail⟩ := List.pairwise_cons.1 h
      rw [List.map_cons, List.mem_cons, not_or] at hk
      rw [insertMember]
      split
      next hlt =>
        refine List.pairwise_cons.2 ⟨fun b hb => ?_, h⟩
        rcases List.mem_cons.1 hb with rfl | hb
        · exact hlt
        · exact lt_trans hlt (hhead b hb)
      next hle =>
        rw [if_neg (by simpa using hk.1)]
        refine List.pairwise_cons.2 ⟨fun b hb => ?_, ih htail hk.2⟩
        -- What comes after the old head is the new member or an old one.
        rcases List.mem_cons.1 ((insertMember_perm d hk.2).mem_iff.1 hb) with rfl | hb
        · exact lt_of_le_of_ne (not_lt.1 hle) (Ne.symm hk.1)
        · exact hhead b hb

theorem sortedItems_eq (ds : List Document) : sortedItems ds = ds.map sorted := by
  induction ds with
  | nil => rfl
  | cons d ds ih => rw [sortedItems, ih, List.map_cons]

/-- Members with their sorted values. -/
def settled (ms : List (String × Document)) : List (String × Document) :=
  ms.map fun e => (e.1, e.2.sorted)

theorem keys_settled (ms : List (String × Document)) :
    (settled ms).map Prod.fst = ms.map Prod.fst := by
  rw [settled, List.map_map]
  rfl

/-- Sorted members are the members in ascending order. -/
theorem sortedMembers_spec (hkeys : (ms.map Prod.fst).Nodup) :
    (sortedMembers ms).Perm (settled ms) ∧ Ascending (sortedMembers ms) := by
  induction ms with
  | nil => exact ⟨.refl _, List.Pairwise.nil⟩
  | cons m ms ih =>
      obtain ⟨k, d⟩ := m
      obtain ⟨hk, hkeys⟩ := List.nodup_cons.1 hkeys
      obtain ⟨hperm, hascending⟩ := ih hkeys
      have hnew : k ∉ (sortedMembers ms).map Prod.fst := by
        rw [(hperm.map Prod.fst).mem_iff, keys_settled]
        exact hk
      have hnone : ¬(sortedMembers ms).any (·.1 == k) = true := by
        rw [List.any_eq_true]
        rintro ⟨m, hm, hbeq⟩
        exact hnew (List.mem_map.2 ⟨m, hm, eq_of_beq hbeq⟩)
      rw [sortedMembers, if_neg hnone]
      exact ⟨(insertMember_perm _ hnew).trans (hperm.cons _), insertMember_ascending _ hascending hnew⟩

/-- Members in another order are sorted alike. -/
theorem sortedMembers_eq {ms' : List (String × Document)} (hkeys : (ms.map Prod.fst).Nodup)
    (h : (settled ms').Perm (settled ms)) : sortedMembers ms' = sortedMembers ms := by
  have hkeys' : (ms'.map Prod.fst).Nodup := by
    rw [← keys_settled, (h.map Prod.fst).nodup_iff, keys_settled]
    exact hkeys
  obtain ⟨hperm, hascending⟩ := sortedMembers_spec hkeys
  obtain ⟨hperm', hascending'⟩ := sortedMembers_spec hkeys'
  have hasymm : ∀ a b : String × Document, a ∈ sortedMembers ms' → b ∈ sortedMembers ms →
      a.1 < b.1 → b.1 < a.1 → a = b := fun a b _ _ hab hba => absurd hab (lt_asymm hba)
  exact List.Perm.eq_of_pairwise hasymm hascending' hascending (hperm'.trans (h.trans hperm.symm))

/-! ## Rearranged documents -/

/-- Items are rearranged each for itself. -/
theorem rearranges_items {f : Document → Document} {ds : List Document}
    (h : ∀ d ∈ ds, d.Rearranges (f d)) : Rearranges (array ds) (array (ds.map f)) := by
  have hpairs : Rearranges (array ((ds.map fun d => (d, f d)).map Prod.fst))
      (array ((ds.map fun d => (d, f d)).map Prod.snd)) := .array fun p hp => by
    obtain ⟨d, hd, rfl⟩ := List.mem_map.1 hp
    exact h d hd
  have hfirst : (ds.map fun d => (d, f d)).map Prod.fst = ds := List.map_map.trans (List.map_id ds)
  rwa [hfirst, List.map_map] at hpairs

/-- Members are rearranged each for itself, and put into any order. -/
theorem rearranges_members {f : Document → Document} {ms ms' : List (String × Document)}
    (h : ∀ m ∈ ms, m.2.Rearranges (f m.2)) (horder : ms'.Perm (ms.map fun m => (m.1, f m.2))) :
    Rearranges (object ms) (object ms') := by
  have hpairs : Rearranges (object ((ms.map fun m => (m.1, m.2, f m.2)).map fun p => (p.1, p.2.1)))
      (object ms') := by
    refine .object (fun p hp => ?_) ?_
    · obtain ⟨m, hm, rfl⟩ := List.mem_map.1 hp
      exact h m hm
    · rwa [List.map_map]
  have hfirst : (ms.map fun m => (m.1, m.2, f m.2)).map (fun p => (p.1, p.2.1)) = ms :=
    List.map_map.trans (List.map_id ms)
  rwa [hfirst] at hpairs

/-- Sorting rearranges. -/
theorem Portable.rearranges_sorted (h : d.Portable) : d.Rearranges d.sorted := by
  induction h with
  | null => exact .null
  | bool b => exact .bool b
  | integer _ => exact .integer _
  | string s => exact .string s
  | array _ ih =>
      rw [sorted, sortedItems_eq]
      exact rearranges_items ih
  | object hkeys _ ih => exact rearranges_members ih (sortedMembers_spec hkeys).1

namespace Rearranges

variable (h : d.Rearranges e)
include h

/-- A rearranged document is as portable. -/
theorem portable (hd : Portable d) : Portable e := by
  induction h with
  | null | bool | integer | string => exact hd
  | @array pairs _ ih =>
      cases hd with
      | array hitems =>
          refine .array fun d hd => ?_
          obtain ⟨p, hp, rfl⟩ := List.mem_map.1 hd
          exact ih p hp (hitems _ (List.mem_map_of_mem hp))
  | @object pairs members _ horder ih =>
      cases hd with
      | object hkeys hmembers =>
          refine .object ?_ fun m hm => ?_
          · rw [(horder.map Prod.fst).nodup_iff]
            simpa [Function.comp_def] using hkeys
          · obtain ⟨p, hp, rfl⟩ := List.mem_map.1 (horder.mem_iff.1 hm)
            exact ih p hp (hmembers (p.1, p.2.1) (List.mem_map_of_mem hp))

/-- It is no deeper. -/
theorem nesting_le {n : Nat} (hn : d.nesting ≤ n) : e.nesting ≤ n := by
  induction h generalizing n with
  | null | bool | integer | string => exact hn
  | @array pairs _ ih =>
      cases n with
      | zero => cases hn
      | succ n =>
          refine Nat.succ_le_succ (nestingItems_le.2 fun d hd => ?_)
          obtain ⟨p, hp, rfl⟩ := List.mem_map.1 hd
          exact ih p hp (nestingItems_le.1 (Nat.le_of_succ_le_succ hn) _ (List.mem_map_of_mem hp))
  | @object pairs members _ horder ih =>
      cases n with
      | zero => cases hn
      | succ n =>
          refine Nat.succ_le_succ (nestingMembers_le.2 fun m hm => ?_)
          obtain ⟨p, hp, rfl⟩ := List.mem_map.1 (horder.mem_iff.1 hm)
          exact ih p hp (nestingMembers_le.1 (Nat.le_of_succ_le_succ hn) (p.1, p.2.1)
            (List.mem_map_of_mem hp))

/-- It is sorted alike. -/
theorem sorted_eq (hd : Portable d) : e.sorted = d.sorted := by
  induction h with
  | null | bool | integer | string => rfl
  | @array pairs _ ih =>
      cases hd with
      | array hitems =>
          rw [sorted, sorted, sortedItems_eq, sortedItems_eq, List.map_map, List.map_map]
          congr 1
          exact List.map_congr_left fun p hp => ih p hp (hitems _ (List.mem_map_of_mem hp))
  | @object pairs members _ horder ih =>
      cases hd with
      | object hkeys hmembers =>
          rw [sorted, sorted]
          congr 1
          refine sortedMembers_eq hkeys ((horder.map _).trans ?_)
          have hvalues : (pairs.map fun p => (p.1, p.2.2)).map (fun e => (e.1, e.2.sorted)) =
              settled (pairs.map fun p => (p.1, p.2.1)) := by
            rw [settled, List.map_map, List.map_map]
            refine List.map_congr_left fun p hp => ?_
            exact congrArg (Prod.mk p.1)
              (ih p hp (hmembers (p.1, p.2.1) (List.mem_map_of_mem hp)))
          rw [hvalues]

end Rearranges

end Document

end ScriptHost
