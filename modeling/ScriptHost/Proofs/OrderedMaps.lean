import Mathlib.Data.List.Nodup
import ScriptHost.Client.OrderedMap
import ScriptHost.Proofs.Texts
/-!
# Laws of ordered maps

A lookup sees what was last set and not erased since; keys stay distinct, and setting and erasing
can be done in a part of the map or under other names for the keys.
-/

namespace ScriptHost

namespace OrderedMap

variable {α β : Type} [DecidableEq α] {m : OrderedMap α β} {a a' : α} {b : β}

/-! ## Looking up -/

theorem lookup_cons (k : α) (v : β) (m : OrderedMap α β) (a : α) :
    List.lookup a ((k, v) :: m) = if a = k then some v else m.lookup a := by
  rw [List.lookup_cons]
  by_cases ha : a = k
  · simp [ha]
  · have hne : (a == k) = false := by simpa using ha
    rw [hne, if_neg ha]

theorem lookup_replace (m : OrderedMap α β) (a a' : α) (b : β) :
    (m.map fun e => if e.1 = a then (a, b) else e).lookup a' =
      if a' = a then (m.lookup a).map fun _ => b else m.lookup a' := by
  induction m with
  | nil => simp
  | cons e m ih =>
      obtain ⟨k, v⟩ := e
      rw [List.map_cons, lookup_cons, lookup_cons]
      by_cases hk : k = a
      · subst hk
        rw [if_pos rfl, if_pos rfl, lookup_cons, ih]
        by_cases ha : a' = k <;> simp [ha]
      · rw [if_neg hk, if_neg (Ne.symm hk), lookup_cons, ih]
        by_cases ha : a' = k
        · subst ha
          simp [hk]
        · simp [ha]

/-- A lookup sees what was set. -/
theorem lookup_set (m : OrderedMap α β) (a a' : α) (b : β) :
    (m.set a b).lookup a' = if a' = a then some b else m.lookup a' := by
  unfold set
  split
  next hold =>
    obtain ⟨v, hv⟩ := Option.isSome_iff_exists.1 hold
    rw [lookup_replace, hv]
    rfl
  next hnew =>
    rw [List.lookup_append, lookup_cons]
    by_cases ha : a' = a
    · subst ha
      rw [Option.not_isSome_iff_eq_none] at hnew
      simp [hnew]
    · simp [ha]

theorem lookup_filter {p : α → Bool} (ha : p a) (m : OrderedMap α β) :
    (m.filter fun e => p e.1).lookup a = m.lookup a := by
  induction m with
  | nil => rfl
  | cons e m ih =>
      obtain ⟨k, v⟩ := e
      rw [lookup_cons, List.filter_cons]
      by_cases hk : a = k
      · subst hk
        rw [if_pos ha, lookup_cons, if_pos rfl, if_pos rfl]
      · rw [if_neg hk]
        split
        next => rw [lookup_cons, if_neg hk, ih]
        next => exact ih

/-- A lookup does not see what was erased. -/
theorem lookup_erase (m : OrderedMap α β) (a a' : α) :
    (m.erase a).lookup a' = if a' = a then none else m.lookup a' := by
  unfold erase
  split
  next ha =>
    subst ha
    rw [List.lookup_eq_none_iff]
    intro e he
    have hne : e.1 ≠ a' := by simpa using (List.mem_filter.1 he).2
    simpa using Ne.symm hne
  next ha =>
    exact lookup_filter (p := fun k => k ≠ a) (by simpa using ha) m

theorem isSome_lookup : (m.lookup a).isSome ↔ a ∈ m.map Prod.fst := by
  rw [List.lookup_isSome_iff, List.mem_map]
  constructor
  · rintro ⟨e, he, hbeq⟩
    exact ⟨e, he, (eq_of_beq hbeq).symm⟩
  · rintro ⟨e, he, rfl⟩
    exact ⟨e, he, beq_self_eq_true _⟩

/-! ## Keys -/

theorem keys_set (m : OrderedMap α β) (a : α) (b : β) :
    (m.set a b).map Prod.fst =
      if (m.lookup a).isSome then m.map Prod.fst else m.map Prod.fst ++ [a] := by
  unfold set
  split
  next =>
    rw [List.map_map]
    refine List.map_congr_left fun e _ => ?_
    by_cases he : e.1 = a <;> simp [he]
  next => simp

theorem nodup_set (hm : (m.map Prod.fst).Nodup) (a : α) (b : β) :
    ((m.set a b).map Prod.fst).Nodup := by
  rw [keys_set]
  split
  next => exact hm
  next hnew =>
    rw [isSome_lookup] at hnew
    rw [List.nodup_append]
    refine ⟨hm, List.nodup_singleton a, ?_⟩
    rintro k hk _ hk' rfl
    rw [List.mem_singleton] at hk'
    exact hnew (hk' ▸ hk)

theorem nodup_erase (hm : (m.map Prod.fst).Nodup) (a : α) : ((m.erase a).map Prod.fst).Nodup :=
  hm.sublist (List.filter_sublist.map _)

/-- There is nothing to be erased where there is nothing. -/
theorem erase_of_none (hm : m.lookup a = none) : m.erase a = m := by
  refine List.filter_eq_self.2 fun e he => ?_
  rw [decide_eq_true_eq]
  rintro rfl
  have hsome := isSome_lookup.2 (List.mem_map_of_mem he)
  rw [hm] at hsome
  cases hsome

/-! ## Parts of a map -/

/-- Setting a key of a part sets it in the part. -/
theorem filter_set {p : α → Bool} (ha : p a) (m : OrderedMap α β) (b : β) :
    (m.set a b).filter (fun e => p e.1) = set (m.filter fun e => p e.1) a b := by
  unfold set
  rw [lookup_filter ha]
  split
  next =>
    rw [List.filter_map]
    congr 1
    refine List.filter_congr fun e _ => ?_
    by_cases he : e.1 = a <;> simp [he]
  next => simp [ha]

/-- Setting any other key leaves the part alone. -/
theorem filter_set_of_not {p : α → Bool} (ha : p a = false) (m : OrderedMap α β) (b : β) :
    (m.set a b).filter (fun e => p e.1) = m.filter fun e => p e.1 := by
  unfold set
  split
  next =>
    have hsame : ∀ e : α × β, p (if e.1 = a then (a, b) else e).1 = p e.1 := by
      intro e
      by_cases he : e.1 = a <;> simp [he]
    -- An entry that is replaced is outside the part before and after.
    rw [List.filter_map]
    simp only [Function.comp_def, hsame]
    refine (List.map_congr_left fun e he => ?_).trans (List.map_id _)
    have hne : e.1 ≠ a := by
      rintro rfl
      have hp := (List.mem_filter.1 he).2
      rw [ha] at hp
      cases hp
    exact if_neg hne
  next => simp [ha]

theorem filter_erase (p : α → Bool) (m : OrderedMap α β) (a : α) :
    (m.erase a).filter (fun e => p e.1) = erase (m.filter fun e => p e.1) a := by
  unfold erase
  rw [List.filter_filter, List.filter_filter]
  exact List.filter_congr fun e _ => Bool.and_comm _ _

/-! ## Other names for the keys -/

section Rename

variable {γ δ : Type} [DecidableEq γ] {f : α → γ} (hf : Function.Injective f) (g : β → δ)
include hf

theorem lookup_rename (m : OrderedMap α β) (a : α) :
    (m.map (Prod.map f g)).lookup (f a) = (m.lookup a).map g := by
  induction m with
  | nil => rfl
  | cons e m ih =>
      obtain ⟨k, v⟩ := e
      rw [List.map_cons, Prod.map_apply, lookup_cons, lookup_cons, ih]
      by_cases hk : a = k
      · rw [hk, if_pos rfl, if_pos rfl, Option.map_some]
      · rw [if_neg hk, if_neg (hf.ne hk)]

theorem rename_set (m : OrderedMap α β) (a : α) (b : β) :
    (m.set a b).map (Prod.map f g) = set (m.map (Prod.map f g)) (f a) (g b) := by
  unfold set
  rw [lookup_rename hf, Option.isSome_map]
  split
  next =>
    rw [List.map_map, List.map_map]
    refine List.map_congr_left fun e _ => ?_
    by_cases he : e.1 = a
    · simp [he]
    · have hne : f e.1 ≠ f a := fun h => he (hf h)
      simp [he, hne]
  next => simp

theorem rename_erase (m : OrderedMap α β) (a : α) :
    (m.erase a).map (Prod.map f g) = erase (m.map (Prod.map f g)) (f a) := by
  unfold erase
  rw [List.filter_map]
  congr 1
  refine List.filter_congr fun e _ => ?_
  by_cases he : e.1 = a
  · simp [he]
  · have hne : f e.1 ≠ f a := fun h => he (hf h)
    simp [he, hne]

omit [DecidableEq α] [DecidableEq γ] in
theorem nodup_rename (hm : (m.map Prod.fst).Nodup) :
    ((m.map (Prod.map f g)).map Prod.fst).Nodup := by
  have hkeys : (m.map (Prod.map f g)).map Prod.fst = (m.map Prod.fst).map f := by simp
  rw [hkeys]
  exact hm.map hf

end Rename

/-! ## Listings -/

theorem decimal_eq_some {t : Text} {n : Nat} :
    decimal? t = some n ↔ n < twoTo 32 - 1 ∧ t = Key.natText n := by
  unfold decimal?
  constructor
  · intro h
    split at h
    next hn =>
      cases h
      exact hn
    next => cases h
  · rintro ⟨hn, rfl⟩
    rw [Key.digitsValue_natText]
    exact if_pos ⟨hn, rfl⟩

/-- The texts that are listed as numbers are those that count as indices. -/
theorem decimal_eq_index (t : Text) : decimal? t = Key.indexOfText? t := by
  refine Option.ext fun n => ?_
  rw [decimal_eq_some, Key.indexOfText_eq_some]
  rfl

variable {β : Type} {m : OrderedMap Label β}

/-- Numbers are written as they came. -/
theorem map_natText_decimals (ts : List Text) :
    (ts.filterMap decimal?).map Key.natText = ts.filter fun t => (decimal? t).isSome := by
  induction ts with
  | nil => rfl
  | cons t ts ih =>
      cases ht : decimal? t with
      | none => simp [ht, ih]
      | some n =>
          have htext : Key.natText n = t := (decimal_eq_some.1 ht).2.symm
          simp [ht, ih, htext]

/-- Every text among the keys is listed, each as often as it is there. -/
theorem listing_perm (m : OrderedMap Label β) : m.listing.Perm m.texts := by
  unfold listing
  -- Numbers are only sorted, and every other text is kept.
  have hsorted : ((m.texts.filterMap decimal?).mergeSort.map Key.natText).Perm
      (m.texts.filter fun t => (decimal? t).isSome) := by
    rw [← map_natText_decimals]
    exact (List.mergeSort_perm _ _).map _
  refine (hsorted.append_right _).trans ?_
  have hsplit := List.filter_append_perm (fun t => (decimal? t).isSome) m.texts
  simpa [Option.not_isSome] using hsplit

theorem texts_eq (m : OrderedMap Label β) : m.texts = (m.map Prod.fst).filterMap Label.text? := by
  rw [List.filterMap_map]
  rfl

theorem text_eq_some {l : Label} {t : Text} : l.text? = some t ↔ l = .text t := by
  cases l <;> simp [Label.text?]

/-- What is listed are the texts among the keys. -/
theorem mem_listing {t : Text} : t ∈ m.listing ↔ (m.lookup (.text t)).isSome := by
  rw [(listing_perm m).mem_iff, isSome_lookup, texts_eq, List.mem_filterMap]
  constructor
  · rintro ⟨l, hl, ht⟩
    rwa [← text_eq_some.1 ht]
  · exact fun ht => ⟨.text t, ht, rfl⟩

theorem nodup_texts (hm : (m.map Prod.fst).Nodup) : m.texts.Nodup := by
  rw [texts_eq]
  refine hm.filterMap fun l l' t ht ht' => ?_
  rw [text_eq_some.1 ht, text_eq_some.1 ht']

/-- No text is listed twice. -/
theorem nodup_listing (hm : (m.map Prod.fst).Nodup) : m.listing.Nodup :=
  (listing_perm m).nodup_iff.2 (nodup_texts hm)

end OrderedMap

end ScriptHost
