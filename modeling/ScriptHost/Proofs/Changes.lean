import ScriptHost.Client.Changes
import ScriptHost.Proofs.Builtins
import ScriptHost.Proofs.PropertyTables
/-!
# What stays as it was

Making an object, putting a property on one, taking one off it and freeing others each leave all other
properties as they were.  One such step after the other does so too.
-/

namespace ScriptHost

/-! ## Tables of properties -/

namespace PropertyTable

variable {k k' : Key} {p : Property}

theorem lookup_set_findIdx {l : List (Key × Property)} {i : Nat}
    (hi : l.findIdx? (·.1 == k) = some i) :
    (l.set i (k, p)).lookup k' = if k' = k then some p else l.lookup k' := by
  induction l generalizing i with
  | nil => cases hi
  | cons e l ih =>
      rw [List.findIdx?_cons] at hi
      by_cases he : e.1 = k
      · rw [if_pos (by simpa using he)] at hi
        obtain rfl : 0 = i := Option.some.inj hi
        rw [List.set_cons_zero, OrderedMap.lookup_cons, OrderedMap.lookup_cons, he]
        split <;> rfl
      · rw [if_neg (by simpa using he)] at hi
        obtain ⟨j, hj, rfl⟩ := Option.map_eq_some_iff.1 hi
        rw [List.set_cons_succ, OrderedMap.lookup_cons, OrderedMap.lookup_cons, ih hj]
        by_cases hk : k' = e.1
        · rw [if_pos hk, if_pos hk, if_neg (hk ▸ he)]
        · rw [if_neg hk, if_neg hk]

/-- What was put is found, and everything else is found as before. -/
theorem get_put (t : PropertyTable) :
    (t.put k p).get? k' = if k' = k then some p else t.get? k' := by
  -- Indices and other keys are kept apart, so a put of the one kind does not touch the other.
  cases hk : k.isIndex with
  | true =>
      obtain ⟨n, rfl⟩ := Key.isIndex_iff.1 hk
      cases k' with
      | index n' => exact put_index t n n' p
      | name _ | symbol _ | null =>
          rw [if_neg nofun]
          rfl
  | false =>
      rw [put_of_name hk]
      cases hk' : k'.isIndex with
      | true =>
          obtain ⟨n, rfl⟩ := Key.isIndex_iff.1 hk'
          have hne : Key.index n ≠ k := by
            rintro rfl
            cases hk
          rw [if_neg hne]
          split <;> rfl
      | false =>
          rw [get_member _ hk', get_member _ hk']
          have hfind : t.members.findIdx? (·.1 == k) = t.members.toList.findIdx? (·.1 == k) := by
            rw [← List.findIdx?_toArray]
          rw [hfind]
          cases hi : t.members.toList.findIdx? (·.1 == k) with
          | some i =>
              change ((t.members.setIfInBounds i (k, p)).toList).lookup k' = _
              rw [Array.toList_setIfInBounds, lookup_set_findIdx hi]
          | none =>
              have hnew : t.members.toList.lookup k = none := by
                rw [List.lookup_eq_none_iff]
                intro e he
                simpa [BEq.comm] using List.findIdx?_eq_none_iff.1 hi e he
              change ((t.members.push (k, p)).toList).lookup k' = _
              rw [Array.toList_push, List.lookup_append, OrderedMap.lookup_cons]
              by_cases hkk : k' = k
              · rw [if_pos hkk, if_pos hkk, hkk, hnew]
                rfl
              · rw [if_neg hkk, if_neg hkk]
                exact Option.or_none

/-- What was taken off is not found, and everything else is found as before. -/
theorem get_erase (t : PropertyTable) :
    (t.erase k).get? k' = if k' = k then none else t.get? k' := by
  -- Indices and other keys are kept apart.
  cases hk : k.isIndex with
  | true =>
      obtain ⟨n, rfl⟩ := Key.isIndex_iff.1 hk
      cases k' with
      | index n' => exact erase_index t n n'
      | name _ | symbol _ | null =>
          rw [if_neg nofun]
          rfl
  | false =>
      obtain ⟨hindices, hmembers⟩ := erase_member (t := t) hk
      cases hk' : k'.isIndex with
      | true =>
          obtain ⟨n, rfl⟩ := Key.isIndex_iff.1 hk'
          have hne : Key.index n ≠ k := by
            rintro rfl
            cases hk
          rw [if_neg hne, get?, hindices]
          rfl
      | false =>
          rw [get_member _ hk', get_member _ hk', hmembers, OrderedMap.lookup_erase]

end PropertyTable

/-! ## Single properties -/

theorem Property.Settles.trans {p p' p'' : Property} (h : p.Settles p') (h' : p'.Settles p'') :
    p.Settles p'' := by
  cases h' with
  | same => exact h
  | made hlazy' =>
      cases h with
      | same => exact .made hlazy'
      | made _ => cases hlazy'

/-- A value stays. -/
theorem Property.Settles.value {p p' : Property} {v : Value} (h : p.Settles p')
    (hv : p.value? = some v) : p'.value? = some v := by
  cases h with
  | same => exact hv
  | made hlazy =>
      rw [Property.value?, hlazy] at hv
      cases hv

theorem Property.Settles.rel_value {p p' : Option Property} {v : Value}
    (h : Option.Rel Property.Settles p p') (hv : p.bind Property.value? = some v) :
    p'.bind Property.value? = some v := by
  cases h with
  | none => cases hv
  | some h => exact h.value hv

theorem Property.Settles.rel_refl (p : Option Property) : Option.Rel Property.Settles p p := by
  cases p with
  | none => exact .none
  | some p => exact .some .same

theorem Property.Settles.rel_trans {p p' p'' : Option Property}
    (h : Option.Rel Property.Settles p p') (h' : Option.Rel Property.Settles p' p'') :
    Option.Rel Property.Settles p p'' := by
  cases h with
  | none => exact h'
  | some h =>
      cases h' with
      | some h' => exact .some (h.trans h')

/-- Whether a body is one of a new object that shows no memory. -/
def Body.isNew : Body → Bool
  | .typed _ | .buffer _ | .freed => false
  | _ => true

namespace Machine

variable {m m' m'' : Machine} {id j : Nat} {k : Key} {p : Property} {but : Nat → Key → Prop}

/-- An own property can be told from what the object is, what it keeps under the key, the variables and
the memory that it shows. -/
theorem own_congr (hbody : m'.body id = m.body id)
    (hget : (m'.obj id).props.get? k = (m.obj id).props.get? k) (hcells : m'.cells = m.cells)
    (hregion : ∀ t g, m.body id = .typed t → t.region = some g → m'.region g = m.region g) :
    m'.own? id k = m.own? id k := by
  have hcell : ∀ c, m'.cell c = m.cell c := fun c => by rw [cell, hcells, cell]
  unfold body at hbody hregion
  unfold own?
  dsimp only
  rw [hbody]
  -- Only some bodies look further than the table of properties, and for indices or names only.
  cases hb : (m.obj id).body with
  | typed t =>
      have helement : ∀ n, m'.element? t n = m.element? t n := by
        intro n
        unfold element?
        cases hg : t.region with
        | none => rfl
        | some g => simp only [hregion t g hb hg]
      cases k with
      | index n => exact congrArg (Option.map Property.plain) (helement n)
      | _ => simp only [hget]
  | arguments cells =>
      cases k with
      | index n => simp only [hget, hcell]
      | _ => exact hget
  | module exports =>
      cases k with
      | name t => simp only [hget, hcell]
      | _ => exact hget
  | string t =>
      cases k with
      | index n => simp only [hget]
      | _ => exact hget
  | _ => exact hget

/-- What may become of a machine when properties other than some are left alone. -/
structure Evolves (but : Nat → Key → Prop) (m m' : Machine) : Prop where
  size : m.heap.size ≤ m'.heap.size
  freed : ∀ id, m.body id = .freed → m'.body id = .freed
  typed : ∀ id t, m'.body id = .typed t → m.body id = .typed t
  buffer : ∀ id b, m'.body id = .buffer b → m.body id = .buffer b
  same : m.SameBut but m'

namespace Evolves

theorem refl (m : Machine) : m.Evolves but m :=
  ⟨Nat.le_refl _, fun _ => id, fun _ _ => id, fun _ _ => id,
    fun _ _ _ _ _ => Property.Settles.rel_refl _⟩

theorem trans (h : m.Evolves but m') (h' : m'.Evolves but m'') : m.Evolves but m'' where
  size := h.size.trans h'.size
  freed id hid := h'.freed id (h.freed id hid)
  typed id t ht := h.typed id t (h'.typed id t ht)
  buffer id b hb := h.buffer id b (h'.buffer id b hb)
  same id hid hgone k hk := by
    -- What is gone sooner is gone in the end, and shows memory that it showed before.
    refine Property.Settles.rel_trans (h.same id hid (fun hsooner => hgone ?_) k hk)
      (h'.same id (hid.trans_le h.size) (fun hlater => hgone ?_) k hk)
    · rcases hsooner with hfreed | ⟨t, g, i, b, ht, hg, hb, hr, hfreed⟩
      · exact .inl (h'.freed id hfreed)
      · exact .inr ⟨t, g, i, b, ht, hg, hb, hr, h'.freed i hfreed⟩
    · rcases hlater with hfreed | ⟨t, g, i, b, ht, hg, hb, hr, hfreed⟩
      · exact .inl hfreed
      · exact .inr ⟨t, g, i, b, h.typed id t ht, hg, h.buffer i b hb, hr, hfreed⟩

theorem mono {but' : Nat → Key → Prop} (h : m.Evolves but m') (hsub : ∀ id k, but id k → but' id k) :
    m.Evolves but' m' :=
  { h with same := fun id hid hgone k hk => h.same id hid hgone k fun hbut => hk (hsub id k hbut) }

/-- Freeing changes no property. -/
theorem of_sheds {P : Nat → Prop} (h : m.Sheds P m') : m.Evolves but m' where
  size := by rw [h.size]
  freed id hid := (h.fades id).body_freed hid
  typed id t ht := by
    have hfades := h.fades id
    unfold body at ht ⊢
    generalize m'.obj id = o at hfades ht
    cases hfades with
    | same => exact ht
    | freed => cases ht
    | noticed _ hnew =>
        dsimp only at ht
        rw [ht] at hnew
        cases hnew
  buffer id b hb := h.body_buffer hb
  same id _ hgone k _ := by
    have hfades := h.fades id
    obtain ⟨o, ho⟩ : ∃ o, o = m'.obj id := ⟨_, rfl⟩
    rw [← ho] at hfades
    cases hfades with
    | same =>
        rw [own_congr (by rw [body, ← ho, body]) (by rw [← ho]) h.cells fun t g ht hg => ?_]
        · exact Property.Settles.rel_refl _
        · refine (h.memory g).resolve_right ?_
          rintro ⟨i, b, hb, hr, hfreed⟩
          exact hgone (.inr ⟨t, g, i, b, ht, hg, hb, hr, hfreed⟩)
    | freed => exact absurd (.inl (by rw [body, ← ho])) hgone
    -- A weak collection loses entries, which are no properties.
    | noticed hold hnew =>
        have hweak : (m'.body id).isWeak := by rwa [body, ← ho]
        rw [own_weak hold, own_weak hweak, ← ho]
        exact Property.Settles.rel_refl _

/-- A machine with the same objects, variables and memory. -/
theorem of_same (hheap : m'.heap = m.heap) (hcells : m'.cells = m.cells)
    (hregions : m'.regions = m.regions) : m.Evolves but m' := by
  have hobj : ∀ id, m'.obj id = m.obj id := fun id => by rw [obj, hheap, obj]
  have hbody : ∀ id, m'.body id = m.body id := fun id => by rw [body, hobj, body]
  refine ⟨by rw [hheap], fun id h => (hbody id).trans h, fun id t h => (hbody id).symm.trans h,
    fun id b h => (hbody id).symm.trans h, fun id _ _ k _ => ?_⟩
  rw [own_congr (hbody id) (by rw [hobj]) hcells fun _ g _ _ => by rw [region, hregions, region]]
  exact Property.Settles.rel_refl _

/-- Making new objects, and changing properties of plain ones. -/
theorem of_props (hsize : m.heap.size ≤ m'.heap.size)
    (hbody : ∀ id < m.heap.size, m'.body id = m.body id)
    (hnew : ∀ id, m.heap.size ≤ id → (m'.body id).isNew)
    (hcells : m'.cells = m.cells) (hregions : m'.regions = m.regions)
    (hget : ∀ id < m.heap.size, ∀ k, ¬but id k →
      (m'.obj id).props.get? k = (m.obj id).props.get? k ∨ m.IsPlain id ∧
        Option.Rel Property.Settles ((m.obj id).props.get? k) ((m'.obj id).props.get? k)) :
    m.Evolves but m' where
  size := hsize
  freed id hid := by
    rw [hbody id (lt_of_body (by simp [hid]))]
    exact hid
  typed id t ht := by
    rcases Nat.lt_or_ge id m.heap.size with hid | hid
    · rwa [hbody id hid] at ht
    · have hnew := hnew id hid
      rw [ht] at hnew
      cases hnew
  buffer id b hb := by
    rcases Nat.lt_or_ge id m.heap.size with hid | hid
    · rwa [hbody id hid] at hb
    · have hnew := hnew id hid
      rw [hb] at hnew
      cases hnew
  same id hid _ k hk := by
    rcases hget id hid k hk with hsame | ⟨hplain, hrel⟩
    · rw [own_congr (hbody id hid) hsame hcells fun _ g _ _ => by rw [region, hregions, region]]
      exact Property.Settles.rel_refl _
    · have hplain' : m'.IsPlain id := by
        refine ⟨hid.trans_le hsize, ?_⟩
        rw [hbody id hid]
        exact hplain.2
      rwa [hplain.own_eq, hplain'.own_eq]

end Evolves

end Machine

end ScriptHost
