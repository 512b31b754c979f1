import ScriptHost.Proofs.Sweeping
/-!
# What is referred to is kept

Marking stops only when everything that a marked thing refers to is marked too, for each thing enters
the list of work once, when it gets its mark.  So whatever can be reached from a root, by way of
objects whose references do not go by themselves, has a mark and is not freed.
-/

namespace ScriptHost

/-! ## Counting what has no mark -/

namespace NodeTable

variable {t : NodeTable Bool} {n : Node}

/-- How many things have no mark. -/
def unmarked (t : NodeTable Bool) : Nat :=
  t.objects.count false + t.cells.count false + t.realms.count false

theorem count_modify (xs : Array Bool) {i : Nat} (h : xs[i]?.getD true = false) :
    (xs.modify i fun _ => true).count false + 1 = xs.count false := by
  obtain ⟨hi, hfalse⟩ : ∃ hi : i < xs.size, xs[i] = false := by
    by_cases hi : i < xs.size
    · exact ⟨hi, by simpa [hi] using h⟩
    · simp [hi] at h
  have hpos : 0 < xs.count false := Array.count_pos_iff.2 (hfalse ▸ Array.getElem_mem hi)
  have hset : xs.modify i (fun _ => true) = xs.set i true hi := by
    apply Array.ext
    · simp
    · intro j hj _
      rw [Array.getElem_modify, Array.getElem_set]
  rw [hset, Array.count_set, hfalse]
  simp
  omega

/-- Marking something leaves one thing less without a mark. -/
theorem unmarked_update (h : t.get true n = false) :
    (t.update (fun _ => true) n).unmarked + 1 = t.unmarked := by
  cases n with
  | object i =>
      have hcount := count_modify t.objects h
      simp only [unmarked, update]
      omega
  | cell i =>
      have hcount := count_modify t.cells h
      simp only [unmarked, update]
      omega
  | realm i =>
      have hcount := count_modify t.realms h
      simp only [unmarked, update]
      omega

theorem unmarked_fill (m : Machine) : (fill m false).unmarked = m.nodeCount := by
  simp [unmarked, fill, Machine.nodeCount]

end NodeTable

namespace Machine

open NodeTable (get_update_ne marked_update_self unmarked_update unmarked_fill)

variable {m m' : Machine} {n n' : Node} {marks : NodeTable Bool} {work ns roots : List Node}
  {id j : Nat}

/-! ## What marking comes to -/

/-- What is on the list of work stays on it while things are marked. -/
theorem markNew_work (h : n ∈ work) : n ∈ (markNew marks work ns).2 := by
  induction ns generalizing marks work with
  | nil => exact h
  | cons n' ns ih =>
      unfold markNew
      split
      · exact ih h
      · exact ih (List.mem_cons_of_mem n' h)

/-- What gets a mark is put on the list of work. -/
theorem markNew_new (h : (markNew marks work ns).1.get true n = true) :
    marks.get true n = true ∨ n ∈ (markNew marks work ns).2 := by
  induction ns generalizing marks work with
  | nil => exact .inl h
  | cons n' ns ih =>
      unfold markNew at h ⊢
      split at h
      next hmarked =>
        rw [if_pos hmarked]
        exact ih h
      next hmarked =>
        rw [if_neg hmarked]
        by_cases hn : n' = n
        · subst hn
          exact .inr (markNew_work List.mem_cons_self)
        · rcases ih h with hold | hnew
          · rw [get_update_ne hn] at hold
            exact .inl hold
          · exact .inr hnew

/-- The list of work grows by as much as there is less without a mark. -/
theorem markNew_count :
    (markNew marks work ns).1.unmarked + (markNew marks work ns).2.length =
      marks.unmarked + work.length := by
  induction ns generalizing marks work with
  | nil => rfl
  | cons n' ns ih =>
      unfold markNew
      split
      next => exact ih
      next hmarked =>
        have hone := unmarked_update (Bool.not_eq_true _ ▸ hmarked)
        rw [ih, List.length_cons]
        omega

/-- A thing that the machine has, or that refers to nothing in any case. -/
def Has (m : Machine) : Node → Prop
  | .realm id => id < m.realms.size
  | _ => True

/-- Everything that a marked thing refers to is marked too, unless the thing is still on the list. -/
def Traced (m : Machine) (marks : NodeTable Bool) (work : List Node) : Prop :=
  ∀ n, m.Has n → marks.get true n = true → n ∉ work → ∀ n' ∈ m.refs n, marks.get true n' = true

/-- Taking a thing off the list and marking what it refers to keeps everything traced. -/
theorem Traced.markNew (h : m.Traced marks (n :: work)) :
    m.Traced (markNew marks work (m.refs n)).1 (markNew marks work (m.refs n)).2 := by
  intro k hhas hmarked hwork k' hk'
  by_cases hk : k = n
  · subst hk
    exact markNew_mem hk'
  · -- It had its mark before, for what is marked now is put on the list.
    have hold : marks.get true k = true := (markNew_new hmarked).resolve_right hwork
    have hoff : k ∉ n :: work := by
      intro hmem
      rcases List.mem_cons.1 hmem with hkn | hmem
      · exact hk hkn
      · exact hwork (markNew_work hmem)
    exact markNew_mono (h k hhas hold hoff k' hk')

theorem markFrom_traced {fuel : Nat} (h : m.Traced marks work)
    (hfuel : marks.unmarked + work.length ≤ fuel) :
    m.Traced (m.markFrom fuel marks work) [] := by
  induction fuel generalizing marks work with
  | zero =>
      have hwork : work = [] := List.length_eq_zero_iff.1 (by omega)
      rw [hwork] at h
      exact h
  | succ fuel ih =>
      cases work with
      | nil => exact h
      | cons n work =>
          refine ih h.markNew ?_
          rw [markNew_count]
          rw [List.length_cons] at hfuel
          omega

/-- A thing without a place in the tables refers to nothing. -/
theorem refs_unplaced (hhas : m.Has n) (h : (NodeTable.fill m false).get true n = true) :
    m.refs n = [] := by
  -- Only what is beyond the table counts as visited from the start.
  have hplace : ∀ {k i : Nat}, (Array.replicate k false)[i]?.getD true = true → k ≤ i := by
    intro k i hi
    rw [Array.getElem?_replicate] at hi
    split at hi
    next => cases hi
    next hk => exact Nat.le_of_not_lt hk
  cases n with
  | object id =>
      have hobj : m.obj id = {} := by
        rw [obj, Array.getElem?_eq_none (hplace h)]
        rfl
      rw [refs, hobj]
      rfl
  | cell id =>
      have hcell : m.cell id = .undefined := by
        rw [cell, Array.getElem?_eq_none (hplace h)]
        rfl
      rw [refs, hcell]
      rfl
  | realm id => exact absurd hhas (Nat.not_lt.2 (hplace h))

/-- Everything that a marked thing refers to has a mark. -/
theorem reachable_traced (roots : List Node) : m.Traced (m.reachable roots) [] := by
  refine markFrom_traced ?_ ?_
  · intro k hhas hmarked hwork k' hk'
    rcases markNew_new hmarked with hold | hnew
    · rw [refs_unplaced hhas hold] at hk'
      cases hk'
    · exact absurd hnew hwork
  · have hcount : (Machine.markNew (.fill m false) [] roots).1.unmarked +
        (Machine.markNew (.fill m false) [] roots).2.length =
          (NodeTable.fill m false).unmarked + ([] : List Node).length := markNew_count
    rw [hcount, unmarked_fill]
    simp

/-! ## What can be reached -/

/-- What can be reached from some things by way of objects whose references do not go by
themselves. -/
inductive Firm (m : Machine) (roots : List Node) : Node → Prop where
  | root {n : Node} : n ∈ roots → Firm m roots n
  | object {id : Nat} {n : Node} : Firm m roots (.object id) → (m.body id).isWeak = false →
      n ∈ m.refs (.object id) → Firm m roots n
  | cell {id : Nat} {n : Node} : Firm m roots (.cell id) → n ∈ m.refs (.cell id) → Firm m roots n
  | realm {id : Nat} {n : Node} : Firm m roots (.realm id) → id < m.realms.size →
      n ∈ m.refs (.realm id) → Firm m roots n

/-- What can be reached has a mark. -/
theorem Firm.marked (h : m.Firm roots n) : (m.reachable roots).get true n = true := by
  have htraced := reachable_traced (m := m) roots
  induction h with
  | root hn => exact reachable_root hn
  | @object id _ _ _ hn ih => exact htraced (.object id) trivial ih List.not_mem_nil _ hn
  | @cell id _ _ hn ih => exact htraced (.cell id) trivial ih List.not_mem_nil _ hn
  | @realm id _ _ hid hn ih => exact htraced (.realm id) hid ih List.not_mem_nil _ hn

end Machine

/-! ## Freeing -/

/-- What may become of an object that is not freed when others are. -/
inductive Obj.Stays (o : Obj) : Obj → Prop where
  | same : Stays o o
  | noticed {b : Body} (hold : o.body.isWeak) (hnew : b.isWeak) : Stays o { o with body := b }

theorem Obj.Stays.trans {o o' o'' : Obj} (h : o.Stays o') (h' : o'.Stays o'') : o.Stays o'' := by
  cases h' with
  | same => exact h
  | noticed hold hnew =>
      cases h with
      | same => exact .noticed hold hnew
      | noticed hold' _ => exact .noticed hold' hnew

/-- What was freed stays so. -/
theorem Obj.Fades.body_freed {o o' : Obj} (h : o.Fades o') (ho : o.body = .freed) :
    o'.body = .freed := by
  cases h with
  | same => exact ho
  | freed => rfl
  | noticed hold _ =>
      rw [ho] at hold
      cases hold

/-- An object that refers to others firmly stays as it is. -/
theorem Obj.Stays.eq {o o' : Obj} (h : o.Stays o') (hfirm : o.body.isWeak = false) : o' = o := by
  cases h with
  | same => rfl
  | noticed hold _ =>
      rw [hfirm] at hold
      cases hold

namespace Machine

/-- An object that is something special is there. -/
theorem lt_of_body {m : Machine} {id : Nat} (h : m.body id ≠ .ordinary) : id < m.heap.size := by
  refine Nat.lt_of_not_le fun hid => h ?_
  have hnone : m.heap[id]? = none := Array.getElem?_eq_none hid
  simp [body, obj, hnone]

/-- What may become of a machine when objects are freed other than those of a kind.  Memory stays as
long as no buffer that shows it is freed. -/
structure Sheds (P : Nat → Prop) (m m' : Machine) : Prop where
  size : m'.heap.size = m.heap.size
  stays : ∀ id, P id → (m.obj id).Stays (m'.obj id)
  fades : ∀ id, (m.obj id).Fades (m'.obj id)
  cells : m'.cells = m.cells
  realms : m'.realms = m.realms
  limits : m'.limits = m.limits
  memory : ∀ g, m'.region g = m.region g ∨
    ∃ id b, m.body id = .buffer b ∧ b.region = some g ∧ m'.body id = .freed

namespace Sheds

variable {P : Nat → Prop} {m m' m'' : Machine} {id j : Nat}

theorem refl (m : Machine) : m.Sheds P m :=
  ⟨rfl, fun _ _ => .same, fun _ => .same, rfl, rfl, rfl, fun _ => .inl rfl⟩

/-- Memory that only objects of the kind show stays. -/
theorem region (h : m.Sheds P m') (g : RegionId)
    (hg : ∀ id b, m.body id = .buffer b → b.region = some g → P id) : m'.region g = m.region g := by
  refine (h.memory g).resolve_right ?_
  rintro ⟨id, b, hb, hr, hfreed⟩
  have hobj : m'.obj id = m.obj id := (h.stays id (hg id b hb hr)).eq (by
    change (m.body id).isWeak = false
    rw [hb]
    rfl)
  rw [body, hobj] at hfreed
  cases hb.symm.trans hfreed

/-- Whatever is a buffer after others were freed was the same buffer before. -/
theorem body_buffer (h : m.Sheds P m') {b : Buffer} (hb : m'.body id = .buffer b) :
    m.body id = .buffer b := by
  have hfades := h.fades id
  unfold body at hb ⊢
  obtain ⟨o, ho⟩ : ∃ o, o = m'.obj id := ⟨_, rfl⟩
  rw [← ho] at hfades hb
  cases hfades with
  | same => exact hb
  | freed => cases hb
  | noticed hold hnew =>
      dsimp only at hb
      rw [hb] at hnew
      cases hnew

theorem trans (h : m.Sheds P m') (h' : m'.Sheds P m'') : m.Sheds P m'' where
  size := h'.size.trans h.size
  stays id hid := (h.stays id hid).trans (h'.stays id hid)
  fades id := (h.fades id).trans (h'.fades id)
  cells := h'.cells.trans h.cells
  realms := h'.realms.trans h.realms
  limits := h'.limits.trans h.limits
  memory g := by
    rcases h'.memory g with hsame' | ⟨id, b, hb, hr, hfreed⟩
    · rcases h.memory g with hsame | ⟨id, b, hb, hr, hfreed⟩
      · exact .inl (hsame'.trans hsame)
      · exact .inr ⟨id, b, hb, hr, (h'.fades id).body_freed hfreed⟩
    · exact .inr ⟨id, b, h.body_buffer hb, hr, hfreed⟩

/-- What holds for more objects holds for fewer. -/
theorem mono {Q : Nat → Prop} (h : m.Sheds Q m') (hPQ : ∀ id, P id → Q id) : m.Sheds P m' :=
  { h with stays := fun id hid => h.stays id (hPQ id hid) }

/-- Changing one object as it may fade, if it stays or is not of the kind. -/
theorem update {f : Obj → Obj} (hfades : (m.obj j).Fades (f (m.obj j)))
    (hstays : P j → (m.obj j).Stays (f (m.obj j))) : m.Sheds P (m.update j f) where
  size := by simp [Machine.update]
  stays id hid := by
    rw [obj_update]
    split
    next h =>
      rw [← h.1] at hid ⊢
      exact hstays hid
    next => exact .same
  fades id := by
    rw [obj_update]
    split
    next h =>
      rw [← h.1]
      exact hfades
    next => exact .same
  cells := rfl
  realms := rfl
  limits := rfl
  memory _ := .inl rfl

theorem blankOut (hj : ¬P j) : m.Sheds P (m.blankOut j) := by
  have hobj : ∀ id, (m.blankOut j).obj id = (m.update j fun _ => { body := .freed }).obj id := by
    intro id
    unfold obj Machine.blankOut Machine.update
    rw [Array.getElem?_setIfInBounds, Array.getElem?_modify]
    by_cases hid : j = id
    · subst hid
      by_cases hlt : j < m.heap.size <;> simp [hlt]
    · simp [hid]
  have hupdate : m.Sheds P (m.update j fun _ => { body := .freed }) :=
    update .freed fun hP => absurd hP hj
  refine { hupdate with size := ?_, stays := ?_, fades := ?_, memory := ?_ }
  · simp [Machine.blankOut]
  · exact fun id hid => hobj id ▸ hupdate.stays id hid
  · exact fun id => hobj id ▸ hupdate.fades id
  · exact fun _ => .inl rfl

/-- Freeing an object that is not of the kind. -/
theorem free (hj : ¬P j) : m.Sheds P (m.free j) := by
  unfold Machine.free
  split
  next b hb =>
    have hblank : m.Sheds P (m.blankOut j) := blankOut hj
    have hobj : ∀ id, ((m.blankOut j).giveUpMemory b).obj id = (m.blankOut j).obj id := by
      intro id
      rw [obj, obj, giveUpMemory_heap]
    -- Of everything else the memory of the buffer is all that changes.
    have hrest : ((m.blankOut j).giveUpMemory b).cells = m.cells ∧
        ((m.blankOut j).giveUpMemory b).realms = m.realms ∧
        ((m.blankOut j).giveUpMemory b).limits = m.limits := by
      unfold giveUpMemory
      cases b.region <;> cases b.token <;> exact ⟨rfl, rfl, rfl⟩
    have hregions : ((m.blankOut j).giveUpMemory b).regions =
        b.region.elim m.regions fun r => m.regions.setIfInBounds r .empty := by
      unfold giveUpMemory
      cases b.region <;> cases b.token <;> rfl
    refine ⟨?_, fun id hid => ?_, fun id => ?_, hrest.1, hrest.2.1, hrest.2.2, fun g => ?_⟩
    · rw [giveUpMemory_heap, hblank.size]
    · rw [hobj]
      exact hblank.stays id hid
    · rw [hobj]
      exact hblank.fades id
    · rw [Machine.region, hregions, Machine.region]
      cases hr : b.region with
      | none => exact .inl rfl
      | some r =>
          rw [Option.elim_some]
          by_cases hg : r = g
          · -- The buffer itself is the one that showed this memory.
            have hlt : j < m.heap.size := lt_of_body (by simp [hb])
            refine .inr ⟨j, b, hb, hg ▸ hr, ?_⟩
            rw [body, hobj]
            simp [obj, Machine.blankOut, hlt]
          · rw [Array.getElem?_setIfInBounds_ne hg]
            exact .inl rfl
  next => exact blankOut hj

/-- Noticing what was freed. -/
theorem noticeGone : m.Sheds P (m.noticeGone j) := by
  have hnotice : ∀ b : Body, (m.body j).isWeak → b.isWeak →
      m.Sheds P (m.update j fun o => { o with body := b }) :=
    fun b hold hnew => update (.noticed hold hnew) fun _ => .noticed hold hnew
  unfold Machine.noticeGone
  split
  next t hbody =>
    split
    · exact hnotice _ (by rw [hbody]; rfl) rfl
    · exact refl m
  next es hbody =>
    split
    · exact hnotice _ (by rw [hbody]; rfl) rfl
    · exact refl m
  next vs hbody =>
    split
    · exact hnotice _ (by rw [hbody]; rfl) rfl
    · exact refl m
  next f r es hbody =>
    split
    · exact { hnotice _ (by rw [hbody]; rfl) rfl with }
    · exact refl m
  next => exact refl m

theorem freeAll {ids : List Nat} (hids : ∀ id ∈ ids, ¬P id) : m.Sheds P (m.freeAll ids) := by
  have hfree : m.Sheds P (ids.foldl Machine.free m) := by
    induction ids generalizing m with
    | nil => exact refl m
    | cons j ids ih =>
        exact (free (hids j List.mem_cons_self)).trans
          (ih fun id hid => hids id (List.mem_cons_of_mem j hid))
  have hnotice : ∀ (js : List Nat) (m : Machine), m.Sheds P (js.foldl Machine.noticeGone m) := by
    intro js
    induction js with
    | nil => exact refl
    | cons j js ih => exact fun m => noticeGone.trans (ih _)
  exact hfree.trans (hnotice _ _)

end Sheds

/-! ## Work that is put off -/

/-- What may become of the work of a machine: more is put off. -/
def PutsOff (m m' : Machine) : Prop := ∃ js, m'.jobs = m.jobs ++ js

namespace PutsOff

variable {m m' m'' : Machine} {j : Nat}

theorem of_same (h : m'.jobs = m.jobs) : m.PutsOff m' := ⟨#[], by rw [h, Array.append_empty]⟩

theorem trans (h : m.PutsOff m') (h' : m'.PutsOff m'') : m.PutsOff m'' := by
  obtain ⟨js, hjs⟩ := h
  obtain ⟨js', hjs'⟩ := h'
  exact ⟨js ++ js', by rw [hjs', hjs, Array.append_assoc]⟩

theorem free : m.PutsOff (m.free j) := by
  unfold Machine.free
  split
  · unfold giveUpMemory
    split
    · split
      · exact of_same rfl
      · exact of_same rfl
    · split
      · exact of_same rfl
      · exact of_same rfl
  · exact of_same rfl

/-- Registries put off what they do about things that are gone. -/
theorem noticeGone : m.PutsOff (m.noticeGone j) := by
  unfold Machine.noticeGone
  split
  next => split <;> exact of_same rfl
  next => split <;> exact of_same rfl
  next => split <;> exact of_same rfl
  next =>
    split
    · exact ⟨_, rfl⟩
    · exact of_same rfl
  next => exact of_same rfl

theorem foldl {f : Machine → Nat → Machine} (hf : ∀ (m : Machine) (j : Nat), m.PutsOff (f m j)) (ids : List Nat) :
    m.PutsOff (ids.foldl f m) := by
  induction ids generalizing m with
  | nil => exact of_same rfl
  | cons j ids ih => exact (hf m j).trans ih

theorem freeAll {ids : List Nat} : m.PutsOff (m.freeAll ids) :=
  (foldl (fun _ _ => free) ids).trans (foldl (fun _ _ => noticeGone) _)

theorem settle (roots : List Node) (fuel : Nat) : m.PutsOff (m.settle roots fuel) := by
  induction fuel generalizing m with
  | zero => exact of_same rfl
  | succ fuel ih =>
      unfold Machine.settle
      split
      next => exact of_same rfl
      next => exact freeAll.trans ih

theorem collect (roots : List Node) (fuel : Nat) : m.PutsOff (m.collect roots fuel) := by
  induction fuel generalizing m with
  | zero => exact of_same rfl
  | succ fuel ih =>
      unfold Machine.collect
      dsimp only
      split
      next => exact of_same rfl
      next => exact freeAll.trans ih

end PutsOff

/-! ## What objects refer to -/

variable {m m' : Machine} {roots : List Node} {n : Node} {id j : Nat}

theorem mem_foldl_append {α : Type} {f : α → List Node} {l : List α} {acc : List Node}
    (h : n ∈ acc ∨ ∃ a ∈ l, n ∈ f a) : n ∈ l.foldl (fun ns a => f a ++ ns) acc := by
  induction l generalizing acc with
  | nil =>
      rcases h with h | ⟨a, ha, -⟩
      · exact h
      · cases ha
  | cons a l ih =>
      refine ih ?_
      rcases h with h | ⟨b, hb, hn⟩
      · exact .inl (List.mem_append_right _ h)
      · rcases List.mem_cons.1 hb with rfl | hb
        · exact .inl (List.mem_append_left _ hn)
        · exact .inr ⟨b, hb, hn⟩

/-- An object refers to its prototype. -/
theorem mem_refs_proto (h : (m.obj id).proto = some j) : .object j ∈ m.refs (.object id) := by
  rw [refs, objectRefs, h]
  simp [Node.ofObject?]

/-- An object refers to what makes it more than its properties. -/
theorem mem_refs_body (h : n ∈ Node.ofBody (m.body id)) : n ∈ m.refs (.object id) := by
  rw [refs, objectRefs]
  exact List.mem_append_left _ (List.mem_append_right _ h)

/-- An object refers to what its properties refer to. -/
theorem mem_refs_property {k : Key} {p : Property} (h : (m.obj id).props.get? k = some p)
    (hn : n ∈ Node.ofProperty p) : n ∈ m.refs (.object id) := by
  rw [refs, objectRefs, ← Array.foldl_toList, Std.TreeMap.foldl_eq_foldl_toList]
  refine List.mem_append_right _ (mem_foldl_append ?_)
  have hmember : ((m.obj id).props.members.find? (·.1 == k)).map (·.2) = some p →
      ∃ a ∈ (m.obj id).props.members.toList, n ∈ Node.ofProperty a.2 := by
    intro hfind
    obtain ⟨a, ha, rfl⟩ := Option.map_eq_some_iff.1 hfind
    exact ⟨a, Array.mem_toList_iff.2 (Array.mem_of_find?_eq_some ha), hn⟩
  cases k with
  | index i =>
      have hi : (i, p) ∈ (m.obj id).props.indices.toList :=
        Std.TreeMap.mem_toList_iff_getElem?_eq_some.2 h
      exact .inl (mem_foldl_append (f := fun a : Nat × Property => Node.ofProperty a.2)
        (.inr ⟨(i, p), hi, hn⟩))
  | name t => exact .inr (hmember h)
  | symbol i => exact .inr (hmember h)
  | null => exact .inr (hmember h)

/-! ## Freeing what nothing refers to -/

/-- What can be reached from some things or from the machine itself. -/
def Held (m : Machine) (roots : List Node) (n : Node) : Prop := m.Firm (roots ++ m.ownRoots) n

/-- What is held stays held when only things are freed that are not. -/
theorem Sheds.held (h : m.Sheds (fun id => m.Held roots (.object id)) m') (hjobs : m.PutsOff m')
    (hn : m.Held roots n) : m'.Held roots n := by
  obtain ⟨js, hjs⟩ := hjobs
  unfold Held at hn
  -- By induction on the path from a root: everything on it is held, so it is left as it was.
  induction hn with
  | root hn =>
      refine .root ?_
      rcases List.mem_append.1 hn with hn | hn
      · exact List.mem_append_left _ hn
      · refine List.mem_append_right _ ?_
        unfold ownRoots at hn ⊢
        rw [h.realms, hjs, Array.toList_append, List.flatMap_append, ← List.append_assoc]
        exact List.mem_append_left _ hn
  | @object id n hid hfirm hn ih =>
      have hobj : m'.obj id = m.obj id := (h.stays id hid).eq hfirm
      have hbody : m'.body id = m.body id := congrArg Obj.body hobj
      refine .object ih (hbody ▸ hfirm) ?_
      rw [refs, hobj]
      exact hn
  | @cell id n _ hn ih =>
      refine .cell ih ?_
      rw [refs, cell, h.cells]
      exact hn
  | @realm id n _ hid hn ih =>
      refine .realm ih (h.realms ▸ hid) ?_
      rw [refs, h.realms]
      exact hn

/-- What nothing refers to any more is all that is freed. -/
theorem settle_sheds (roots : List Node) (fuel : Nat) :
    m.Sheds (fun id => m.Held roots (.object id)) (m.settle roots fuel) := by
  induction fuel generalizing m with
  | zero => exact .refl m
  | succ fuel ih =>
      unfold settle
      split
      next => exact .refl m
      next ids hids =>
        have hstep : m.Sheds (fun id => m.Held roots (.object id))
            (m.freeAll ((m.loose (roots ++ m.ownRoots)).filter m.isThere)) :=
          .freeAll fun id hmem hheld =>
            not_mem_loose_of_marked hheld.marked (List.mem_filter.1 hmem).1
        -- What was held is held in the next round, too.
        exact hstep.trans (ih.mono fun id hid => hstep.held .freeAll hid)

end Machine

end ScriptHost
