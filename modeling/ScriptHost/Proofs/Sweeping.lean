import ScriptHost.Engine.Collect
/-!
# What freeing leaves alone

A root is marked, marks are never taken away, and what is marked is never freed.  All other objects
may fade: they are freed, or they notice that something they referred to weakly was freed.  Either
way no object gets a property, and none gets a prototype that it did not have.
-/

namespace ScriptHost

/-! ## Tables over things -/

namespace NodeTable

variable {α : Type} {t : NodeTable α} {f : α → α} {a : α} {n n' : Node}

theorem getD_modify_ne {xs : Array α} {i j : Nat} (h : i ≠ j) :
    (xs.modify i f)[j]?.getD a = xs[j]?.getD a := by
  rw [Array.getElem?_modify, if_neg h]

theorem getD_modify_true {xs : Array Bool} {i : Nat} :
    (xs.modify i fun _ => true)[i]?.getD true = true := by
  rw [Array.getElem?_modify, if_pos rfl]
  cases xs[i]? <;> rfl

/-- A change of one thing is none of another. -/
theorem get_update_ne (h : n' ≠ n) : (t.update f n').get a n = t.get a n := by
  cases n' with
  | object i =>
      cases n with
      | object j => exact getD_modify_ne fun hij => h (by rw [hij])
      | cell j => rfl
      | realm j => rfl
  | cell i =>
      cases n with
      | cell j => exact getD_modify_ne fun hij => h (by rw [hij])
      | object j => rfl
      | realm j => rfl
  | realm i =>
      cases n with
      | realm j => exact getD_modify_ne fun hij => h (by rw [hij])
      | object j => rfl
      | cell j => rfl

theorem get_fill (m : Machine) (n : Node) : (fill m a).get a n = a := by
  cases n <;> simp only [fill, get, Array.getElem?_replicate] <;> split <;> rfl

theorem marked_update_self {t : NodeTable Bool} :
    (t.update (fun _ => true) n).get true n = true := by
  cases n with
  | object i => exact getD_modify_true
  | cell i => exact getD_modify_true
  | realm i => exact getD_modify_true

/-- Marking something takes no mark away. -/
theorem marked_update {t : NodeTable Bool} (h : t.get true n = true) :
    (t.update (fun _ => true) n').get true n = true := by
  by_cases hn : n' = n
  · rw [hn, marked_update_self]
  · rw [get_update_ne hn, h]

end NodeTable

namespace Machine

open NodeTable (get_update_ne get_fill marked_update marked_update_self)

variable {m m' m'' : Machine} {id : Nat} {n : Node}

/-! ## Marks -/

/-- Marks are never taken away. -/
theorem markNew_mono {marks : NodeTable Bool} {work ns : List Node} (h : marks.get true n = true) :
    (markNew marks work ns).1.get true n = true := by
  induction ns generalizing marks work with
  | nil => exact h
  | cons n' ns ih =>
      unfold markNew
      split
      · exact ih h
      · exact ih (marked_update h)

theorem markNew_mem {marks : NodeTable Bool} {work ns : List Node} (h : n ∈ ns) :
    (markNew marks work ns).1.get true n = true := by
  induction ns generalizing marks work with
  | nil => cases h
  | cons n' ns ih =>
      unfold markNew
      rcases List.mem_cons.1 h with rfl | h
      · split
        next hmarked => exact markNew_mono hmarked
        next => exact markNew_mono marked_update_self
      · split
        · exact ih h
        · exact ih h

theorem markFrom_mono {fuel : Nat} {marks : NodeTable Bool} {work : List Node}
    (h : marks.get true n = true) : (m.markFrom fuel marks work).get true n = true := by
  induction fuel generalizing marks work with
  | zero => exact h
  | succ fuel ih =>
      cases work with
      | nil => exact h
      | cons n' work => exact ih (markNew_mono h)

/-- A root is marked. -/
theorem reachable_root {roots : List Node} (h : n ∈ roots) :
    (m.reachable roots).get true n = true :=
  markFrom_mono (markNew_mem h)

/-! ## What is left over -/

/-- References to marked things are not counted. -/
theorem countRefs_marked {marks : NodeTable Bool} (garbage : List Node)
    (h : marks.get true n = true) : (m.countRefs marks garbage).get 0 n = 0 := by
  -- What one thing refers to.
  have hrefs : ∀ (rs : List Node) (t : NodeTable Nat), t.get 0 n = 0 →
      (rs.foldl (fun t r => if marks.get true r then t else t.update (· + 1) r) t).get 0 n = 0 := by
    intro rs
    induction rs with
    | nil => exact fun t ht => ht
    | cons r rs ih =>
        intro t ht
        refine ih _ ?_
        dsimp only
        split
        · exact ht
        next hr =>
          have hne : r ≠ n := by
            rintro rfl
            exact hr h
          rw [get_update_ne hne, ht]
  -- What all of them refer to.
  have hall : ∀ (garbage : List Node) (t : NodeTable Nat), t.get 0 n = 0 →
      (garbage.foldl (fun t n => (m.refs n).foldl (fun t r =>
        if marks.get true r then t else t.update (· + 1) r) t) t).get 0 n = 0 := by
    intro garbage
    induction garbage with
    | nil => exact fun t ht => ht
    | cons n' garbage ih => exact fun t ht => ih _ (hrefs _ t ht)
  exact hall garbage _ (get_fill m n)

/-- What nothing is counted to refer to does not become ready. -/
theorem unref_idle {counts : NodeTable Nat} {ready : List Node} (r : Node)
    (hcount : counts.get 0 n = 0) (hready : n ∉ ready) :
    (unref (counts, ready) r).1.get 0 n = 0 ∧ n ∉ (unref (counts, ready) r).2 := by
  by_cases hr : r = n
  · subst hr
    simp only [unref, hcount]
    exact ⟨trivial, hready⟩
  · have hcons : n ∉ r :: ready := by
      intro hmem
      rcases List.mem_cons.1 hmem with rfl | hmem
      · exact hr rfl
      · exact hready hmem
    unfold unref
    dsimp only
    split
    · exact ⟨hcount, hready⟩
    · exact ⟨by rw [get_update_ne hr, hcount], hcons⟩
    · exact ⟨by rw [get_update_ne hr, hcount], hready⟩

theorem unrefs_idle {counts : NodeTable Nat} {ready : List Node} (rs : List Node)
    (hcount : counts.get 0 n = 0) (hready : n ∉ ready) :
    (rs.foldl unref (counts, ready)).1.get 0 n = 0 ∧ n ∉ (rs.foldl unref (counts, ready)).2 := by
  induction rs generalizing counts ready with
  | nil => exact ⟨hcount, hready⟩
  | cons r rs ih =>
      obtain ⟨hcount', hready'⟩ := unref_idle r hcount hready
      exact ih hcount' hready'

theorem peel_idle {fuel : Nat} {counts : NodeTable Nat} {work ready : List Node} {out : List Nat}
    (hcount : counts.get 0 (.object id) = 0) (hwork : .object id ∉ work)
    (hready : .object id ∉ ready) (hout : id ∉ out) :
    id ∉ m.peel fuel counts work ready out := by
  induction fuel generalizing counts work ready out with
  | zero => simpa [peel] using hout
  | succ fuel ih =>
      cases work with
      | nil =>
          cases ready with
          | nil => simpa [peel] using hout
          | cons n ready =>
              exact ih hcount (fun h => hready (List.mem_reverse.1 h)) List.not_mem_nil hout
      | cons n work =>
          have hidle := unrefs_idle (m.refs n) hcount hready
          -- The object is not what is taken off the list, so it is not given out now.
          refine ih hidle.1 (fun h => hwork (List.mem_cons_of_mem _ h)) hidle.2 ?_
          cases n with
          | object id' =>
              intro hmem
              rcases List.mem_cons.1 hmem with rfl | hmem
              · exact hwork List.mem_cons_self
              · exact hout hmem
          | cell _ => exact hout
          | realm _ => exact hout

/-- What is marked is not left over. -/
theorem not_mem_loose_of_marked {roots : List Node}
    (hmarked : (m.reachable roots).get true (.object id) = true) : id ∉ m.loose roots := by
  have hgarbage : .object id ∉ m.garbage (m.reachable roots) := by
    unfold garbage
    rw [List.mem_filter, hmarked]
    exact fun hmem => Bool.noConfusion hmem.2
  refine peel_idle (countRefs_marked _ hmarked) (fun hmem => hgarbage ?_) (by simp) (by simp)
  exact (List.mem_filter.1 hmem).1

/-- A root is not left over. -/
theorem not_mem_loose {roots : List Node} (h : .object id ∈ roots) : id ∉ m.loose roots :=
  not_mem_loose_of_marked (reachable_root h)

end Machine

/-! ## Fading -/

/-- Whether an object refers to others weakly. -/
def Body.isWeak : Body → Bool
  | weakRef _ | weakMap _ | weakSet _ | registry _ _ _ => true
  | _ => false

/-- What may become of an object when others, or it itself, are freed. -/
inductive Obj.Fades (o : Obj) : Obj → Prop where
  | same : Fades o o
  | freed : Fades o { body := .freed }
  | noticed {b : Body} (hold : o.body.isWeak) (hnew : b.isWeak) : Fades o { o with body := b }

theorem Obj.Fades.trans {o o' o'' : Obj} (h : o.Fades o') (h' : o'.Fades o'') : o.Fades o'' := by
  cases h' with
  | same => exact h
  | freed => exact .freed
  | noticed hold hnew =>
      cases h with
      | same => exact .noticed hold hnew
      | freed => cases hold
      | noticed hold' _ => exact .noticed hold' hnew

namespace Machine

variable {m m' m'' : Machine} {id j : Nat}

/-- What may become of a machine when objects other than one are freed. -/
structure Fades (id : Nat) (m m' : Machine) : Prop where
  size : m'.heap.size = m.heap.size
  kept : m'.obj id = m.obj id
  fades : ∀ j, (m.obj j).Fades (m'.obj j)

theorem Fades.refl (id : Nat) (m : Machine) : m.Fades id m := ⟨rfl, rfl, fun _ => .same⟩

theorem Fades.trans (h : m.Fades id m') (h' : m'.Fades id m'') : m.Fades id m'' :=
  ⟨h'.size.trans h.size, h'.kept.trans h.kept, fun j => (h.fades j).trans (h'.fades j)⟩

theorem Fades.body_kept (h : m.Fades id m') : m'.body id = m.body id := by
  rw [body, body, h.kept]

theorem Fades.of_heap (h : m'.heap = m.heap) : m.Fades id m' := by
  have hobj : ∀ j, m'.obj j = m.obj j := fun j => by rw [obj, obj, h]
  refine ⟨by rw [h], hobj id, fun j => ?_⟩
  rw [hobj j]
  exact .same

theorem obj_update (m : Machine) (j id : Nat) (f : Obj → Obj) :
    (m.update j f).obj id = if j = id ∧ j < m.heap.size then f (m.obj id) else m.obj id := by
  unfold obj update
  rw [Array.getElem?_modify]
  by_cases hj : j = id
  · subst hj
    by_cases hlt : j < m.heap.size
    · simp [hlt]
    · simp [hlt]
  · simp [hj]

theorem Fades.update (hne : j ≠ id) {f : Obj → Obj} (hf : (m.obj j).Fades (f (m.obj j))) :
    m.Fades id (m.update j f) := by
  refine ⟨by simp [Machine.update], ?_, fun j' => ?_⟩
  · rw [obj_update, if_neg fun h => hne h.1]
  · rw [obj_update]
    split
    next h =>
      rw [← h.1]
      exact hf
    next => exact .same

theorem blankOut_fades (hne : j ≠ id) : m.Fades id (m.blankOut j) := by
  have hobj : ∀ j', (m.blankOut j).obj j' =
      if j = j' ∧ j < m.heap.size then { body := .freed } else m.obj j' := by
    intro j'
    unfold obj blankOut
    rw [Array.getElem?_setIfInBounds]
    by_cases hj : j = j'
    · by_cases hlt : j < m.heap.size <;> simp [hj, hj ▸ hlt]
    · simp [hj]
  refine ⟨by simp [blankOut], ?_, fun j' => ?_⟩
  · rw [hobj, if_neg fun h => hne h.1]
  · rw [hobj]
    split
    next => exact .freed
    next => exact .same

theorem giveUpMemory_heap (m : Machine) (b : Buffer) : (m.giveUpMemory b).heap = m.heap := by
  unfold giveUpMemory
  cases b.region <;> cases b.token <;> rfl

theorem free_fades (hne : j ≠ id) : m.Fades id (m.free j) := by
  unfold free
  split
  next b _ => exact (blankOut_fades hne).trans (.of_heap (giveUpMemory_heap _ _))
  next => exact blankOut_fades hne

/-- An object that notices what was freed is one that refers to others weakly. -/
theorem noticeGone_fades (hplain : (m.body id).isWeak = false) : m.Fades id (m.noticeGone j) := by
  have hne : (m.body j).isWeak → j ≠ id := by
    rintro hweak rfl
    rw [hplain] at hweak
    cases hweak
  have hnotice : ∀ b : Body, (m.body j).isWeak → b.isWeak →
      m.Fades id (m.update j fun o => { o with body := b }) :=
    fun b hold hnew => .update (hne hold) (.noticed hold hnew)
  unfold noticeGone
  split
  next t hbody =>
    split
    · exact hnotice _ (by rw [hbody]; rfl) rfl
    · exact .refl id m
  next es hbody =>
    split
    · exact hnotice _ (by rw [hbody]; rfl) rfl
    · exact .refl id m
  next vs hbody =>
    split
    · exact hnotice _ (by rw [hbody]; rfl) rfl
    · exact .refl id m
  next f r es hbody =>
    split
    · exact (hnotice _ (by rw [hbody]; rfl) rfl).trans (.of_heap rfl)
    · exact .refl id m
  next => exact .refl id m

theorem freeAll_fades {ids : List Nat} (hplain : (m.body id).isWeak = false) (hids : id ∉ ids) :
    m.Fades id (m.freeAll ids) := by
  -- First everything is freed, and then those that are left notice it.
  have hfree : m.Fades id (ids.foldl free m) := by
    clear hplain
    induction ids generalizing m with
    | nil => exact .refl id m
    | cons j ids ih =>
        have hne : j ≠ id := fun h => hids (by simp [h])
        exact (free_fades hne).trans (ih fun h => hids (List.mem_cons_of_mem _ h))
  have hnotice : ∀ (js : List Nat) (m : Machine), (m.body id).isWeak = false →
      m.Fades id (js.foldl noticeGone m) := by
    intro js
    induction js with
    | nil => exact fun m _ => .refl id m
    | cons j js ih =>
        intro m hplain
        have hstep : m.Fades id (m.noticeGone j) := noticeGone_fades hplain
        refine hstep.trans (ih _ ?_)
        rwa [hstep.body_kept]
  refine hfree.trans (hnotice _ _ ?_)
  rwa [hfree.body_kept]

/-- A root stays as it is when what nothing refers to is freed. -/
theorem settle_fades {roots : List Node} (hroot : .object id ∈ roots)
    (hplain : (m.body id).isWeak = false) (fuel : Nat) : m.Fades id (m.settle roots fuel) := by
  induction fuel generalizing m with
  | zero => exact .refl id m
  | succ fuel ih =>
      unfold settle
      split
      next => exact .refl id m
      next ids hids =>
        -- In each round what is left over is looked for anew, and the root is never among it.
        have hmem : id ∉ (m.loose (roots ++ m.ownRoots)).filter m.isThere :=
          fun h => not_mem_loose (List.mem_append_left _ hroot) (List.mem_filter.1 h).1
        have hstep := freeAll_fades hplain hmem
        refine hstep.trans (ih ?_)
        rwa [hstep.body_kept]

end Machine

end ScriptHost
