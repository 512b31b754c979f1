import Mathlib.Data.List.Nodup
import ScriptHost.Client.Builtins
import ScriptHost.Proofs.Carrying
/-!
# Prototypes that stay as they are

The prototypes of an object are plain, and no object is a prototype of itself, so a walk along them
comes to its end within the heap.  What is found there depends on the objects of the walk alone:
where these are spared, the same is found again.
-/

namespace ScriptHost

/-- Freeing something changes nothing in a plain object. -/
theorem Body.isWeak_of_isPlain {b : Body} (h : b.isPlain = true) : b.isWeak = false := by
  cases b <;> simp_all [isPlain, isWeak]

namespace Machine

variable {m m' : Machine} {id j p : Nat} {ps qs : List Nat} {k : Key} {pr : Property}

/-! ## Single objects -/

namespace IsPlain

variable (h : m.IsPlain id)
include h

theorem not_weak : (m.body id).isWeak = false := Body.isWeak_of_isPlain h.2

theorem own_eq (k : Key) : m.own? id k = (m.obj id).props.get? k := by
  have hplain := h.2
  unfold body at hplain
  unfold own?
  generalize m.obj id = o at hplain ⊢
  rcases o with ⟨b, proto, extensible, props⟩
  cases b <;> first | rfl | cases hplain

theorem stopsAt_eq (k : Key) : m.stopsAt id k = false := by
  have hplain := h.2
  unfold stopsAt
  split <;> simp_all [Body.isPlain]

theorem not_proxy (t hd : Option Nat) (c b : Bool) : m.body id ≠ .proxy t hd c b := by
  intro hproxy
  have hplain := h.2
  simp [hproxy, Body.isPlain] at hplain

end IsPlain

/-! ## Chains of prototypes -/

namespace Descends

theorem mem_plain (h : m.Descends id ps) : ∀ p ∈ ps, m.IsPlain p := by
  induction ps generalizing id with
  | nil => simp
  | cons q qs ih =>
      intro p hp
      rcases List.mem_cons.1 hp with rfl | hp
      · exact h.2.1
      · exact ih h.2.2 p hp

theorem of_heap (hheap : m'.heap = m.heap) (h : m.Descends id ps) : m'.Descends id ps := by
  have hobj : ∀ j, m'.obj j = m.obj j := by
    intro j
    rw [obj, hheap, obj]
  induction ps generalizing id with
  | nil =>
      change (m'.obj id).proto = none
      rw [hobj]
      exact h
  | cons q qs ih =>
      have hplain : m'.IsPlain q := by
        unfold IsPlain body
        rw [hheap, hobj]
        exact h.2.1
      exact ⟨by rw [hobj]; exact h.1, hplain, ih h.2.2⟩

/-- An object has its prototypes in one way only. -/
theorem unique (h : m.Descends id ps) (h' : m.Descends id qs) : ps = qs := by
  induction ps generalizing id qs with
  | nil =>
      cases qs with
      | nil => rfl
      | cons q qs =>
          have hnone : (m.obj id).proto = none := h
          have hsome := h'.1
          rw [hnone] at hsome
          cases hsome
  | cons p ps ih =>
      cases qs with
      | nil =>
          have hnone : (m.obj id).proto = none := h'
          have hsome := h.1
          rw [hnone] at hsome
          cases hsome
      | cons q qs =>
          have hpq : some p = some q := h.1.symm.trans h'.1
          obtain rfl : p = q := Option.some.inj hpq
          rw [ih h.2.2 h'.2.2]

/-- The prototypes of a prototype are those after it. -/
theorem of_mem (h : m.Descends id ps) (hp : p ∈ ps) : ∃ qs, m.Descends p qs ∧ qs.length < ps.length := by
  induction ps generalizing id with
  | nil => cases hp
  | cons q qs ih =>
      rcases List.mem_cons.1 hp with rfl | hp
      · exact ⟨qs, h.2.2, by simp⟩
      · rcases ih h.2.2 hp with ⟨qs', h', hlength⟩
        exact ⟨qs', h', by simp; omega⟩

/-- No object is a prototype of itself. -/
theorem nodup (h : m.Descends id ps) : ps.Nodup := by
  induction ps generalizing id with
  | nil => exact List.nodup_nil
  | cons q qs ih =>
      refine List.nodup_cons.2 ⟨?_, ih h.2.2⟩
      intro hq
      rcases of_mem h.2.2 hq with ⟨qs', h', hlength⟩
      -- It would have fewer prototypes than it has.
      rw [unique h' h.2.2] at hlength
      exact Nat.lt_irrefl _ hlength

theorem length_le (h : m.Descends id ps) : ps.length ≤ m.heap.size := by
  have hsub : ps ⊆ List.range m.heap.size := by
    intro p hp
    exact List.mem_range.2 (h.mem_plain p hp).1
  simpa using (h.nodup.subperm hsub).length_le

end Descends

/-! ## What is found -/

/-- A walk that begins at a plain object finds the first property. -/
theorem findFrom_plain (h : m.Descends id ps) (hid : m.IsPlain id)
    (hfirst : m.firstProperty k (id :: ps) = some pr) {fuel : Nat} (hfuel : ps.length < fuel) :
    ∃ j, m.findFrom k fuel (some id) = .property j pr := by
  -- By induction on the chain of prototypes, all of which are plain.
  induction ps generalizing id fuel with
  | nil =>
      obtain ⟨fuel, rfl⟩ := Nat.exists_eq_succ_of_ne_zero (Nat.ne_zero_of_lt hfuel)
      have hown : m.own? id k = some pr := by
        rw [hid.own_eq]
        simpa [firstProperty] using hfirst
      refine ⟨id, ?_⟩
      rw [findFrom]
      split
      next hproxy => exact absurd hproxy (hid.not_proxy _ _ _ _)
      next => rw [hown]
  | cons q qs ih =>
      obtain ⟨fuel, rfl⟩ := Nat.exists_eq_succ_of_ne_zero (Nat.ne_zero_of_lt hfuel)
      have hown := hid.own_eq k
      rw [firstProperty, List.findSome?_cons, ← hown] at hfirst
      rw [findFrom]
      split
      next hproxy => exact absurd hproxy (hid.not_proxy _ _ _ _)
      next =>
        cases hpr : m.own? id k with
        | some pr' =>
            rw [hpr] at hfirst
            cases hfirst
            exact ⟨id, rfl⟩
        | none =>
            rw [hpr] at hfirst
            dsimp only
            rw [hid.stopsAt_eq, if_neg Bool.false_ne_true, h.1]
            exact ih h.2.2 h.2.1 hfirst (Nat.lt_of_succ_lt_succ hfuel)

theorem find_plain (h : m.Descends id ps) (hid : m.IsPlain id)
    (hfirst : m.firstProperty k (id :: ps) = some pr) :
    ∃ j, m.find k (some id) = .property j pr :=
  findFrom_plain h hid hfirst (Nat.lt_succ_of_le h.length_le)

/-- An object that has no property of its own with a key has that of its prototypes. -/
theorem find_inherited (h : m.Descends id (p :: ps))
    (hproxy : ∀ t hd c b, m.body id ≠ .proxy t hd c b) (hown : m.own? id k = none)
    (hstops : m.stopsAt id k = false) (hfirst : m.firstProperty k (p :: ps) = some pr) :
    ∃ j, m.find k (some id) = .property j pr := by
  have hlength := h.length_le
  rcases findFrom_plain h.2.2 h.2.1 hfirst (Nat.lt_of_succ_le hlength) with ⟨j, hj⟩
  refine ⟨j, ?_⟩
  rw [find, findFrom]
  split
  next t hd c b hbody => exact absurd hbody (hproxy t hd c b)
  next =>
    rw [hown]
    dsimp only
    rw [hstops, if_neg Bool.false_ne_true, h.1]
    exact hj

/-! ## Machines with the same objects -/

/-- The objects of a kind are the same in another machine, and whatever they refer to is of that kind
too. -/
structure Spares (P : Nat → Prop) (m m' : Machine) : Prop where
  size : m.heap.size ≤ m'.heap.size
  obj : ∀ id, P id → id < m.heap.size → (m.body id).isWeak = false → m'.obj id = m.obj id
  realms : m'.realms = m.realms
  limits : m'.limits = m.limits
  proto : ∀ id j, P id → (m.body id).isWeak = false → (m.obj id).proto = some j → P j
  property : ∀ id k pr j, P id → (m.body id).isWeak = false →
    (m.obj id).props.get? k = some pr → .object j ∈ Node.ofProperty pr → P j
  intrinsic : ∀ (r : RealmId) (realm : Realm) i id, m.realms[r]? = some realm →
    realm.isAlive = true → realm.intrinsic? i = some id → P id

namespace Spares

variable {P : Nat → Prop} {r : RealmId}

/-- New objects leave those alone that are there. -/
theorem of_grows (hsize : m.heap.size ≤ m'.heap.size)
    (hobj : ∀ id < m.heap.size, m'.obj id = m.obj id) (hrealms : m'.realms = m.realms)
    (hlimits : m'.limits = m.limits) : Spares (fun _ => True) m m' :=
  ⟨hsize, fun id _ hid _ => hobj id hid, hrealms, hlimits, fun _ _ _ _ _ => trivial,
    fun _ _ _ _ _ _ _ _ => trivial, fun _ _ _ _ _ _ _ => trivial⟩

theorem of_heap (hheap : m'.heap = m.heap) (hrealms : m'.realms = m.realms)
    (hlimits : m'.limits = m.limits) : Spares (fun _ => True) m m' := by
  refine of_grows (by rw [hheap]) (fun id _ => ?_) hrealms hlimits
  rw [Machine.obj, hheap, Machine.obj]

/-- Freeing leaves what is held alone. -/
theorem of_sheds {roots : List Node} (h : m.Sheds (fun id => m.Held roots (.object id)) m') :
    Spares (fun id => m.Held roots (.object id)) m m' where
  size := by rw [h.size]
  obj id hid _ hweak := (h.stays id hid).eq hweak
  realms := h.realms
  limits := h.limits
  proto _ _ hid hweak hproto := .object hid hweak (mem_refs_proto hproto)
  property _ _ _ _ hid hweak hget hj := .object hid hweak (mem_refs_property hget hj)
  intrinsic r realm i id hrealm halive hid := by
    have hr : r < m.realms.size := by
      by_contra hr
      rw [Array.getElem?_eq_none (Nat.le_of_not_lt hr)] at hrealm
      cases hrealm
    have hroot : m.Held roots (.realm r) := by
      refine .root (List.mem_append_right _ (List.mem_append_left _ ?_))
      refine List.mem_map_of_mem (List.mem_filter.2 ⟨List.mem_range.2 hr, ?_⟩)
      rw [hrealm]
      exact halive
    -- A realm that is alive refers to its intrinsic objects.
    refine .realm hroot hr ?_
    rw [refs, hrealm, Node.ofRealm]
    refine List.mem_cons_of_mem _ (List.mem_append_left _ (List.mem_append_left _ ?_))
    refine List.mem_flatMap.2 ⟨some id, ?_, List.mem_singleton_self _⟩
    have hjoin := Option.join_eq_some_iff.1 hid
    exact Array.mem_toList_iff.2 (Array.mem_of_getElem? hjoin)

variable (hs : Spares P m m')
include hs

theorem body_eq (hP : P id) (hid : id < m.heap.size) (hweak : (m.body id).isWeak = false) :
    m'.body id = m.body id := congrArg Obj.body (hs.obj id hP hid hweak)

theorem isPlain (hP : P id) (h : m.IsPlain id) : m'.IsPlain id := by
  refine ⟨h.1.trans_le hs.size, ?_⟩
  rw [hs.body_eq hP h.1 h.not_weak]
  exact h.2

/-- The prototypes of an object are the same, and of the kind. -/
theorem descends (hP : P id) (hid : id < m.heap.size) (hweak : (m.body id).isWeak = false)
    (h : m.Descends id ps) : m'.Descends id ps ∧ ∀ p ∈ ps, P p := by
  induction ps generalizing id with
  | nil =>
      refine ⟨?_, by simp⟩
      change (m'.obj id).proto = none
      rw [hs.obj id hP hid hweak]
      exact h
  | cons q qs ih =>
      have hq : P q := hs.proto id q hP hweak h.1
      rcases ih hq h.2.1.1 h.2.1.not_weak h.2.2 with ⟨hrest, hall⟩
      refine ⟨⟨?_, hs.isPlain hq h.2.1, hrest⟩, ?_⟩
      · rw [hs.obj id hP hid hweak]
        exact h.1
      · intro p hp
        rcases List.mem_cons.1 hp with rfl | hp
        · exact hq
        · exact hall p hp

omit hs in
theorem firstProperty_congr {ids : List Nat} (h : ∀ id ∈ ids, m'.obj id = m.obj id) :
    m'.firstProperty k ids = m.firstProperty k ids := by
  induction ids with
  | nil => rfl
  | cons id ids ih =>
      have hrest := ih fun j hj => h j (List.mem_cons_of_mem id hj)
      unfold Machine.firstProperty at hrest ⊢
      rw [List.findSome?_cons, List.findSome?_cons, hrest, h id List.mem_cons_self]

theorem firstProperty {ids : List Nat} (hP : ∀ id ∈ ids, P id) (h : ∀ id ∈ ids, m.IsPlain id) :
    m'.firstProperty k ids = m.firstProperty k ids :=
  firstProperty_congr fun id hid => hs.obj id (hP id hid) (h id hid).1 (h id hid).not_weak

/-- What the first property refers to is of the kind. -/
theorem of_firstProperty {ids : List Nat} (hP : ∀ id ∈ ids, P id) (h : ∀ id ∈ ids, m.IsPlain id)
    (hfirst : m.firstProperty k ids = some pr) (hj : .object j ∈ Node.ofProperty pr) : P j := by
  rcases List.exists_of_findSome?_eq_some hfirst with ⟨id, hid, hget⟩
  exact hs.property id k pr j (hP id hid) (h id hid).not_weak hget hj

theorem performs {run : NativeCall → Eval Value} (hP : P id) (h : m.Performs r run id) :
    m'.Performs r run id := by
  rcases h with ⟨ref, n, hbody, hsupply, hrun⟩
  have hid : id < m.heap.size := lt_of_body (by simp [hbody])
  refine ⟨ref, n, ?_, hsupply, hrun⟩
  rw [hs.body_eq hP hid (by simp [hbody, Body.isWeak]), hbody]

end Spares

/-! ## Built-in objects -/

variable {x : Cache} {proto : Intrinsic → Nat} {r : RealmId} {i : Intrinsic} {f g : Nat}

/-- A property that holds an object refers to it. -/
theorem mem_ofProperty_of_value (h : pr.value? = some (.object j)) :
    .object j ∈ Node.ofProperty pr := by
  rcases pr with ⟨content, e, c⟩
  cases content <;> simp_all [Property.value?, Node.ofProperty, Node.ofValue]

theorem mem_ofProperty_of_getter {s : Option Nat} (h : pr.content = .accessor (some j) s) :
    .object j ∈ Node.ofProperty pr := by
  simp [Node.ofProperty, h, Node.ofObject?]

/-- The value of the first property, if it holds one. -/
theorem exists_of_bind_value {o : Option Property} {v : Value} (h : o.bind Property.value? = some v) :
    ∃ pr, o = some pr ∧ pr.value? = some v := Option.bind_eq_some_iff.1 h

theorem Makes.spared {P : Nat → Prop} (h : m.Makes f p) (hs : Spares P m m') (hP : P f) :
    m'.Makes f p ∧ P p := by
  have hobj := hs.obj f hP h.plain.1 h.plain.not_weak
  refine ⟨⟨hs.isPlain hP h.plain, ?_, ?_, ?_⟩, ?_⟩
  · rcases h.native with ⟨ref, r, hbody⟩
    exact ⟨ref, r, by rw [body, hobj]; exact hbody⟩
  · rw [hobj]
    exact h.prototype
  · rcases h.judge with ⟨ps, g, r, hps, hfirst, hg⟩
    rcases exists_of_bind_value hfirst with ⟨pr, hpr, hvalue⟩
    rcases hs.descends hP h.plain.1 h.plain.not_weak hps with ⟨hps', hall⟩
    -- The function that judges is found on the way, so it is spared like what stands there.
    have hP' : ∀ id ∈ f :: ps, P id := by simpa using ⟨hP, hall⟩
    have hplain : ∀ id ∈ f :: ps, m.IsPlain id := by simpa using ⟨h.plain, hps.mem_plain⟩
    have hgP : P g := hs.of_firstProperty hP' hplain hpr (mem_ofProperty_of_value hvalue)
    refine ⟨ps, g, r, hps', ?_, hs.performs hgP hg⟩
    rw [hs.firstProperty hP' hplain]
    exact hfirst
  · rcases exists_of_bind_value h.prototype with ⟨pr, hpr, hvalue⟩
    exact hs.property f _ pr p hP h.plain.not_weak hpr (mem_ofProperty_of_value hvalue)

theorem Furnishes.spared {P : Nat → Prop} {run : NativeCall → Eval Value}
    (h : m.Furnishes x proto r i k run) (hs : Spares P m m') (hP : P (proto i)) :
    m'.Furnishes x proto r i k run := by
  rcases h.ancestors with ⟨ps, hps, halone, g, s, hfirst, hg⟩
  rcases Option.map_eq_some_iff.1 hfirst with ⟨pr, hpr, hcontent⟩
  rcases hs.descends hP h.plain.1 h.plain.not_weak hps with ⟨hps', hall⟩
  have hP' : ∀ id ∈ proto i :: ps, P id := by simpa using ⟨hP, hall⟩
  have hplain : ∀ id ∈ proto i :: ps, m.IsPlain id := by simpa using ⟨h.plain, hps.mem_plain⟩
  have hgP : P g := hs.of_firstProperty hP' hplain hpr (mem_ofProperty_of_getter hcontent)
  refine ⟨hs.isPlain hP h.plain, ps, hps', halone, g, s, ?_, hs.performs hgP hg⟩
  rw [hs.firstProperty hP' hplain]
  exact hfirst

theorem constructs_native {ref : NativeRef} (h : m.body f = .native ref r) :
    m.constructs (.object f) = ref.constructs := by
  rw [constructs, constructsIn, h]

/-- Built-in objects that are spared are as untouched as before. -/
theorem Untouched.spared {P : Nat → Prop} (h : m.Untouched x proto r) (hs : Spares P m m')
    (hP : ∀ f ∈ x.objects, P f) : m'.Untouched x proto r := by
  -- The constructors are held, and what they lead to is spared with them.
  have hmaker : ∀ {f i}, (.object f, i) ∈ x.makers → P f := by
    intro f i hf
    exact hP f (List.mem_filterMap.2 ⟨_, hf, rfl⟩)
  have hproto : ∀ {f i}, (.object f, i) ∈ x.makers → P (proto i) := fun hf =>
    ((h.makes _ _ hf).spared hs (hmaker hf)).2
  have helement : ∀ {f k}, x.elements k = .object f → (.object f, .elementPrototype k) ∈ x.makers := by
    intro f k hf
    rw [Cache.makers, ← hf]
    exact List.mem_append_right _ (List.mem_map_of_mem (ElementKind.mem_all k))
  rcases h.realm with ⟨realm, hrealm, halive, hbuffer, hrange⟩
  have hrangeP : P (proto .rangeErrorPrototype) := hs.intrinsic r realm _ _ hrealm halive hrange
  have hbufferP : P (proto .bufferPrototype) := hs.intrinsic r realm _ _ hrealm halive hbuffer
  refine ⟨⟨realm, by rw [hs.realms, hrealm], halive, hbuffer, hrange⟩, ?_, h.distinct, ?_, ?_, ?_⟩
  · intro f i hf
    exact ((h.makes f i hf).spared hs (hmaker hf)).1
  · exact ⟨h.buffers.1, h.buffers.2.1, h.buffers.2.2.spared hs hbufferP⟩
  · intro f k hf
    rcases h.elements f k hf with ⟨hperforms, hconstructs, hkey, hfurnishes⟩
    have hperforms' := hs.performs (hmaker (helement hf)) hperforms
    refine ⟨hperforms', ?_, hkey, hfurnishes.spared hs (hproto (helement hf))⟩
    rcases hperforms with ⟨ref, n, hbody, -⟩
    have hbody' : m'.body f = .native ref r := by
      rw [hs.body_eq (hmaker (helement hf)) (lt_of_body (by simp [hbody]))
        (by simp [hbody, Body.isWeak]), hbody]
    rw [constructs_native hbody', ← constructs_native hbody]
    exact hconstructs
  · rcases h.rangeErrors with ⟨hplain, ps, hps, hname⟩
    rcases hs.descends hrangeP hplain.1 hplain.not_weak hps with ⟨hps', hall⟩
    have hP' : ∀ id ∈ proto .rangeErrorPrototype :: ps, P id := by simpa using ⟨hrangeP, hall⟩
    refine ⟨hs.isPlain hrangeP hplain, ps, hps', ?_⟩
    rw [hs.firstProperty hP' (by simpa using ⟨hplain, hps.mem_plain⟩)]
    exact hname

end Machine

end ScriptHost
