import ScriptHost.Proofs.PropertyRequests
import ScriptHost.Proofs.Rearranging
/-!
# Values that show documents

A value shows a document if its objects are arrays with the items and plain objects with the members,
and no object is among its own items or members.  The objects that may be among them are given as a
kind, which gets narrower on the way in.
-/

namespace ScriptHost

namespace Machine

variable {m m' : Machine} {k : Key} {start : Option Nat} {id j : Nat}

/-! ## Walks that find nothing -/

/-- However long a walk is, it comes to nothing. -/
theorem Without.findFrom (h : m.Without k start) (fuel : Nat) : m.findFrom k fuel start = .absent := by
  induction h generalizing fuel with
  | ended => cases fuel <;> rfl
  | next _ hproxy hown _ ih =>
      cases fuel with
      | zero => rfl
      | succ fuel => exact findFrom_succ_absent.2 ⟨⟨hproxy, hown⟩, .inr (ih fuel)⟩

/-- A walk comes to nothing elsewhere if each object that lacks the key does so there. -/
theorem Without.transfer (h : m.Without k start) (hsize : m.heap.size ≤ m'.heap.size)
    (hlacks : ∀ j < m.heap.size, m.Lacks k j → m'.Lacks k j ∧
      ((m'.obj j).proto = none ∨ (m'.obj j).proto = (m.obj j).proto)) : m'.Without k start := by
  induction h with
  | ended => exact .ended
  | next hid hproxy hown _ ih =>
      obtain ⟨⟨hproxy', hown'⟩, hproto⟩ := hlacks _ hid ⟨hproxy, hown⟩
      refine .next (hid.trans_le hsize) hproxy' hown' ?_
      rcases hproto with hnone | hsame
      · rw [hnone]
        exact .ended
      · rw [hsame]
        exact ih

/-- It does so when objects are freed. -/
theorem Without.sheds {P : Nat → Prop} (h : m.Without k start) (hs : m.Sheds P m') :
    m'.Without k start := by
  refine h.transfer hs.size.ge fun j _ hj => ?_
  obtain ⟨hlacks, hproto⟩ := hj.fades (hs.fades j)
  exact ⟨hlacks, hproto.imp id And.left⟩

/-! ## Machines with more objects -/

/-- A machine with more objects, where those of a kind are as they were. -/
structure Adds (P : Nat → Prop) (m m' : Machine) : Prop where
  size : m.heap.size ≤ m'.heap.size
  obj : ∀ j < m.heap.size, P j → m'.obj j = m.obj j
  realms : m'.realms = m.realms
  realm : m'.realm = m.realm
  limits : m'.limits = m.limits

namespace Adds

variable {P Q : Nat → Prop} {m'' : Machine}

theorem refl (m : Machine) : m.Adds P m := ⟨Nat.le_refl _, fun _ _ _ => rfl, rfl, rfl, rfl⟩

theorem trans (h : m.Adds P m') (h' : m'.Adds P m'') : m.Adds P m'' where
  size := h.size.trans h'.size
  obj j hj hP := (h'.obj j (hj.trans_le h.size) hP).trans (h.obj j hj hP)
  realms := h'.realms.trans h.realms
  realm := h'.realm.trans h.realm
  limits := h'.limits.trans h.limits

theorem mono (h : m.Adds P m') (hPQ : ∀ j < m.heap.size, Q j → P j) : m.Adds Q m' :=
  { h with obj := fun j hj hQ => h.obj j hj (hPQ j hj hQ) }

theorem intrinsic (h : m.Adds P m') (i : Intrinsic) : m'.intrinsic? i = m.intrinsic? i := by
  rw [intrinsic?, intrinsic?, currentRealm, currentRealm, h.realms, h.realm]

theorem withObj (m : Machine) (o : Obj) : m.Adds P (m.withObj o) where
  size := by simp [Machine.withObj]
  obj _ hj _ := obj_withObj_ne o (Nat.ne_of_lt hj)
  realms := rfl
  realm := rfl
  limits := rfl

/-- What is done to the properties of one object leaves the others alone. -/
theorem withProps (m : Machine) (id : Nat) (f : PropertyTable → PropertyTable) :
    m.Adds (· ≠ id) (m.withProps id f) where
  size := (size_withProps m id f).ge
  obj j _ hne := by rw [obj_withProps, if_neg fun h => hne h.1.symm]
  realms := rfl
  realm := rfl
  limits := rfl

theorem without (h : m.Adds (fun _ => True) m') (hw : m.Without k start) : m'.Without k start := by
  refine hw.transfer h.size fun j hj hlacks => ?_
  have hobj := h.obj j hj trivial
  exact ⟨hlacks.congr hobj, .inr (by rw [hobj])⟩

end Adds

/-! ## Items of arrays -/

/-- The properties that items are given one after the other, from an index on. -/
theorem foldl_items (vs : List Value) (n i : Nat) (t : Std.TreeMap Nat Property) :
    (vs.foldl (fun (st : Nat × Std.TreeMap Nat Property) v => (st.1 + 1, st.2.insert st.1 (.plain v)))
      (n, t)).2[i]? = if n ≤ i ∧ i < n + vs.length then (vs[i - n]?).map .plain else t[i]? := by
  induction vs generalizing n t with
  | nil =>
      rw [if_neg (by simp)]
      rfl
  | cons v vs ih =>
      rw [List.foldl_cons, ih, List.length_cons]
      change (if _ then _ else (t.insert n (.plain v))[i]?) = _
      rw [Std.TreeMap.getElem?_insert]
      by_cases hfirst : i = n
      · subst hfirst
        simp
      · by_cases hlater : n + 1 ≤ i ∧ i < n + 1 + vs.length
        · have hsub : i - n = (i - (n + 1)) + 1 := by omega
          rw [if_pos hlater, if_pos (by omega), hsub, List.getElem?_cons_succ]
        · have hne : ¬compare n i = .eq := by
            rw [Nat.compare_eq_eq]
            exact Ne.symm hfirst
          rw [if_neg hlater, if_neg hne, if_neg (by omega)]

theorem get_arrayProps (vs : List Value) {i : Nat} {v : Value} (hi : vs[i]? = some v) :
    (Eval.arrayProps vs.toArray).get? (.index i) = some (.plain v) := by
  have hlt : i < vs.length := (List.getElem?_eq_some_iff.1 hi).1
  have hfold := foldl_items vs 0 i {}
  rw [if_pos (by omega), Nat.sub_zero, hi] at hfold
  refine Eq.trans ?_ hfold
  unfold Eval.arrayProps
  rw [← Array.foldl_toList]
  rfl

/-! ## Showing -/

/-- A value shows a document by objects of a kind, which inherit from certain prototypes.  No object is
among the objects by which its items or members are shown. -/
inductive Shows (m : Machine) (W : Option Nat → Prop) : (Nat → Prop) → Value → Document → Prop
  | null {S : Nat → Prop} : Shows m W S .null .null
  | bool {S : Nat → Prop} (b : Bool) : Shows m W S (.bool b) (.bool b)
  | integer {S : Nat → Prop} {n : Int} (hn : n.natAbs ≤ 9007199254740992) :
      Shows m W S (.float (Binary.ofInt n)) (.integer n)
  | string {S : Nat → Prop} (s : String) : Shows m W S (.string (.ofString s)) (.string s)
  | array {S : Nat → Prop} {id : Nat} {rows : List (Value × Document)} (hid : id < m.heap.size)
      (hS : S id) (hproto : W (m.obj id).proto)
      (hobj : m.obj id = { body := .array, proto := (m.obj id).proto
                           props := Eval.arrayProps (rows.map Prod.fst).toArray })
      (hitems : ∀ r ∈ rows, Shows m W (fun j => S j ∧ j ≠ id) r.1 r.2) :
      Shows m W S (.object id) (.array (rows.map Prod.snd))
  | object {S : Nat → Prop} {id : Nat} {t : PropertyTable} {map : OrderedMap Label Value}
      {rows : List (String × Value × Document)} (hid : id < m.heap.size) (hS : S id)
      (hproto : W (m.obj id).proto) (hobj : m.obj id = { proto := (m.obj id).proto, props := t })
      (hlists : t.Lists map.properties) (hkeys : map.listing = rows.map fun r => .ofString r.1)
      (hvalues : ∀ r ∈ rows, map.lookup (.text (.ofString r.1)) = some r.2.1)
      (hmembers : ∀ r ∈ rows, Shows m W (fun j => S j ∧ j ≠ id) r.2.1 r.2.2) :
      Shows m W S (.object id) (.object (rows.map fun r => (r.1, r.2.2)))

namespace Shows

variable {W W' : Option Nat → Prop} {S S' : Nat → Prop} {v : Value} {d : Document}

/-- A document is shown elsewhere if the objects by which it is shown are there. -/
theorem transfer (h : m.Shows W S v d) (hsize : m.heap.size ≤ m'.heap.size)
    (hobj : ∀ j < m.heap.size, S j → m'.obj j = m.obj j) (hW : ∀ p, W p → W' p)
    (hS : ∀ j, S j → S' j) : m'.Shows W' S' v d := by
  induction h generalizing S' with
  | null => exact .null
  | bool b => exact .bool b
  | integer hn => exact .integer hn
  | string s => exact .string s
  | array hid hself hproto hshape _ ih =>
      have hsame := hobj _ hid hself
      refine .array (hid.trans_le hsize) (hS _ hself) ?_ ?_ fun r hr => ?_
      · rw [hsame]
        exact hW _ hproto
      · rw [hsame]
        exact hshape
      · exact ih r hr (fun j hj hin => hobj j hj hin.1) fun j hin => ⟨hS j hin.1, hin.2⟩
  | object hid hself hproto hshape hlists hkeys hvalues _ ih =>
      have hsame := hobj _ hid hself
      refine .object (hid.trans_le hsize) (hS _ hself) ?_ ?_ hlists hkeys hvalues fun r hr => ?_
      · rw [hsame]
        exact hW _ hproto
      · rw [hsame]
        exact hshape
      · exact ih r hr (fun j hj hin => hobj j hj hin.1) fun j hin => ⟨hS j hin.1, hin.2⟩

/-- A kind of objects may be wider. -/
theorem mono (h : m.Shows W S v d) (hW : ∀ p, W p → W' p) (hS : ∀ j, S j → S' j) :
    m.Shows W' S' v d := h.transfer (Nat.le_refl _) (fun _ _ _ => rfl) hW hS

theorem adds {P : Nat → Prop} (h : m.Shows W S v d) (ha : m.Adds P m') (hS : ∀ j, S j → P j) :
    m'.Shows W S v d :=
  h.transfer ha.size (fun j hj hin => ha.obj j hj (hS j hin)) (fun _ => id) fun _ => id

/-- What shows a document is no function. -/
theorem not_callable (h : m.Shows W S v d) : m.callable v = false := by
  cases h with
  | null | bool _ | integer _ | string _ => rfl
  | array _ _ _ hobj _ | object _ _ _ hobj _ _ _ _ =>
      change m.isCallable _ = false
      unfold isCallable body
      rw [hobj]

/-- The objects by which a document is shown are held with the object that shows it. -/
theorem held {roots : List Node} (h : m.Shows W S v d)
    (hv : ∀ id, v = .object id → m.Held roots (.object id)) :
    m.Shows W (fun j => S j ∧ m.Held roots (.object j) ∧ (m.body j).isWeak = false) v d := by
  induction h with
  | null => exact .null
  | bool b => exact .bool b
  | integer hn => exact .integer hn
  | string s => exact .string s
  | @array S id rows hid hself hproto hobj _ ih =>
      -- A plain object is not weak, so what holds it holds what its properties refer to.
      have hheld := hv id rfl
      have hweak : (m.body id).isWeak = false := by
        rw [body, hobj]
        rfl
      refine .array hid ⟨hself, hheld, hweak⟩ hproto hobj fun r hr => ?_
      refine (ih r hr fun j hj => ?_).mono (fun _ hp => hp) fun j h => ⟨⟨h.1.1, h.2⟩, h.1.2⟩
      obtain ⟨i, hi⟩ := List.mem_iff_getElem?.1 (List.mem_map_of_mem (f := Prod.fst) hr)
      rw [hj] at hi
      refine .object hheld hweak
        (mem_refs_property (k := .index i) (p := .plain (.object j)) ?_ (List.mem_singleton_self _))
      rw [hobj]
      exact get_arrayProps _ hi
  | @object S id t map rows hid hself hproto hobj hlists hkeys hvalues _ ih =>
      have hheld := hv id rfl
      have hweak : (m.body id).isWeak = false := by
        rw [body, hobj]
        rfl
      refine .object hid ⟨hself, hheld, hweak⟩ hproto hobj hlists hkeys hvalues fun r hr => ?_
      refine (ih r hr fun j hj => ?_).mono (fun _ hp => hp) fun j h => ⟨⟨h.1.1, h.2⟩, h.1.2⟩
      refine .object hheld hweak
        (mem_refs_property (k := (Label.text (.ofString r.1)).key) (p := .plain (.object j)) ?_
          (List.mem_singleton_self _))
      rw [hobj]
      change t.get? _ = _
      rw [OrderedMap.get_properties hlists, hvalues r hr, hj]
      rfl

/-- What the host holds goes on showing a document. -/
theorem sheds {roots : List Node} {k : Key} (h : m.Shows (m.Without k) S v d)
    (hv : ∀ id, v = .object id → m.Held roots (.object id))
    (hs : m.Sheds (fun id => m.Held roots (.object id)) m') : m'.Shows (m'.Without k) S v d := by
  have hspares : Spares _ m m' := .of_sheds hs
  exact (h.held hv).transfer hs.size.ge (fun j hj hin => hspares.obj j hin.2.1 hj hin.2.2)
    (fun _ hp => hp.sheds hs) fun _ hin => hin.1

end Shows

end Machine

end ScriptHost
