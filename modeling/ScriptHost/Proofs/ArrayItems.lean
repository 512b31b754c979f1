import ScriptHost.Client.FilledArrays
import ScriptHost.Proofs.Conversions
import ScriptHost.Proofs.SimpleObjects
/-!
# Items of an array

The table of an array holds its length and its items.  Where its prototypes have no items, reading,
writing, asking and deleting by index are what they are in a sparse array, and the length grows with
the largest index that is written.
-/

namespace ScriptHost

/-! ## Lengths -/

namespace Eval

/-- An integer that a number holds exactly is its integer part. -/
theorem integerPart_ofInt {n : Int} (hn : n.natAbs ≤ 2 ^ 53) :
    integerPart (Binary.ofInt n) = .ok n := by
  have htrunc := (Binary.ofInt_exact hn).1
  unfold Binary.trunc? at htrunc
  unfold integerPart
  cases hshape : Binary.shape (Binary.ofInt n) with
  | finite neg s q =>
      rw [hshape] at htrunc
      exact congrArg Except.ok (Option.some.inj htrunc)
  | nan | infinite neg =>
      rw [hshape] at htrunc
      cases htrunc

end Eval

theorem Value.number_ofNat (n : Nat) : (Value.ofNat n).number? = some (Binary.ofInt n) := by
  obtain hv | ⟨z, hv, hd⟩ := Value.ofInt_isNumber (n : Int)
  · rw [ofNat, hv]
    rfl
  · rw [ofNat, hv, hd]
    rfl

namespace PropertyTable

/-- The property that holds a length. -/
def lengthProperty (n : Nat) : Property := ⟨.data (Value.ofNat n) true, false, false⟩

/-- The table of an array. -/
def ofItems (t : Std.TreeMap Nat Property) (n : Nat) : PropertyTable :=
  { indices := t, members := #[(Key.str "length", lengthProperty n)] }

variable (t : Std.TreeMap Nat Property) (n : Nat)

theorem get_index_ofItems (i : Nat) : (ofItems t n).get? (.index i) = t[i]? := rfl

theorem get_length_ofItems : (ofItems t n).get? (Key.str "length") = some (lengthProperty n) := rfl

theorem get_other_ofItems {k : Key} (hindex : k.isIndex = false) (hk : k ≠ Key.str "length") :
    (ofItems t n).get? k = none := by
  rw [get_member _ hindex]
  exact (OrderedMap.lookup_cons _ _ _ _).trans (if_neg hk)

theorem put_index_ofItems (i : Nat) (p : Property) :
    (ofItems t n).put (.index i) p = ofItems (t.insert i p) n := rfl

theorem put_length_ofItems (n' : Nat) :
    (ofItems t n).put (Key.str "length") (lengthProperty n') = ofItems t n' := by
  have hfind : (ofItems t n).members.findIdx? (·.1 == Key.str "length") = some 0 := by
    simp [ofItems]
  rw [put_of_name rfl, hfind]
  rfl

theorem erase_index_ofItems (i : Nat) :
    (ofItems t n).erase (.index i) = ofItems (t.erase i) n := rfl

theorem keys_ofItems : (ofItems t n).keys = t.keys.map .index ++ [Key.str "length"] := by
  have hname : (Key.str "length").isSymbol = false := rfl
  simp [keys, ofItems, hname]

end PropertyTable

namespace Machine

variable {m m' m'' : Machine} {id f p i : Nat} {ps ids : List Nat} {r : RealmId} {k : Key}
  {t t' : PropertyTable}

/-! ## One object with another table -/

/-- The machine in which one object has another table and all others are as they were. -/
structure Retabled (m : Machine) (id : Nat) (t : PropertyTable) (m' : Machine) : Prop where
  obj : m'.obj id = { m.obj id with props := t }
  others : ∀ j ≠ id, m'.obj j = m.obj j
  size : m'.heap.size = m.heap.size
  limits : m'.limits = m.limits

theorem retabled_withProps (hid : id < m.heap.size) (g : PropertyTable → PropertyTable) :
    m.Retabled id (g (m.obj id).props) (m.withProps id g) where
  obj := by rw [obj_withProps, if_pos ⟨rfl, hid⟩]
  others j hj := by rw [obj_withProps, if_neg fun h => hj h.1.symm]
  size := size_withProps ..
  limits := rfl

theorem retabled_putAt (hid : id < m.heap.size) (k : Key) (pr : Property) :
    m.Retabled id ((m.obj id).props.put k pr) (m.putAt id k pr) :=
  retabled_withProps hid (·.put k pr)

theorem retabled_eraseAt (hid : id < m.heap.size) (k : Key) :
    m.Retabled id ((m.obj id).props.erase k) (m.eraseAt id k) :=
  retabled_withProps hid (·.erase k)

namespace Retabled

theorem trans (h : m.Retabled id t m') (h' : m'.Retabled id t' m'') : m.Retabled id t' m'' where
  obj := by rw [h'.obj, h.obj]
  others j hj := (h'.others j hj).trans (h.others j hj)
  size := h'.size.trans h.size
  limits := h'.limits.trans h.limits

variable (h : m.Retabled id t m')
include h

theorem body_eq (j : Nat) : m'.body j = m.body j := by
  by_cases hj : j = id
  · rw [body, hj, h.obj]
    rfl
  · rw [body, h.others j hj, body]

theorem proto_eq (j : Nat) : (m'.obj j).proto = (m.obj j).proto := by
  by_cases hj : j = id
  · rw [hj, h.obj]
  · rw [h.others j hj]

theorem isPlain {j : Nat} (hj : m.IsPlain j) : m'.IsPlain j := by
  unfold IsPlain
  rw [h.size, h.body_eq]
  exact hj

theorem descends {j : Nat} (hj : m.Descends j ids) : m'.Descends j ids := by
  induction ids generalizing j with
  | nil => exact (h.proto_eq j).trans hj
  | cons q qs ih => exact ⟨(h.proto_eq j).trans hj.1, h.isPlain hj.2.1, ih hj.2.2⟩

theorem performs {run : NativeCall → Eval Value} {j : Nat} (hj : m.Performs r run j) :
    m'.Performs r run j := by
  unfold Performs
  rw [h.body_eq]
  exact hj

/-- Where the tables have the same, all objects have the same. -/
theorem get_eq (hk : t.get? k = (m.obj id).props.get? k) (j : Nat) :
    (m'.obj j).props.get? k = (m.obj j).props.get? k := by
  by_cases hj : j = id
  · rw [hj, h.obj]
    exact hk
  · rw [h.others j hj]

/-- A constructor goes on judging if nothing is put where it looks. -/
theorem makes (hprototype : t.get? (Key.str "prototype") = (m.obj id).props.get? (Key.str "prototype"))
    (hjudge : t.get? (.symbol WellKnown.hasInstance) =
      (m.obj id).props.get? (.symbol WellKnown.hasInstance)) (hm : m.Makes f p) : m'.Makes f p where
  plain := h.isPlain hm.plain
  native := by
    obtain ⟨ref, r, hbody⟩ := hm.native
    exact ⟨ref, r, (h.body_eq f).trans hbody⟩
  prototype := by
    rw [h.get_eq hprototype]
    exact hm.prototype
  judge := by
    obtain ⟨qs, g, r, hqs, hfirst, hg⟩ := hm.judge
    refine ⟨qs, g, r, h.descends hqs, ?_, h.performs hg⟩
    unfold firstProperty at hfirst ⊢
    simp only [h.get_eq hjudge]
    exact hfirst

end Retabled

/-! ## Arrays -/

/-- No object is among its prototypes. -/
theorem Descends.not_mem (h : m.Descends id ps) : id ∉ ps := by
  intro hid
  obtain ⟨qs, hqs, hlength⟩ := h.of_mem hid
  rw [unique hqs h] at hlength
  exact Nat.lt_irrefl _ hlength

/-- An array with the items of a sparse one, which is told from other values by what it inherits
from, where there are no items. -/
structure Fills (m : Machine) (f p : Nat) (ps : List Nat) (id : Nat) (a : SparseArray Storable) :
    Prop where
  array : ∃ t : Std.TreeMap Nat Property,
    m.obj id = { body := .array, proto := some p, props := .ofItems t a.length } ∧
      ∀ i : Nat, t[i]? = (a.items[i]?).map (.plain ·.1)
  small : a.length ≤ 2 ^ 31
  makes : m.Makes f p
  inherits : m.Descends id (p :: ps)
  bare : ∀ j ∈ p :: ps, ∀ i, (m.obj j).props.get? (.index i) = none
  room : m.HasCallRoom

namespace Fills

variable {a : SparseArray Storable} (h : m.Fills f p ps id a)
include h

theorem body_eq : m.body id = .array := by
  obtain ⟨t, hobj, -⟩ := h.array
  rw [body, hobj]

theorem lt : id < m.heap.size := lt_of_body (by simp [h.body_eq])

theorem isPlain : m.IsPlain id := ⟨h.lt, by rw [h.body_eq]; rfl⟩

theorem get_item (i : Nat) :
    (m.obj id).props.get? (.index i) = (a.items[i]?).map (.plain ·.1) := by
  obtain ⟨t, hobj, ht⟩ := h.array
  rw [hobj]
  exact ht i

theorem get_length :
    (m.obj id).props.get? (Key.str "length") = some (PropertyTable.lengthProperty a.length) := by
  obtain ⟨t, hobj, -⟩ := h.array
  rw [hobj]
  rfl

/-- The array with another table of items. -/
theorem retabled {b : SparseArray Storable} {t : Std.TreeMap Nat Property}
    (hm : m.Retabled id (.ofItems t b.length) m')
    (ht : ∀ i : Nat, t[i]? = (b.items[i]?).map (.plain ·.1)) (hsmall : b.length ≤ 2 ^ 31) :
    m'.Fills f p ps id b := by
  obtain ⟨t₀, hobj, -⟩ := h.array
  refine ⟨⟨t, ?_, ht⟩, hsmall, ?_, hm.descends h.inherits, fun j hj i => ?_, ?_⟩
  · rw [hm.obj, hobj]
  · -- Neither the prototype nor the judge of a constructor is an item or a length.
    have hother : ∀ k : Key, k.isIndex = false → k ≠ Key.str "length" →
        (PropertyTable.ofItems t b.length).get? k = (m.obj id).props.get? k := by
      intro k hindex hk
      rw [hobj, PropertyTable.get_other_ofItems t _ hindex hk]
      exact (PropertyTable.get_other_ofItems t₀ _ hindex hk).symm
    exact hm.makes (hother _ rfl (by decide)) (hother _ rfl (by decide)) h.makes
  · have hne : j ≠ id := by
      rintro rfl
      exact h.inherits.not_mem hj
    rw [hm.others j hne]
    exact h.bare j hj i
  · unfold HasCallRoom
    rw [hm.limits]
    exact h.room

/-- The table with an item more, and the length that goes with it. -/
theorem put {v : Storable} (hi : (i : Int) ≤ maxIndex)
    (hm : ∀ t : Std.TreeMap Nat Property, (m.obj id).props = .ofItems t a.length →
      m.Retabled id (.ofItems (t.insert i (.plain v.1)) (max a.length (i + 1))) m') :
    m'.Fills f p ps id (a.set i v) := by
  obtain ⟨t, hobj, ht⟩ := h.array
  have hlimit : maxIndex = 2 ^ 31 - 1 := rfl
  have hsmall := h.small
  refine h.retabled (b := a.set i v) (hm t (by rw [hobj])) (fun j => ?_) ?_
  · have hitems : (a.set i v).items = a.items.insert i v := rfl
    rw [hitems, Std.TreeMap.getElem?_insert, Std.TreeMap.getElem?_insert, ht]
    split <;> rfl
  · exact Nat.max_le.2 ⟨hsmall, by omega⟩

/-- The table with an item less. -/
theorem erase
    (hm : ∀ t : Std.TreeMap Nat Property, (m.obj id).props = .ofItems t a.length →
      m.Retabled id (.ofItems (t.erase i) a.length) m') : m'.Fills f p ps id (a.erase i) := by
  obtain ⟨t, hobj, ht⟩ := h.array
  refine h.retabled (b := a.erase i) (hm t (by rw [hobj])) (fun j => ?_) h.small
  have hitems : (a.erase i).items = a.items.erase i := rfl
  rw [hitems, Std.TreeMap.getElem?_erase, Std.TreeMap.getElem?_erase, ht]
  split <;> rfl

/-- Where there is no item there is nothing to erase. -/
theorem erase_none (hi : a.items[i]? = none) : m.Fills f p ps id (a.erase i) := by
  obtain ⟨t, hobj, ht⟩ := h.array
  refine { h with array := ⟨t, hobj, fun j => ?_⟩ }
  have hitems : (a.erase i).items = a.items.erase i := rfl
  rw [hitems, Std.TreeMap.getElem?_erase, ht]
  split
  next hij => rw [← Nat.compare_eq_eq.1 hij, hi]
  next => rfl

/-- The indices of the items are those of the table. -/
theorem keys_eq : (m.obj id).props.keys = a.items.keys.map .index ++ [Key.str "length"] := by
  obtain ⟨t, hobj, ht⟩ := h.array
  have hkeys : t.keys = a.items.keys := by
    refine List.Pairwise.eq_of_mem_iff (r := (· < ·)) ?_ ?_ fun i => ?_
    · exact Std.TreeMap.ordered_keys.imp Nat.compare_eq_lt.1
    · exact Std.TreeMap.ordered_keys.imp Nat.compare_eq_lt.1
    · rw [Std.TreeMap.mem_keys, Std.TreeMap.mem_keys, Std.TreeMap.mem_iff_isSome_getElem?,
        Std.TreeMap.mem_iff_isSome_getElem?, ht, Option.isSome_map]
  rw [hobj]
  exact (PropertyTable.keys_ofItems t _).trans (by rw [hkeys])

/-- A walk for an item ends at the array or nowhere. -/
theorem find_item (i : Nat) : m.find (.index i) (some id) =
    (a.items[i]?).elim .absent fun v => .property id (.plain v.1) := by
  have hown := h.get_item i
  rcases find_cases h.inherits h.isPlain (.index i) with
    ⟨j, hj, pr, hfind, hget, -, -⟩ | ⟨hfind, hnone⟩
  · rcases List.mem_cons.1 hj with rfl | hj
    · rw [hown] at hget
      obtain ⟨v, hv, rfl⟩ := Option.map_eq_some_iff.1 hget
      rw [hfind, hv]
      rfl
    · rw [h.bare j hj i] at hget
      cases hget
  · rw [firstProperty, List.findSome?_cons, hown] at hnone
    cases hv : a.items[i]? with
    | none => exact hfind
    | some v =>
        rw [hv] at hnone
        cases hnone

end Fills

end Machine

namespace Eval

open Machine (Fills)

variable {I : Interp} {m : Machine} {f p id i : Nat} {ps : List Nat} {a : SparseArray Storable}
  {v : Storable}

/-! ## Reading -/

section Reading

variable (h : m.Fills f p ps id a)
include h

theorem getOf_item (i : Nat) :
    getOf (.object id) (.index i) I m = .ok ((a.items[i]?).elim .undefined (·.1)) m := by
  have hfind := h.find_item i
  cases hv : a.items[i]? with
  | some v =>
      rw [hv] at hfind
      exact getOf_value hfind rfl
  | none =>
      have hget : getOf (.object id) (.index i) =
          getRule (reading 999) id (.index i) (.object id) := rfl
      rw [hv] at hfind
      rw [hget, getRule, get_bind, hfind]
      rfl

theorem getOf_length :
    getOf (.object id) (Key.str "length") I m = .ok (Value.ofNat a.length) m := by
  have hfirst : m.firstProperty (Key.str "length") (id :: p :: ps) =
      some (PropertyTable.lengthProperty a.length) := by
    rw [Machine.firstProperty, List.findSome?_cons, h.get_length]
  obtain ⟨j, hfind⟩ := Machine.find_plain h.inherits h.isPlain hfirst
  exact getOf_value hfind rfl

theorem hasProperty_item (i : Nat) :
    hasProperty id (.index i) I m = .ok (a.items[i]?).isSome m := by
  have hfind := h.find_item i
  have hhas : hasProperty id (.index i) = hasRule (reading 999) id (.index i) := rfl
  rw [hhas, hasRule, get_bind, hfind]
  cases a.items[i]? <;> rfl

theorem ownProperty_array (k : Key) (hk : ((m.obj id).props.get? k).all fun p => p.value?.isSome) :
    ownProperty id k I m = .ok ((m.obj id).props.get? k) m := by
  have hown : ownProperty id k = ownRule (reading 999) id k := rfl
  rw [hown, ownRule, bind_of_ok (body_eq id), h.body_eq]
  dsimp only
  rw [ownPlain, get_bind, h.isPlain.own_eq]
  cases hp : (m.obj id).props.get? k with
  | none => rfl
  | some pr =>
      rw [hp] at hk
      obtain ⟨w, hw⟩ := Option.isSome_iff_exists.1 hk
      exact bind_of_ok (settleOwn_value hw)

theorem ownProperty_item (i : Nat) :
    ownProperty id (.index i) I m = .ok ((a.items[i]?).map (.plain ·.1)) m := by
  have hget := h.get_item i
  rw [ownProperty_array h, hget]
  rw [hget]
  cases a.items[i]? <;> rfl

theorem hasOwn_item (i : Nat) : hasOwn id (.index i) I m = .ok (a.items[i]?).isSome m := by
  rw [hasOwn, bind_of_ok (ownProperty_item h i)]
  cases a.items[i]? <;> rfl

end Reading

/-! ## Writing -/

theorem replaceValue_item (h : m.Fills f p ps id a) (pr : Property) (v : Value) :
    replaceValue id (.index i) pr v I m =
      .ok .done (m.putAt id (.index i) { pr with content := .data v true }) := by
  rw [replaceValue, bind_of_ok (body_eq id), h.body_eq]
  dsimp only
  rw [bind_of_ok (writeShared_simple h.isPlain)]
  rfl

theorem arrayLength_of {pr : Property} {v : Value} {d : Float} {n : Nat}
    (hget : (m.obj id).props.get? (Key.str "length") = some pr) (hv : pr.value? = some v)
    (hd : v.number? = some d) (hn : integerPart d = .ok n) : arrayLength m id = n := by
  unfold arrayLength
  rw [hget, Option.bind_some, hv]
  dsimp only
  rw [hd, Option.getD_some, hn]
  exact Int.toNat_natCast n

theorem arrayLength_eq (h : m.Fills f p ps id a) : arrayLength m id = a.length := by
  refine arrayLength_of h.get_length rfl (Value.number_ofNat _) (integerPart_ofInt ?_)
  rw [Int.natAbs_natCast]
  exact h.small.trans (Nat.pow_le_pow_right (by decide) (by decide))

/-- An item that is added moves the length to where it is beyond the item. -/
theorem addProperty_item (h : m.Fills f p ps id a) (pr : Property) :
    addProperty id (.index i) pr I m = .ok .done
      (if a.length ≤ i then
        (m.putAt id (Key.str "length") (PropertyTable.lengthProperty (i + 1))).putAt id (.index i) pr
      else m.putAt id (.index i) pr) := by
  have hextensible : (m.obj id).extensible = true := by
    obtain ⟨t, hobj, -⟩ := h.array
    rw [hobj]
  have hwritable : lengthWritable m id = true := by
    unfold lengthWritable
    rw [h.get_length]
    rfl
  rw [addProperty, get_bind, hextensible, Bool.not_true, if_neg Bool.false_ne_true, h.body_eq]
  dsimp only
  rw [arrayLength_eq h]
  by_cases hi : a.length ≤ i
  · rw [if_pos hi, if_pos hi, hwritable]
    rfl
  · rw [if_neg hi, if_neg hi]
    rfl

/-- Writing puts the item into the array, whether there was one or not. -/
theorem setProp_item (h : m.Fills f p ps id a) (hi : (i : Int) ≤ maxIndex) (v : Storable) :
    ∃ m', setProp id (.index i) v.1 I m = .ok () m' ∧ m'.Fills f p ps id (a.set i v) := by
  have hfind := h.find_item i
  have hset : setProp id (.index i) v.1 =
      setRule (writing 999) id (.index i) v.1 (.object id) >>= orThrow := rfl
  have hput : ∀ {m' : Machine}, m.Retabled id ((m.obj id).props.put (.index i) (.plain v.1)) m' →
      i < a.length → m'.Fills f p ps id (a.set i v) := by
    intro m' hm hlt
    refine h.put hi fun t ht => ?_
    rwa [ht, PropertyTable.put_index_ofItems, ← Nat.max_eq_left (Nat.succ_le_of_lt hlt)] at hm
  cases hv : a.items[i]? with
  | some old =>
      have hmem : i ∈ a.items := by
        rw [Std.TreeMap.mem_iff_isSome_getElem?, hv]
        rfl
      have hsettle : settleOwn id (.index i) (.plain old.1) I m = .ok (.plain old.1) m := rfl
      rw [hv] at hfind
      have hrule : setRule (writing 999) id (.index i) v.1 (.object id) I m =
          .ok .done (m.putAt id (.index i) (.plain v.1)) := by
        rw [setRule_found h.isPlain hfind hsettle, if_pos rfl, if_pos rfl]
        exact replaceValue_item h _ _
      refine ⟨_, ?_, hput (Machine.retabled_putAt h.lt _ _) (a.within i hmem)⟩
      rw [hset, bind_of_ok hrule]
      rfl
  | none =>
      rw [hv] at hfind
      have hadd : addValue (writing 999) (.object id) (.index i) v.1 I m =
          addProperty id (.index i) (.plain v.1) I m := by
        rw [addValue, bind_of_ok (body_eq id), h.body_eq]
      have hrule := (setRule_absent (w := writing 999) (v := v.1) h.isPlain hfind).trans
        (hadd.trans (addProperty_item h (.plain v.1)))
      rw [hset, bind_of_ok hrule]
      refine ⟨_, rfl, ?_⟩
      split
      next hbeyond =>
        -- First the length is moved, then the item is put.
        refine h.put hi fun t ht => ?_
        have hlength := Machine.retabled_putAt h.lt (Key.str "length")
          (PropertyTable.lengthProperty (i + 1))
        have hboth := hlength.trans
          (Machine.retabled_putAt (hlength.size ▸ h.lt) (.index i) (.plain v.1))
        rw [hlength.obj, ht, PropertyTable.put_length_ofItems,
          PropertyTable.put_index_ofItems] at hboth
        rwa [Nat.max_eq_right (Nat.le_succ_of_le hbeyond)]
      next hwithin => exact hput (Machine.retabled_putAt h.lt _ _) (Nat.lt_of_not_le hwithin)

theorem delete_item (h : m.Fills f p ps id a) (hv : a.items[i]? = some v) :
    ∃ m', delete id (.index i) I m = .ok .done m' ∧ m'.Fills f p ps id (a.erase i) := by
  have hget : (m.obj id).props.get? (.index i) = some (.plain v.1) := by
    rw [h.get_item, hv]
    rfl
  refine ⟨_, (delete_simple h.isPlain hget).trans (if_pos rfl), h.erase fun t ht => ?_⟩
  have herase := Machine.retabled_eraseAt h.lt (.index i)
  rwa [ht, PropertyTable.erase_index_ofItems] at herase

/-! ## Enumerating -/

theorem keysOf_array (h : m.Fills f p ps id a) :
    keysOf id I m = .ok (m.obj id).props.keys m := by
  have hkeys : keysOf id = keysRule (writing 999) id := rfl
  have hown : m.ownKeys id = (m.obj id).props.keys := by
    obtain ⟨t, hobj, -⟩ := h.array
    unfold Machine.ownKeys
    rw [hobj]
  rw [hkeys, keysRule, bind_of_ok (body_eq id), h.body_eq]
  dsimp only
  rw [get_bind, hown, List.filter_eq_self.2 fun _ _ => rfl]
  rfl

/-- The keys that are chosen are the indices of the items: the length is not enumerable. -/
theorem selectKeys_items (h : m.Fills f p ps id a) :
    selectKeys id true false false true I m = .ok (a.items.keys.map .index) m := by
  rw [selectKeys, bind_of_ok (keysOf_array h), get_bind]
  refine (filterM_of_ok (q := Key.isIndex) fun k hk => ?_).trans
    (congrArg (EStateM.Result.ok · m) ?_)
  · have hk := (List.mem_filter.1 hk).1
    rw [h.keys_eq, List.mem_append, List.mem_map, List.mem_singleton] at hk
    rcases hk with ⟨i, hi, rfl⟩ | rfl
    · rw [Std.TreeMap.mem_keys, Std.TreeMap.mem_iff_isSome_getElem?] at hi
      obtain ⟨v, hv⟩ := Option.isSome_iff_exists.1 hi
      rw [bind_of_ok (ownProperty_item h i), hv]
      rfl
    · have hlength := ownProperty_array (I := I) h (Key.str "length") (by rw [h.get_length]; rfl)
      rw [bind_of_ok hlength, h.get_length]
      rfl
  · have hname : (Key.str "length").isIndex = false := rfl
    rw [h.keys_eq, List.filter_filter, List.filter_append, List.filter_singleton, hname,
      List.filter_eq_self.2 fun k hk => ?_]
    · exact List.append_nil _
    · obtain ⟨i, -, rfl⟩ := List.mem_map.1 hk
      rfl

end Eval

end ScriptHost
