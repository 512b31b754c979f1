import Mathlib.Data.List.Sort
import ScriptHost.Proofs.OrderedMaps
/-!
# Tables of properties are ordered maps

A table keeps indices apart from other keys.  It lists an ordered map from keys to properties all
the same: lookups, writes and erasures agree, and so do the keys if the indices are put in order
first.
-/

namespace ScriptHost

/-- Whether a key is an index. -/
def Key.isIndex : Key → Bool
  | index _ => true
  | _ => false

/-- Whether it is none. -/
def Key.noIndex (k : Key) : Bool := !k.isIndex

/-- The index that a key is. -/
def Key.index? : Key → Option Nat
  | index n => some n
  | _ => none

theorem Key.isIndex_iff {k : Key} : k.isIndex = true ↔ ∃ n, k = index n := by
  cases k <;> simp [isIndex]

theorem Key.index_eq_some {k : Key} {n : Nat} : k.index? = some n ↔ k = index n := by
  cases k <;> simp [index?]

namespace PropertyTable

open Key (noIndex)

variable {t : PropertyTable} {m : OrderedMap Key Property} {k : Key} {p : Property}

/-- A table that lists an ordered map. -/
structure Lists (t : PropertyTable) (m : OrderedMap Key Property) : Prop where
  nodup : (m.map Prod.fst).Nodup
  indices : ∀ n, t.indices.get? n = m.lookup (.index n)
  members : t.members.toList = m.filter fun e => e.1.noIndex

theorem lists_empty : ({} : PropertyTable).Lists [] :=
  ⟨List.nodup_nil, fun _ => Std.TreeMap.getElem?_emptyc, rfl⟩

/-! ## Indices -/

theorem put_index (t : PropertyTable) (n n' : Nat) (p : Property) :
    (t.put (.index n) p).indices.get? n' =
      if Key.index n' = Key.index n then some p else t.indices.get? n' := by
  have hinsert : (t.indices.insert n p)[n']? = if n = n' then some p else t.indices[n']? := by
    simp [Std.TreeMap.getElem?_insert]
  refine hinsert.trans ?_
  by_cases hn : n = n'
  · simp [hn]
  · have hne : Key.index n' ≠ Key.index n := fun h => hn (Key.index.inj h).symm
    rw [if_neg hn, if_neg hne]
    rfl

theorem erase_index (t : PropertyTable) (n n' : Nat) :
    (t.erase (.index n)).indices.get? n' =
      if Key.index n' = Key.index n then none else t.indices.get? n' := by
  have herase : (t.indices.erase n)[n']? = if n = n' then none else t.indices[n']? := by
    simp [Std.TreeMap.getElem?_erase]
  refine herase.trans ?_
  by_cases hn : n = n'
  · simp [hn]
  · have hne : Key.index n' ≠ Key.index n := fun h => hn (Key.index.inj h).symm
    rw [if_neg hn, if_neg hne]
    rfl

/-! ## Keys that are no indices -/

theorem get_member (t : PropertyTable) (hk : k.isIndex = false) :
    t.get? k = t.members.toList.lookup k := by
  have hget : t.get? k = (t.members.find? (·.1 == k)).map (·.2) := by
    cases k with
    | index _ => cases hk
    | _ => rfl
  rw [hget, ← Array.find?_toList]
  induction t.members.toList with
  | nil => rfl
  | cons e l ih =>
      obtain ⟨k', v⟩ := e
      rw [OrderedMap.lookup_cons, ← ih]
      by_cases he : k' = k
      · simp [he]
      · simp [he, Ne.symm he]

/-- Writing at the place of a key is replacing what is there under the key. -/
theorem set_findIdx {l : List (Key × Property)} (hl : (l.map Prod.fst).Nodup) {i : Nat}
    (hi : l.findIdx? (·.1 == k) = some i) :
    l.set i (k, p) = l.map fun e => if e.1 = k then (k, p) else e := by
  induction l generalizing i with
  | nil => cases hi
  | cons e l ih =>
      rw [List.findIdx?_cons] at hi
      rw [List.map_cons, List.nodup_cons] at hl
      by_cases he : e.1 = k
      · have hbeq : (e.1 == k) = true := by simpa using he
        rw [hbeq, if_pos rfl] at hi
        cases hi
        rw [List.set_cons_zero, List.map_cons, if_pos he]
        congr 1
        -- No other entry has this key.
        refine (List.map_id _).symm.trans (List.map_congr_left fun e' he' => ?_)
        have hne : e'.1 ≠ k := by
          rintro rfl
          exact hl.1 (he ▸ List.mem_map_of_mem he')
        rw [if_neg hne]
        rfl
      · have hbeq : (e.1 == k) = false := by simpa using he
        rw [hbeq, if_neg Bool.false_ne_true] at hi
        obtain ⟨j, hj, rfl⟩ := Option.map_eq_some_iff.1 hi
        rw [List.set_cons_succ, List.map_cons, if_neg he, ih hl.2 hj]

theorem put_of_name (hk : k.isIndex = false) :
    t.put k p = match t.members.findIdx? (·.1 == k) with
      | some i => { t with members := t.members.setIfInBounds i (k, p) }
      | none => { t with members := t.members.push (k, p) } := by
  cases k with
  | index _ => cases hk
  | _ => rfl

/-- Under a key that is no index a table is written as a map is. -/
theorem put_member (hk : k.isIndex = false) (hl : (t.members.toList.map Prod.fst).Nodup) :
    (t.put k p).indices = t.indices ∧
      (t.put k p).members.toList = OrderedMap.set t.members.toList k p := by
  obtain ⟨l, hlist⟩ : ∃ l, l = t.members.toList := ⟨_, rfl⟩
  have hfind : t.members.findIdx? (·.1 == k) = l.findIdx? (·.1 == k) := by
    rw [hlist, ← List.findIdx?_toArray]
  rw [put_of_name hk, hfind, ← hlist]
  rw [← hlist] at hl
  unfold OrderedMap.set
  -- The place of the key is found just if the map has something under it.
  cases hi : l.findIdx? (·.1 == k) with
  | some i =>
      have hold : (l.lookup k).isSome := by
        rw [List.lookup_isSome_iff]
        obtain ⟨hlt, hp, -⟩ := List.findIdx?_eq_some_iff_getElem.1 hi
        exact ⟨l[i], List.getElem_mem hlt, by simpa [BEq.comm] using hp⟩
      rw [if_pos hold, ← set_findIdx hl hi, hlist]
      exact ⟨rfl, Array.toList_setIfInBounds⟩
  | none =>
      have hnew : ¬(l.lookup k).isSome := by
        rw [List.lookup_isSome_iff]
        rintro ⟨e, he, hbeq⟩
        have hno := List.findIdx?_eq_none_iff.1 hi e he
        rw [BEq.comm, hbeq] at hno
        cases hno
      rw [if_neg hnew, hlist]
      exact ⟨rfl, Array.toList_push⟩

theorem erase_member (hk : k.isIndex = false) :
    (t.erase k).indices = t.indices ∧
      (t.erase k).members.toList = OrderedMap.erase t.members.toList k := by
  have herase : t.erase k = { t with members := t.members.filter (·.1 != k) } := by
    cases k with
    | index _ => cases hk
    | _ => rfl
  rw [herase]
  refine ⟨rfl, ?_⟩
  rw [Array.toList_filter]
  refine List.filter_congr fun e _ => ?_
  by_cases he : e.1 = k <;> simp [he]

/-! ## Tables and maps -/

namespace Lists

theorem nodup_members (h : t.Lists m) : (t.members.toList.map Prod.fst).Nodup := by
  rw [h.members]
  exact h.nodup.sublist (List.filter_sublist.map _)

/-- A lookup in the table is one in the map. -/
theorem get_eq (h : t.Lists m) (k : Key) : t.get? k = m.lookup k := by
  cases hk : k.isIndex with
  | true =>
      obtain ⟨n, rfl⟩ := Key.isIndex_iff.1 hk
      exact h.indices n
  | false =>
      rw [get_member t hk, h.members]
      exact OrderedMap.lookup_filter (p := noIndex) (by simp [noIndex, hk]) m

/-- So is a write. -/
theorem put (h : t.Lists m) (k : Key) (p : Property) : (t.put k p).Lists (m.set k p) := by
  cases hk : k.isIndex with
  | true =>
      obtain ⟨n, rfl⟩ := Key.isIndex_iff.1 hk
      -- An index changes the tree alone, any other key the members alone.
      refine ⟨OrderedMap.nodup_set h.nodup _ p, fun n' => ?_, ?_⟩
      · rw [OrderedMap.lookup_set, put_index, h.indices]
      · have hpart := OrderedMap.filter_set_of_not (p := noIndex) (a := .index n) rfl m p
        exact h.members.trans hpart.symm
  | false =>
      obtain ⟨hindices, hmembers⟩ := put_member (p := p) hk h.nodup_members
      refine ⟨OrderedMap.nodup_set h.nodup k p, fun n => ?_, ?_⟩
      · have hne : Key.index n ≠ k := by
          rintro rfl
          cases hk
        rw [OrderedMap.lookup_set, if_neg hne, hindices, h.indices]
      · rw [hmembers, h.members]
        have hpart := OrderedMap.filter_set (p := noIndex) (a := k) (by simp [noIndex, hk]) m p
        exact hpart.symm

/-- So is an erasure. -/
theorem erase (h : t.Lists m) (k : Key) : (t.erase k).Lists (m.erase k) := by
  have hpart : (m.erase k).filter (fun e => noIndex e.1) =
      OrderedMap.erase t.members.toList k := by
    rw [h.members]
    exact OrderedMap.filter_erase noIndex m k
  cases hk : k.isIndex with
  | true =>
      obtain ⟨n, rfl⟩ := Key.isIndex_iff.1 hk
      refine ⟨OrderedMap.nodup_erase h.nodup _, fun n' => ?_, ?_⟩
      · rw [OrderedMap.lookup_erase, erase_index, h.indices]
      · -- The members stay as they are, for none of them is an index.
        refine Eq.trans ?_ hpart.symm
        refine (List.filter_eq_self.2 fun e he => ?_).symm
        change e ∈ t.members.toList at he
        rw [h.members] at he
        have hno := (List.mem_filter.1 he).2
        rw [decide_eq_true_eq]
        intro heq
        rw [heq] at hno
        cases hno
  | false =>
      obtain ⟨hindices, hmembers⟩ := erase_member (t := t) hk
      refine ⟨OrderedMap.nodup_erase h.nodup k, fun n => ?_, hmembers.trans hpart.symm⟩
      have hne : Key.index n ≠ k := by
        rintro rfl
        cases hk
      rw [OrderedMap.lookup_erase, if_neg hne, hindices, h.indices]

/-- The indices of the table are those of the map, put in order. -/
theorem indices_keys (h : t.Lists m) :
    t.indices.keys = ((m.map Prod.fst).filterMap Key.index?).mergeSort := by
  have hmem : ∀ n, n ∈ t.indices.keys ↔ n ∈ (m.map Prod.fst).filterMap Key.index? := by
    intro n
    have hlookup : t.indices[n]? = m.lookup (.index n) := h.indices n
    rw [Std.TreeMap.mem_keys, Std.TreeMap.mem_iff_isSome_getElem?, hlookup,
      OrderedMap.isSome_lookup, List.mem_filterMap]
    constructor
    · exact fun hk => ⟨.index n, hk, rfl⟩
    · rintro ⟨k, hk, hindex⟩
      rwa [← Key.index_eq_some.1 hindex]
  have hnodup : ((m.map Prod.fst).filterMap Key.index?).Nodup := by
    refine h.nodup.filterMap fun k k' n hk hk' => ?_
    rw [Key.index_eq_some.1 hk, Key.index_eq_some.1 hk']
  have hperm : t.indices.keys.Perm ((m.map Prod.fst).filterMap Key.index?).mergeSort := by
    refine List.Perm.trans ?_ (List.mergeSort_perm _ _).symm
    exact (List.perm_ext_iff_of_nodup Std.TreeMap.nodup_keys hnodup).2 hmem
  -- Both lists are in order and have the same members, each once.
  have hordered : t.indices.keys.Pairwise (· ≤ ·) :=
    Std.TreeMap.ordered_keys.imp fun h => Nat.le_of_lt (Nat.compare_eq_lt.1 h)
  have hsorted := List.pairwise_mergeSort' (· ≤ ·) ((m.map Prod.fst).filterMap Key.index?)
  exact List.Perm.eq_of_pairwise (fun a b _ _ => Nat.le_antisymm) hordered hsorted hperm

/-- A key of the table is one of the map. -/
theorem mem_of_mem_keys (h : t.Lists m) (hk : k ∈ t.keys) : k ∈ m.map Prod.fst := by
  have hmembers : (t.members.toList.map (·.1)).Subset (m.map Prod.fst) := by
    rw [h.members]
    exact (List.filter_sublist.map _).subset
  unfold keys at hk
  rw [List.mem_append, List.mem_append, List.mem_map] at hk
  rcases hk with (⟨n, hn, rfl⟩ | hk) | hk
  · rw [h.indices_keys, List.mem_mergeSort, List.mem_filterMap] at hn
    obtain ⟨k, hk, hindex⟩ := hn
    rwa [← Key.index_eq_some.1 hindex]
  · exact hmembers (List.mem_filter.1 hk).1
  · exact hmembers (List.mem_filter.1 hk).1

/-- The keys of the table that are no symbols are those of the map: indices in order, then the
names, the oldest first. -/
theorem keys_eq (h : t.Lists m) :
    t.keys.filter (fun k => !k.isSymbol) =
      ((m.map Prod.fst).filterMap Key.index?).mergeSort.map .index ++
        (m.map Prod.fst).filter fun k => noIndex k && !k.isSymbol := by
  have hnames : (t.members.toList.map (·.1)).filter (fun k => !k.isSymbol) =
      (m.map Prod.fst).filter fun k => noIndex k && !k.isSymbol := by
    rw [h.members, List.filter_map, List.filter_map, List.filter_filter]
    congr 1
    exact List.filter_congr fun e _ => Bool.and_comm _ _
  -- Symbols are listed last, so leaving them out is leaving out the end of the list.
  have hsymbols : ((t.members.toList.map (·.1)).filter (·.isSymbol)).filter
      (fun k => !k.isSymbol) = [] := by
    simp [List.filter_filter]
  have hindices : (t.indices.keys.map Key.index).filter (fun k => !k.isSymbol) =
      t.indices.keys.map .index := by
    rw [List.filter_eq_self]
    intro k hk
    obtain ⟨n, -, rfl⟩ := List.mem_map.1 hk
    rfl
  unfold keys
  rw [List.filter_append, List.filter_append, hindices, hsymbols, List.append_nil,
    List.filter_filter, ← h.indices_keys, ← hnames]
  simp

end Lists

end PropertyTable

/-! ## What keys stand for -/

namespace Label

/-- The key for what a property is called. -/
def key : Label → Key
  | text t => .ofText t
  | symbol id => .symbol id

theorem ofKey_key (l : Label) : ofKey l.key = l := by
  cases l with
  | symbol id => rfl
  | text t =>
      change ofKey (Key.ofText t) = text t
      rcases Key.ofText_cases t with ⟨n, -, ht, hkey⟩ | ⟨-, hkey⟩
      · rw [hkey, ht]
        rfl
      · rw [hkey]
        rfl

theorem key_injective : Function.Injective key :=
  Function.LeftInverse.injective ofKey_key

theorem index_key (l : Label) : l.key.index? = l.text?.bind OrderedMap.decimal? := by
  cases l with
  | symbol id => rfl
  | text t =>
      change (Key.ofText t).index? = OrderedMap.decimal? t
      rw [OrderedMap.decimal_eq_index]
      rcases Key.ofText_cases t with ⟨n, hindex, -, hkey⟩ | ⟨hindex, hkey⟩
      · rw [hkey, hindex]
        rfl
      · rw [hkey, hindex]
        rfl

/-- The text of the key for a text. -/
theorem keyText_ofText (m : Machine) (t : Text) : m.keyText (Key.ofText t) = t := by
  rcases Key.ofText_cases t with ⟨n, -, ht, hkey⟩ | ⟨-, hkey⟩
  · rw [hkey]
    exact ht.symm
  · rw [hkey]
    rfl

theorem isSymbol_key (l : Label) : l.key.isSymbol = l.text?.isNone := by
  cases l with
  | symbol id => rfl
  | text t =>
      change (Key.ofText t).isSymbol = false
      rcases Key.ofText_cases t with ⟨n, -, -, hkey⟩ | ⟨-, hkey⟩
      · rw [hkey]
        rfl
      · rw [hkey]
        rfl

theorem noIndex_key (l : Label) : l.key.noIndex = l.key.index?.isNone := by
  cases l.key <;> rfl

end Label

namespace OrderedMap

/-- A map as a table of properties has it. -/
def properties (m : OrderedMap Label Value) : OrderedMap Key Property :=
  m.map (Prod.map Label.key .plain)

theorem keys_properties (m : OrderedMap Label Value) :
    m.properties.map Prod.fst = (m.map Prod.fst).map Label.key := by
  simp [properties]

theorem lookup_properties (m : OrderedMap Label Value) (l : Label) :
    m.properties.lookup l.key = (m.lookup l).map .plain :=
  lookup_rename Label.key_injective Property.plain m l

/-- What a table that has the properties of a map has with a label. -/
theorem get_properties {t : PropertyTable} {m : OrderedMap Label Value} (h : t.Lists m.properties)
    (l : Label) : t.get? l.key = (m.lookup l).map .plain := by
  rw [h.get_eq, lookup_properties]

/-- Under any key of the map there is an ordinary property. -/
theorem lookup_properties_of_mem {m : OrderedMap Label Value} {k : Key}
    (hk : k ∈ m.properties.map Prod.fst) : ∃ v, m.properties.lookup k = some (.plain v) := by
  rw [keys_properties] at hk
  obtain ⟨l, hl, rfl⟩ := List.mem_map.1 hk
  obtain ⟨v, hv⟩ := Option.isSome_iff_exists.1 (isSome_lookup.2 hl)
  exact ⟨v, by rw [lookup_properties, hv]; rfl⟩

/-- The keys of a table that are no symbols are those of the texts that the map lists. -/
theorem listing_eq {t : PropertyTable} {m : OrderedMap Label Value} (h : t.Lists m.properties) :
    t.keys.filter (fun k => !k.isSymbol) = m.listing.map Key.ofText := by
  have hindices : (m.properties.map Prod.fst).filterMap Key.index? =
      m.texts.filterMap decimal? := by
    rw [keys_properties, texts_eq, List.filterMap_map, List.filterMap_filterMap]
    exact List.filterMap_congr fun l _ => Label.index_key l
  have hnumbers : (m.texts.filterMap decimal?).mergeSort.map .index =
      ((m.texts.filterMap decimal?).mergeSort.map Key.natText).map Key.ofText := by
    rw [List.map_map]
    refine List.map_congr_left fun n hn => ?_
    obtain ⟨t, -, ht⟩ := List.mem_filterMap.1 (List.mem_mergeSort.1 hn)
    rw [Function.comp_apply, Key.ofText_natText (decimal_eq_some.1 ht).1]
  -- A name of the table is the text of a label, and one that writes no index.
  have hnames : ((m.properties.map Prod.fst).filter fun k => k.noIndex && !k.isSymbol) =
      (m.texts.filter fun t => (decimal? t).isNone).map Key.ofText := by
    rw [keys_properties, texts_eq]
    induction m.map Prod.fst with
    | nil => rfl
    | cons l ls ih =>
        rw [List.map_cons, List.filter_cons, Label.noIndex_key, Label.index_key, Label.isSymbol_key]
        cases l with
        | symbol id =>
            rw [List.filterMap_cons_none rfl]
            simpa [Label.text?] using ih
        | text t =>
            cases hdecimal : decimal? t with
            | none => simpa [Label.text?, Label.key, hdecimal] using ih
            | some n => simpa [Label.text?, hdecimal] using ih
  rw [h.keys_eq, hindices, hnumbers, hnames, ← List.map_append]
  rfl

end OrderedMap

end ScriptHost
