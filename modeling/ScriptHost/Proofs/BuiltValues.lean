import Mathlib.Data.List.Perm.Basic
import ScriptHost.Proofs.ScriptReading
import ScriptHost.Proofs.ShownDocuments
/-!
# Values that are built from documents

What a document is read as is built of objects that were not there before.  It shows the document up
to the order of members, and leaves all else as it was.
-/

namespace ScriptHost

open Machine (Adds Shows)

/-! ## Documents in part -/

namespace Document

/-- An array is rearranged item by item. -/
theorem rearranges_array {ds es : List Document} (h : List.Forall₂ Rearranges ds es) :
    Rearranges (array ds) (array es) := by
  obtain ⟨hlength, hzip⟩ := List.forall₂_iff_zip.1 h
  have hpairs : Rearranges (array ((ds.zip es).map Prod.fst)) (array ((ds.zip es).map Prod.snd)) :=
    .array fun p hp => hzip hp
  rwa [List.map_fst_zip hlength.le, List.map_snd_zip hlength.ge] at hpairs

/-- An object is rearranged member by member, in any order. -/
theorem rearranges_object {ms ns members : List (String × Document)}
    (h : List.Forall₂ (fun m n => m.1 = n.1 ∧ Rearranges m.2 n.2) ms ns) (horder : members.Perm ns) :
    Rearranges (object ms) (object members) := by
  obtain ⟨hlength, hzip⟩ := List.forall₂_iff_zip.1 h
  have hfirst : ((ms.zip ns).map fun p => (p.1.1, p.1.2, p.2.2)).map (fun p => (p.1, p.2.1)) = ms := by
    rw [List.map_map]
    exact List.map_fst_zip hlength.le
  have hsecond : ((ms.zip ns).map fun p => (p.1.1, p.1.2, p.2.2)).map (fun p => (p.1, p.2.2)) = ns := by
    rw [List.map_map]
    refine Eq.trans (List.map_congr_left fun p hp => ?_) (List.map_snd_zip hlength.ge)
    exact Prod.ext (hzip hp).1 rfl
  have hpairs : Rearranges
      (object (((ms.zip ns).map fun p => (p.1.1, p.1.2, p.2.2)).map fun p => (p.1, p.2.1)))
      (object members) := by
    refine .object (fun p hp => ?_) (hsecond.symm ▸ horder)
    obtain ⟨q, hq, rfl⟩ := List.mem_map.1 hp
    exact (hzip hq).2
  rwa [hfirst] at hpairs

end Document

namespace Builtin

open Eval (bind_of_ok)

variable {I : Interp} {W : Option Nat → Prop} {m m' : Machine} {v : Value} {d : Document}

/-- The objects that a machine has and another has not. -/
def between (m m' : Machine) (j : Nat) : Prop := m.heap.size ≤ j ∧ j < m'.heap.size

/-- New objects and arrays of a machine inherit from certain prototypes. -/
def Inherits (W : Option Nat → Prop) (m : Machine) : Prop :=
  W (m.intrinsic? .objectPrototype) ∧ W (m.intrinsic? .arrayPrototype)

theorem Inherits.adds {P : Nat → Prop} (h : Inherits W m) (ha : m.Adds P m') : Inherits W m' := by
  refine ⟨?_, ?_⟩
  · rw [ha.intrinsic]
    exact h.1
  · rw [ha.intrinsic]
    exact h.2

/-- A value shows a document, up to the order of members, by objects that came later than a machine. -/
def Renders (W : Option Nat → Prop) (m m' : Machine) (d : Document) (v : Value) (e : Document) :
    Prop :=
  d.Rearranges e ∧ m'.Shows W (between m m') v e

/-- It still does so when there are more objects. -/
theorem Renders.adds {P : Nat → Prop} {m₀ m'' : Machine} {e : Document} (h : Renders W m m' d v e)
    (ha : m'.Adds P m'') (hP : ∀ j, between m m' j → P j) (hless : m₀.heap.size ≤ m.heap.size) :
    Renders W m₀ m'' d v e :=
  ⟨h.1, (h.2.adds ha hP).mono (fun _ hp => hp) fun _ hj =>
    ⟨hless.trans hj.1, hj.2.trans_le ha.size⟩⟩

/-- A document is built on every machine whose objects and arrays inherit from certain prototypes. -/
def Builds (I : Interp) (W : Option Nat → Prop) (d : Document) : Prop :=
  ∀ m, Inherits W m → ∃ v e m', ofJson d.scripted I m = .ok v m' ∧ m.Adds (fun _ => True) m' ∧
    Renders W m m' d v e

/-- Items are built one after the other. -/
theorem ofItems_eq {ds : List Document} (h : ∀ d ∈ ds, Builds I W d) (out : Array Value)
    (hm : Inherits W m) :
    ∃ (rows : List (Value × Document)) (m' : Machine),
      ofItems (Document.scriptedItems ds) out I m = .ok (out ++ (rows.map Prod.fst).toArray) m' ∧
        m.Adds (fun _ => True) m' ∧
        List.Forall₂ (fun d r => Renders W m m' d r.1 r.2) ds rows := by
  induction ds generalizing m out with
  | nil =>
      refine ⟨[], m, ?_, .refl m, .nil⟩
      rw [Document.scriptedItems, ofItems]
      simp only [List.map_nil, Array.append_empty]
      rfl
  | cons d ds ih =>
      obtain ⟨v, e, m₁, hbuilt, hadds, hrenders⟩ := h d List.mem_cons_self m hm
      obtain ⟨rows, m', hrest, hadds', hrows⟩ :=
        ih (fun d hd => h d (List.mem_cons_of_mem _ hd)) (out.push v) (hm.adds hadds)
      refine ⟨(v, e) :: rows, m', ?_, hadds.trans hadds', .cons ?_ ?_⟩
      · rw [Document.scriptedItems, ofItems, bind_of_ok hbuilt, hrest]
        simp
      · exact hrenders.adds hadds' (fun _ _ => trivial) (Nat.le_refl _)
      · exact hrows.imp fun _ _ hr => hr.adds (.refl m') (fun _ _ => trivial) hadds.size

/-- What holds of every pair holds of the second list. -/
theorem forall_right {α β : Type} {p : β → Prop} {l : List α} {rows : List β}
    (h : List.Forall₂ (fun _ r => p r) l rows) : ∀ r ∈ rows, p r := by
  induction h with
  | nil => exact fun _ hr => absurd hr List.not_mem_nil
  | cons hr _ ih => exact List.forall_mem_cons.2 ⟨hr, ih⟩

/-- A new array shows the items. -/
theorem builds_array {ds : List Document} (h : ∀ d ∈ ds, Builds I W d) :
    Builds I W (.array ds) := by
  intro m hm
  obtain ⟨rows, m₁, hitems, hadds, hrows⟩ := ofItems_eq h #[] hm
  have hproto : m₁.intrinsic? .arrayPrototype = m.intrinsic? .arrayPrototype := hadds.intrinsic _
  -- The items are made first, and the array that lists them is the last object.
  let o : Obj := { body := .array, proto := m₁.intrinsic? .arrayPrototype
                   props := Eval.arrayProps (rows.map Prod.fst).toArray }
  have hadds' : m₁.Adds (fun _ => True) (m₁.withObj o) := .withObj m₁ o
  have hsize : (m₁.withObj o).heap.size = m₁.heap.size + 1 := Array.size_push _
  have hobj : (m₁.withObj o).obj m₁.heap.size = o := Machine.obj_withObj o
  refine ⟨.object m₁.heap.size, .array (rows.map Prod.snd), m₁.withObj o, ?_, hadds.trans hadds', ?_,
    ?_⟩
  · rw [Document.scripted, ofJson, bind_of_ok hitems, Array.empty_append]
    rfl
  · refine Document.rearranges_array (List.forall₂_map_right_iff.2 ?_)
    exact hrows.imp fun _ _ hr => hr.1
  · refine .array ?_ ⟨hadds.size, ?_⟩ ?_ ?_ fun r hr => ?_
    · omega
    · omega
    · rw [hobj]
      change W (m₁.intrinsic? .arrayPrototype)
      rw [hproto]
      exact hm.2
    · rw [hobj]
    · -- The items were there before the array.
      have hshows := forall_right (hrows.imp fun _ _ hr => hr.2) r hr
      refine (hshows.adds hadds' fun _ _ => trivial).mono (fun _ hp => hp) fun j hj => ⟨⟨hj.1, ?_⟩, ?_⟩
      · have := hj.2
        omega
      · exact Nat.ne_of_lt hj.2

/-! ## Members -/

open OrderedMap (properties)

/-- The map with members after those that it has. -/
def extended (map : OrderedMap Label Value) (rows : List (String × Value × Document)) :
    OrderedMap Label Value :=
  map ++ rows.map fun r => (.text (.ofString r.1), r.2.1)

theorem set_new {map : OrderedMap Label Value} {k : Label} (hk : k ∉ map.map Prod.fst) (v : Value) :
    map.set k v = map ++ [(k, v)] := by
  have hnone : ¬(map.lookup k).isSome := fun h => hk (OrderedMap.isSome_lookup.1 h)
  unfold OrderedMap.set
  rw [if_neg hnone]

/-- Members are put on an object after those that it has. -/
theorem putMembers_eq {ms : List (String × Document)} (h : ∀ e ∈ ms, Builds I W e.2) {id : Nat}
    {p : Option Nat} {t : PropertyTable} (map : OrderedMap Label Value) (hm : Inherits W m)
    (hid : id < m.heap.size) (hobj : m.obj id = { proto := p, props := t })
    (hlists : t.Lists map.properties)
    (hkeys : (map.map Prod.fst ++ ms.map fun e => Label.text (.ofString e.1)).Nodup) :
    ∃ rows m' t', putMembers id (Document.scriptedMembers ms) I m = .ok () m' ∧ m.Adds (· ≠ id) m' ∧
      m'.obj id = { proto := p, props := t' } ∧ t'.Lists (extended map rows).properties ∧
      List.Forall₂ (fun e r => e.1 = r.1 ∧ Renders W m m' e.2 r.2.1 r.2.2) ms rows := by
  induction ms generalizing m t map with
  | nil =>
      refine ⟨[], m, t, ?_, .refl m, hobj, ?_, .nil⟩
      · rw [Document.scriptedMembers, putMembers]
        rfl
      · rwa [extended, List.map_nil, List.append_nil]
  | cons e ms ih =>
      obtain ⟨k, d⟩ := e
      obtain ⟨v, e, m₁, hbuilt, hadds, hrenders⟩ := h (k, d) List.mem_cons_self m hm
      have hobj₁ : m₁.obj id = { proto := p, props := t } := (hadds.obj id hid trivial).trans hobj
      -- The member is put on the object when its value is there.
      have hnew : Label.text (.ofString k) ∉ map.map Prod.fst := by
        intro hmem
        exact List.disjoint_of_nodup_append hkeys hmem List.mem_cons_self
      have hput := hlists.put (Label.text (.ofString k)).key (.plain v)
      rw [properties, ← OrderedMap.rename_set Label.key_injective, set_new hnew] at hput
      have hadds₂ : m₁.Adds (· ≠ id) (m₁.putAt id (Label.text (.ofString k)).key (.plain v)) :=
        .withProps ..
      generalize hm₂ : m₁.putAt id (Label.text (.ofString k)).key (.plain v) = m₂ at hadds₂
      have hadds' : m.Adds (· ≠ id) m₂ := (hadds.mono fun _ _ _ => trivial).trans hadds₂
      have hobj₂ : m₂.obj id =
          { proto := p, props := t.put (Label.text (.ofString k)).key (.plain v) } := by
        rw [← hm₂, Machine.obj_withProps, if_pos ⟨rfl, hid.trans_le hadds.size⟩, hobj₁]
      have hkeys' : ((map ++ [(Label.text (.ofString k), v)]).map Prod.fst ++
          ms.map fun e => Label.text (.ofString e.1)).Nodup := by
        rw [List.map_append, List.append_assoc]
        exact hkeys
      obtain ⟨rows, m', t', hrest, hadds₃, hobj', hlists', hrows⟩ :=
        ih (fun e he => h e (List.mem_cons_of_mem _ he)) _ (hm.adds hadds')
          (hid.trans_le hadds'.size) hobj₂ hput hkeys'
      refine ⟨(k, v, e) :: rows, m', t', ?_, hadds'.trans hadds₃, hobj', ?_, .cons ⟨rfl, ?_⟩ ?_⟩
      · have hstep : Eval.put id (Key.ofText (.ofString k)) v I m₁ = .ok () m₂ := by
          rw [← hm₂]
          rfl
        rw [Document.scriptedMembers, putMembers, bind_of_ok hbuilt, bind_of_ok hstep, hrest]
      · rw [extended, List.append_assoc] at hlists'
        exact hlists'
      · -- The object is not among those that were made for the member.
        have hother : ∀ j, between m m₁ j → j ≠ id := fun j hj hne => by
          have := hj.1
          omega
        have hrenders₂ := hrenders.adds hadds₂ hother (Nat.le_refl _)
        refine hrenders₂.adds hadds₃ (fun j hj => ?_) (Nat.le_refl _)
        have := hj.1
        omega
      · exact hrows.imp fun _ _ hr =>
          ⟨hr.1, hr.2.adds (.refl m') (fun _ _ => trivial) hadds'.size⟩

/-- A list whose values are in another order can be put in that order. -/
theorem exists_ordered {α β : Type} {f : α → β} {rows : List α} {ks : List β}
    (h : ks.Perm (rows.map f)) : ∃ entries : List α, entries.Perm rows ∧ entries.map f = ks := by
  have hvalues : List.Forall₂ (fun k r => k = f r) (rows.map f) rows :=
    List.forall₂_map_left_iff.2 (List.forall₂_same.2 fun _ _ => rfl)
  obtain ⟨entries, hks, hperm⟩ := List.perm_comp_forall₂ h hvalues
  refine ⟨entries, hperm, ?_⟩
  have hmap : List.Forall₂ Eq ks (entries.map f) := List.forall₂_map_right_iff.2 hks
  rw [List.forall₂_eq_eq_eq] at hmap
  exact hmap.symm

/-- What is under a key that comes once. -/
theorem lookup_of_mem {map : OrderedMap Label Value} (hmap : (map.map Prod.fst).Nodup) {k : Label}
    (hk : (k, v) ∈ map) : map.lookup k = some v := by
  induction map with
  | nil => exact absurd hk List.not_mem_nil
  | cons e map ih =>
      obtain ⟨k', v'⟩ := e
      obtain ⟨hnew, hmap⟩ := List.nodup_cons.1 hmap
      rw [OrderedMap.lookup_cons]
      rcases List.mem_cons.1 hk with heq | hlater
      · cases heq
        exact if_pos rfl
      · have hne : k ≠ k' := by
          rintro rfl
          have hmem := List.mem_map_of_mem (f := Prod.fst) hlater
          exact hnew hmem
        rw [if_neg hne]
        exact ih hmap hlater

theorem ofString_injective : Function.Injective Text.ofString :=
  Function.LeftInverse.injective Text.toHostString_ofString

/-- A new object shows the members, in the order in which it lists them. -/
theorem builds_object {ms : List (String × Document)} (hkeys : (ms.map Prod.fst).Nodup)
    (h : ∀ e ∈ ms, Builds I W e.2) : Builds I W (.object ms) := by
  intro m hm
  let o : Obj := { proto := m.intrinsic? .objectPrototype }
  have hadds₀ : m.Adds (fun _ => True) (m.withObj o) := .withObj m o
  have hsize : (m.withObj o).heap.size = m.heap.size + 1 := Array.size_push _
  have hlabels : (ms.map fun e => Label.text (.ofString e.1)).Nodup := by
    have hinjective : Function.Injective fun s => Label.text (.ofString s) :=
      fun s s' hs => ofString_injective (Label.text.inj hs)
    have hmap := hkeys.map hinjective
    rwa [List.map_map] at hmap
  -- The object is made first, and its members are put on it in the order of the document.
  obtain ⟨rows, m', t, hput, hadds, hobj, hlists, hrows⟩ :=
    putMembers_eq h [] (hm.adds hadds₀) (by omega) (Machine.obj_withObj o)
      PropertyTable.lists_empty hlabels
  have htexts : (extended [] rows).texts = rows.map fun r => .ofString r.1 := by
    rw [OrderedMap.texts_eq, extended, List.nil_append, List.map_map, List.filterMap_map,
      ← List.filterMap_eq_map]
    rfl
  obtain ⟨entries, hperm, hentries⟩ :=
    exists_ordered (htexts ▸ OrderedMap.listing_perm (extended [] rows))
  have hadds' : m.Adds (fun _ => True) m' := by
    refine Adds.mono (P := (· ≠ m.heap.size)) ?_ fun j hj _ => Nat.ne_of_lt hj
    exact (hadds₀.mono fun _ _ _ => trivial).trans hadds
  refine ⟨.object m.heap.size, .object (entries.map fun r => (r.1, r.2.2)), m', ?_, hadds', ?_, ?_⟩
  · rw [Document.scripted, ofJson]
    have hnew : Eval.newObject I m = .ok m.heap.size (m.withObj o) := rfl
    rw [bind_of_ok hnew, bind_of_ok hput]
    rfl
  · refine Document.rearranges_object ?_ (hperm.map fun r => (r.1, r.2.2))
    exact List.forall₂_map_right_iff.2 (hrows.imp fun _ _ hr => ⟨hr.1, hr.2.1⟩)
  · have hid : m.heap.size < m'.heap.size := by
      have := hadds.size
      omega
    have hnodup : ((extended [] rows).map Prod.fst).Nodup := by
      have hproperties := hlists.nodup
      rw [OrderedMap.keys_properties] at hproperties
      exact hproperties.of_map _
    refine .object hid ⟨Nat.le_refl _, hid⟩ ?_ ?_ hlists hentries.symm (fun r hr => ?_) fun r hr => ?_
    · rw [hobj]
      exact hm.1
    · rw [hobj]
    · refine lookup_of_mem hnodup ?_
      exact List.mem_map.2 ⟨r, hperm.mem_iff.1 hr, rfl⟩
    · have hshows := forall_right (hrows.imp fun _ _ hr => hr.2.2) r (hperm.mem_iff.1 hr)
      refine hshows.mono (fun _ hp => hp) fun j hj => ?_
      have := hj.1
      exact ⟨⟨by omega, hj.2⟩, by omega⟩

/-- Every portable document is built. -/
theorem builds_portable (h : d.Portable) : Builds I W d := by
  induction h with
  | null => exact fun m _ => ⟨.null, .null, m, rfl, .refl m, .null, .null⟩
  | bool b => exact fun m _ => ⟨.bool b, .bool b, m, rfl, .refl m, .bool b, .bool b⟩
  | integer hn => exact fun m _ => ⟨_, _, m, rfl, .refl m, .integer _, .integer hn⟩
  | string s => exact fun m _ => ⟨_, _, m, rfl, .refl m, .string s, .string s⟩
  | array _ ih => exact builds_array ih
  | object hkeys _ ih => exact builds_object hkeys ih

end Builtin

end ScriptHost
