import ScriptHost.Proofs.BigIntegers
import ScriptHost.Proofs.BuiltValues
import ScriptHost.Proofs.FilledArrays
import ScriptHost.Proofs.Strings
import ScriptHost.Proofs.WrittenValues
/-!
# Documents come back from the engine

A document that is handed to the engine as text is built there, and what was built is written as text
that is read as the document, with the members of its objects in order.
-/

namespace ScriptHost

/-! ## Lengths of texts -/

namespace Document

variable {d e : Document}

theorem length_renderItems (ds : List Document) : (unitsIn (renderItems ds)).length =
    (ds.map fun d => (unitsIn d.render).length).sum + (ds.length - 1) := by
  induction ds with
  | nil => rfl
  | cons d ds ih =>
      by_cases hds : ds = []
      · subst hds
        exact (Nat.add_zero _).symm
      · have hpos : 0 < ds.length := List.length_pos_of_ne_nil hds
        rw [Json.unitsIn_renderItems d hds, List.length_append, List.length_cons, ih, List.map_cons,
          List.sum_cons, List.length_cons]
        omega

theorem length_renderMembers (ms : List (String × Document)) : (unitsIn (renderMembers ms)).length =
    (ms.map fun m => (unitsIn (Json.memberText m)).length).sum + (ms.length - 1) := by
  induction ms with
  | nil => rfl
  | cons m ms ih =>
      by_cases hms : ms = []
      · subst hms
        have hrender : renderMembers [m] = Json.memberText m := rfl
        rw [hrender, List.map_singleton, List.sum_singleton, List.length_singleton, Nat.sub_self,
          Nat.add_zero]
      · have hpos : 0 < ms.length := List.length_pos_of_ne_nil hms
        rw [Json.unitsIn_renderMembers m hms, List.length_append, List.length_cons, ih,
          List.map_cons, List.sum_cons, List.length_cons]
        omega

/-- A rearranged document has a text of the same length. -/
theorem Rearranges.length_eq (h : d.Rearranges e) :
    (unitsIn e.render).length = (unitsIn d.render).length := by
  induction h with
  | null | bool | integer | string => rfl
  | array _ ih =>
      rw [Json.length_array, Json.length_array, length_renderItems, length_renderItems,
        List.map_map, List.map_map, List.length_map, List.length_map]
      have hsame := List.map_congr_left ih
      exact congrArg (fun ls : List Nat => ls.sum + _ + 2) hsame
  | @object pairs members _ horder ih =>
      rw [Json.length_object, Json.length_object, length_renderMembers, length_renderMembers,
        (horder.map _).sum_eq, horder.length_eq, List.map_map, List.map_map, List.length_map,
        List.length_map]
      refine congrArg (fun ls : List Nat => ls.sum + _ + 2) (List.map_congr_left fun p hp => ?_)
      simp only [Function.comp_apply, Json.memberText, unitsIn_append, List.length_append, ih p hp]

end Document

/-! ## Reading and writing in the engine -/

namespace Builtin

open Eval (bind_of_ok)
open Machine (Adds Shows)

variable {I : Interp} {m : Machine} {v : Value} {d e : Document} {S : Nat → Prop}

/-- The text of a portable document is read as a value that shows it. -/
theorem readJson_eq (hd : d.Portable) (file : String)
    (hinherits : Inherits (m.Without Key.toJson) m) :
    ∃ v e m', readJson file (.ofString d.render) I m = .ok v m' ∧ d.Rearranges e ∧
      m'.Shows (m'.Without Key.toJson) (fun _ => True) v e ∧ m'.limits = m.limits := by
  obtain ⟨v, e, m', hbuilt, hadds, hrearranges, hshows⟩ :=
    builds_portable (I := I) (W := m.Without Key.toJson) hd m hinherits
  refine ⟨v, e, m', ?_, hrearranges,
    hshows.mono (fun _ hp => hadds.without hp) fun _ _ => trivial, hadds.limits⟩
  have hread := Json.read_render hd
  rw [unitsIn_eq] at hread
  unfold readJson
  dsimp only
  rw [hread]
  exact hbuilt

/-- The object that holds what is to be written leaves room for the text. -/
theorem holder_room {n : Nat} (h : m.HasWritingRoom n) (o : Obj) (k : Key) (p : Property) :
    ((m.withObj o).putAt m.heap.size k p).HasTextRoom n := by
  refine ⟨fun limit hlimit => .inl ?_, fun limit hlimit => .inl (h limit hlimit).2⟩
  have hcount : ((m.withObj o).putAt m.heap.size k p).heap.size = m.heap.size + 1 :=
    (Machine.size_withProps ..).trans (Array.size_push _)
  have hbytes : Eval.bytesInUse ((m.withObj o).putAt m.heap.size k p) =
      m.regionBytes + 64 * (m.heap.size + 1 - m.freed) + m.propertyBytes := by
    unfold Eval.bytesInUse
    rw [hcount]
    rfl
  have hbefore : Eval.bytesInUse m =
      m.regionBytes + 64 * (m.heap.size - m.freed) + m.propertyBytes := rfl
  have hfits := (h limit hlimit).1
  omega

/-- A value that shows a document is written as its text if there is room. -/
theorem jsonText_eq (hshows : m.Shows (m.Without Key.toJson) S v d) (hdepth : d.nesting < walkDepth)
    (hsize : utf16Length d.render ≤ Eval.textLimit) (hroom : m.HasWritingRoom (utf16Length d.render)) :
    ∃ m', jsonText {} v I m = .ok (.string (.ofString d.render)) m' := by
  -- The value is written as the one member of a new object, which changes nothing for the value.
  let o : Obj := { proto := m.intrinsic? .objectPrototype }
  let m₂ := (m.withObj o).putAt m.heap.size (.name Text.empty) (.plain v)
  have hadds : m.Adds (fun _ => True) m₂ := by
    refine Adds.mono (P := (· ≠ m.heap.size)) ?_ fun j hj _ => Nat.ne_of_lt hj
    exact (Adds.withObj m o).trans (.withProps ..)
  have hshows₂ : m₂.Shows (m₂.Without Key.toJson) S v d :=
    (hshows.adds hadds fun _ _ => trivial).mono (fun _ hp => hadds.without hp) fun _ hj => hj
  have hnew : Eval.newObject I m = .ok m.heap.size (m.withObj o) := rfl
  have hput : Eval.put m.heap.size (.name Text.empty) v I (m.withObj o) = .ok () m₂ := rfl
  have hform := hshows₂.jsonForm_eq (I := I) (fun _ hp => hp) m.heap.size (.name Text.empty)
  have hlength : (unitsIn d.render).length = utf16Length d.render := by
    rw [unitsIn_eq, Array.length_toList]
    exact size_ofString _
  obtain ⟨t, hwritten, ht⟩ := writes_shown (fun _ hp => hp) hshows₂ walkDepth [] Text.empty hdepth
    (hlength.trans_le hsize) (fun _ ho => absurd ho List.not_mem_nil) Text.empty
  have htext : t = .ofString d.render := Text.ext_units (ht.trans (unitsIn_eq _))
  subst htext
  obtain ⟨m', hchecked⟩ := Eval.checkedText_room (I := I) (holder_room hroom o _ _) hsize
    fun _ => .ofString d.render
  refine ⟨m', ?_⟩
  have hrest : (writeJson {} walkDepth [] Text.empty v Text.empty >>= fun t =>
      Eval.checkedText t.size fun _ => t) I m₂ = .ok (.string (.ofString d.render)) m' := by
    rw [bind_of_ok hwritten, size_ofString]
    exact hchecked
  unfold jsonText
  rw [bind_of_ok hnew, bind_of_ok hput, bind_of_ok hform]
  have hdefined := hshows.defined
  cases v with
  | undefined => cases hdefined
  | _ => exact hrest

end Builtin

/-! ## Journeys -/

namespace Host

open Accounting (bind_ok live_ok ask_eq)
open ScriptEngine (Lasting Holds)

variable {X : Contexts} {c : ContextId} {r : RealmId} {s : Host ScriptEngine} {v : Value} {t : Text}
  {d e : Document}

/-- In a machine with certain limits a value shows a document, and nothing that its objects inherit says
how they are written. -/
def Bears (l : Limits) (v : Value) (d : Document) (m : Machine) : Prop :=
  m.Shows (m.Without Key.toJson) (fun _ => True) v d ∧ m.limits = l

/-- This is so as long as the value is held. -/
theorem bears_lasting (l : Limits) : Lasting v.objectId?.toList (Bears l v d) := by
  intro m m' roots hroots hbears hsheds
  refine ⟨hbears.1.sheds (fun id hv => ?_) hsheds, hsheds.limits.trans hbears.2⟩
  refine .root (List.mem_append_left _ (hroots id ?_))
  rw [hv]
  exact List.mem_singleton_self id

/-- A portable document is taken, and the host holds a value that shows it. -/
theorem serialize_eq (hs : s.Exchanges c r) (hd : d.Portable) :
    ∃ v e s₁, serialize c (.document d) s = (.ok ⟨c, v⟩, s₁) ∧ s₁.contexts = s.contexts ∧
      d.sorted.Rearranges e ∧
      s₁.engine.Holds v.objectId?.toList (Bears s.engine.machine.limits v e) := by
  have hsorted : d.sorted.Portable := hd.rearranges_sorted.portable hd
  have hinherits : Builtin.Inherits ((s.engine.machine.started r).Without Key.toJson)
      (s.engine.machine.started r) := by
    have hstarted : ∀ i ∈ [Intrinsic.objectPrototype, Intrinsic.arrayPrototype],
        (s.engine.machine.started r).Without Key.toJson
          ((s.engine.machine.started r).intrinsic? i) := fun i hi =>
      (hs.inherits i hi).transfer (Nat.le_refl _) fun j _ hj => ⟨hj.congr rfl, .inr rfl⟩
    exact ⟨hstarted _ (by simp), hstarted _ (by simp)⟩
  -- The engine reads the text of the document, with members in order, and shows it.
  obtain ⟨v, e, m', hread, hrearranges, hshows, hlimits⟩ :=
    Builtin.readJson_eq (I := Eval.interp Builtin.supply ScriptEngine.depthLimit) hsorted exchangeFile
      hinherits
  have hcore : ScriptEngine.core (.readJson r d.sorted.render exchangeFile) s.engine =
      (v, { s.engine with machine := m' }) :=
    ScriptEngine.runValue_ok ((Eval.bind_of_ok
      (needsRoom_ok (m := s.engine.machine.started r) hs.room)).trans hread)
  have hnothing : s.engine.Holds [] fun _ => True := ⟨trivial, fun _ => Nat.zero_le _⟩
  obtain ⟨hreply, hholds⟩ :=
    hnothing.answer_looks (q := .readJson r d.sorted.render exchangeFile)
      (bears_lasting (v := v) s.engine.machine.limits) ⟨nofun, nofun⟩ hcore ⟨hshows, hlimits⟩
      fun id => by
        have hgiven : (Request.readJson r d.sorted.render exchangeFile).given v = Ref.ofValue v := rfl
        rw [hgiven, count_ofValue]
        exact Nat.le_add_left _ _
  obtain ⟨s₁, hasked, hcontexts, hengine, -⟩ := ask_eq (.readJson r d.sorted.render exchangeFile) s
  refine ⟨v, e, s₁, ?_, hcontexts, hrearranges, ?_⟩
  · have hvalue : (v == .exception) = false := by
      rw [beq_eq_false_iff_ne]
      rintro rfl
      cases hshows
    have hparse : parseJson c d.sorted.render s = (.ok ⟨c, v⟩, s₁) := by
      unfold parseJson
      rw [bind_ok (live_ok hs.live), bind_ok hasked, hreply]
      unfold check
      rw [hvalue, if_neg Bool.false_ne_true]
      rfl
    exact hparse
  · rw [hengine]
    exact hholds

/-- A value that is written as a text is handed to the host as that text. -/
theorem toJson_yields (hr : (X.entry c).realm = some r) {e₀ : ScriptEngine}
    (hwritten : (ScriptEngine.core (.writeJson r v) e₀).1 = Value.string t) :
    Yields X (· = e₀) (toJson ⟨c, v⟩) fun text _ => text = some t.toHostString := by
  have hlasting : Lasting [] fun _ => True := fun _ _ _ _ _ _ => trivial
  -- The text comes with a reference, so it is held only while it is read.
  have hasked : Yields X (· = e₀) (Host.ask (.writeJson r v))
      fun a e => a = Value.string t ∧ e.Holds [] fun _ => True := by
    refine Yields.ask fun e he => ?_
    subst he
    exact ⟨hwritten, trivial, fun _ => Nat.zero_le _⟩
  have hchecked : Tells X [] (fun _ => True) (Host.check c (.string t)) ⟨c, .string t⟩ :=
    Yields.check nofun
  have hread : Tells X [] (fun _ => True) (do
      if (Handle.mk c (Value.string t)).value == .undefined then Pure.pure none
      else do Pure.pure (some (← toText ⟨c, .string t⟩))) (some t.toHostString) := by
    have hdefined : ((Handle.mk c (Value.string t)).value == .undefined) = false := rfl
    rw [hdefined, if_neg Bool.false_ne_true]
    exact (toText_tells hr hlasting t).bind Tells.pure
  unfold toJson
  refine Yields.live_bind hr (hasked.bind fun a s hX hs => ?_)
  obtain ⟨rfl, hs⟩ := hs
  have hheld : Yields X (fun e => Holds e [] fun _ => True) (do
      let v ← check c (.string t)
      holding v fun v => do
        if v.value == .undefined then Pure.pure none else do Pure.pure (some (← toText v)))
      fun text _ => text = some t.toHostString := by
    refine hchecked.bind ?_
    exact (Tells.ensuring hread (dropText_tells hr hlasting t)).mono fun _ _ h => h.1
  exact hheld s hX hs

/-- A realm with the prototypes of objects and of arrays. -/
def exchangeRealm : Realm :=
  { intrinsics := ((Array.replicate Intrinsic.places none).setIfInBounds
      Intrinsic.objectPrototype.place (some 0)).setIfInBounds
      Intrinsic.arrayPrototype.place (some 1) }

theorem exchangeRealm_objects : exchangeRealm.intrinsic? .objectPrototype = some 0 := by
  decide +kernel

theorem exchangeRealm_arrays : exchangeRealm.intrinsic? .arrayPrototype = some 1 := by
  decide +kernel

/-- A host with one context in that realm, which keeps to the limits. -/
def exchangeHost (l : Limits) : Host ScriptEngine :=
  { engine :=
    { machine :=
      { heap := #[{}, { body := .array, proto := some 0, props := .ofItems {} 0 }]
        realms := #[exchangeRealm]
        limits := l } }
    contexts := (∅ : Contexts).insert 0 { realm := some 0 } }

theorem exchangeHost_inherits (l : Limits) (i : Intrinsic)
    (hi : i ∈ [Intrinsic.objectPrototype, Intrinsic.arrayPrototype]) :
    (exchangeHost l).engine.machine.Without Key.toJson
      (((exchangeHost l).engine.machine.realms[0]?.getD default).intrinsic? i) := by
  have hobjects : (exchangeHost l).engine.machine.Without Key.toJson (some 0) :=
    .next (by simp [exchangeHost]) (fun _ _ _ _ => nofun) rfl .ended
  have harrays : (exchangeHost l).engine.machine.Without Key.toJson (some 1) :=
    .next (by simp [exchangeHost]) (fun _ _ _ _ => nofun) rfl hobjects
  have hrealm : (exchangeHost l).engine.machine.realms[0]?.getD default = exchangeRealm := rfl
  simp only [List.mem_cons, List.not_mem_nil, or_false] at hi
  rcases hi with rfl | rfl
  · rw [hrealm, exchangeRealm_objects]
    exact hobjects
  · rw [hrealm, exchangeRealm_arrays]
    exact harrays

/-- Members that go by the names of other things, and texts that have to be escaped. -/
def oddDocument : Document :=
  .object [("toJSON", .null), ("10", .array [.integer (-9007199254740992), .bool true]),
    ("9", .string "\"\u0000\u2028"), ("__proto__", .object []), ("", .array [])]

theorem oddDocument_portable : oddDocument.Portable := by
  have hlist : Document.Portable (.array [.integer (-9007199254740992), .bool true]) := by
    refine .array fun d hd => ?_
    simp only [List.mem_cons, List.not_mem_nil, or_false] at hd
    rcases hd with rfl | rfl
    · exact .integer (by decide)
    · exact .bool true
  refine .object (by decide) fun m hm => ?_
  simp only [List.mem_cons, List.not_mem_nil, or_false] at hm
  rcases hm with rfl | rfl | rfl | rfl | rfl
  · exact .null
  · exact hlist
  · exact .string _
  · exact .object List.nodup_nil nofun
  · exact .array nofun

end Host

end ScriptHost
