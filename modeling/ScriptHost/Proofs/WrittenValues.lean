import ScriptHost.Builtin.Json
import ScriptHost.Proofs.Instances
import ScriptHost.Proofs.ScriptReading
import ScriptHost.Proofs.ShownDocuments
import ScriptHost.Proofs.TypedArrays
/-!
# Values that are written

A value that shows a document is written as the text of that document, as long as what its objects
inherit from has no say in how they are written.
-/

namespace ScriptHost

open Machine (Shows Without)

/-- The key of the function that says how an object is written. -/
abbrev Key.toJson : Key := Key.str "toJSON"

namespace Machine.Shows

open Eval (bind_of_ok get_bind getOf_value getOf_stands)

variable {I : Interp} {m : Machine} {S : Nat → Prop} {v : Value} {d : Document} {id : Nat} {k : Key}
  {p : Property}

/-! ## Properties of what shows a document -/

theorem find_of_own (hproxy : m.NoProxy id) (hown : m.own? id k = some p) :
    m.find k (some id) = .property id p := by
  unfold find
  rw [findFrom]
  split
  next t h c b hbody => exact absurd hbody (hproxy t h c b)
  next =>
    rw [hown]

/-- What is not found is undefined. -/
theorem getOf_absent (h : m.find k (some id) = .absent) :
    Eval.getOf (.object id) k I m = .ok .undefined m := by
  have hget : Eval.getOf (.object id) k = Eval.getRule (Eval.reading 999) id k (.object id) := rfl
  rw [hget, Eval.getRule, get_bind, h]
  rfl

section Arrays

variable {vs : List Value}
  (hobj : m.obj id = { body := .array, proto := (m.obj id).proto, props := Eval.arrayProps vs.toArray })
include hobj

theorem array_noProxy : m.NoProxy id := by
  intro t h c b hbody
  rw [body, hobj] at hbody
  cases hbody

theorem array_own (k : Key) : m.own? id k = (Eval.arrayProps vs.toArray).get? k := by
  unfold own?
  rw [hobj]

theorem array_item {i : Nat} {v : Value} (hi : vs[i]? = some v) :
    Eval.getOf (.object id) (.index i) I m = .ok v m :=
  getOf_value (find_of_own (array_noProxy hobj) ((array_own hobj _).trans (get_arrayProps vs hi))) rfl

theorem array_length :
    Eval.getOf (.object id) (Key.str "length") I m = .ok (.ofNat vs.length) m := by
  refine getOf_value (find_of_own (array_noProxy hobj) (array_own hobj _)) rfl

theorem array_toJson (hid : id < m.heap.size) (hproto : m.Without Key.toJson (m.obj id).proto) :
    Eval.getOf (.object id) Key.toJson I m = .ok .undefined m := by
  have hown : m.own? id Key.toJson = none := by
    have hother : (Key.toJson == Key.str "length") = false := by decide
    rw [array_own hobj, PropertyTable.get_member _ rfl, Eval.arrayProps, List.lookup_cons, hother]
    rfl
  exact getOf_absent ((Without.next hid (array_noProxy hobj) hown hproto).findFrom _)

end Arrays

theorem key_toJson : (Label.text (txt "toJSON")).key = Key.toJson :=
  Key.ofText_eq_name (by decide)

/-- A plain object whose prototypes do not say how it is written stands for its members. -/
theorem stands {t : PropertyTable} {map : OrderedMap Label Value} (hid : id < m.heap.size)
    (hobj : m.obj id = { proto := (m.obj id).proto, props := t }) (hlists : t.Lists map.properties)
    (hproto : m.Without Key.toJson (m.obj id).proto) :
    m.Stands id [.text (txt "toJSON")] map := by
  have hbody : m.body id = .ordinary := by rw [body, hobj]
  have hblanked : (m.blanked id).obj id = { m.obj id with props := {} } := by
    rw [obj_blanked, if_pos ⟨rfl, hid⟩]
  have hlacks : (m.blanked id).Lacks Key.toJson id := by
    refine ⟨fun t h c b hproxy => ?_, ?_⟩
    · rw [body, hblanked] at hproxy
      cases hbody.symm.trans hproxy
    · have hblank : ({ m.obj id with props := {} } : Obj) = { proto := (m.obj id).proto } := by
        rw [hobj]
      unfold own?
      rw [hblanked, hblank]
      rfl
  have hsize : (m.blanked id).heap.size = m.heap.size := by simp [blanked, update]
  -- The walk may come by the object itself, which has nothing any more.
  have hrest : (m.blanked id).Without Key.toJson (m.obj id).proto := by
    refine hproto.transfer hsize.ge fun j _ hj => ?_
    by_cases hself : id = j
    · subst hself
      refine ⟨hlacks, .inr ?_⟩
      rw [hblanked]
    · have hsame : (m.blanked id).obj j = m.obj j := by
        rw [obj_blanked, if_neg fun h => hself h.1]
      exact ⟨hj.congr hsame, .inr (by rw [hsame])⟩
  refine ⟨t, ⟨hid, hobj, fun k hk => ?_⟩, hlists⟩
  obtain rfl : k = _ := (List.mem_singleton.1 hk).trans key_toJson
  refine Without.findFrom (.next (hsize ▸ hid) hlacks.1 hlacks.2 ?_) _
  rw [hblanked]
  exact hrest

variable {W : Option Nat → Prop} (hW : ∀ p, W p → m.Without Key.toJson p)
include hW

/-- No function says how what shows a document is written. -/
theorem toJson_inert (h : m.Shows W S (.object id) d) :
    ∃ f, Eval.getField (.object id) "toJSON" I m = .ok f m ∧ m.callable f = false := by
  generalize hv : Value.object id = v at h
  cases h with
  | null | bool _ | integer _ | string _ => cases hv
  | array hid _ hproto hobj _ =>
      cases hv
      exact ⟨_, array_toJson hobj hid (hW _ hproto), rfl⟩
  | @object _ _ _ map rows hid _ hproto hobj hlists hkeys hvalues hmembers =>
      cases hv
      have hstands := stands hid hobj hlists (hW _ hproto)
      have hget : Eval.getOf (.object _) (Label.text (txt "toJSON")).key I m = .ok _ m :=
        getOf_stands hstands (List.mem_singleton_self _)
      rw [key_toJson] at hget
      refine ⟨_, hget, ?_⟩
      cases hlookup : map.lookup (.text (txt "toJSON")) with
      | none => rfl
      | some v =>
          -- What is under that name is a member.
          have hlisted : txt "toJSON" ∈ map.listing := by
            rw [OrderedMap.mem_listing, hlookup]
            rfl
          rw [hkeys, List.mem_map] at hlisted
          obtain ⟨r, hr, hname⟩ := hlisted
          have hvalue := hvalues r hr
          rw [hname, hlookup] at hvalue
          cases hvalue
          exact (hmembers r hr).not_callable

omit hW in
theorem defined (h : m.Shows W S v d) : v.isUndefined = false := by cases h <;> rfl

/-- What shows a document stands for itself when it is written. -/
theorem jsonForm_eq (h : m.Shows W S v d) (holder : Nat) (k : Key) :
    Builtin.jsonForm {} holder k v I m = .ok v m := by
  have hcallable : Eval.callable v I m = .ok false m := congrArg (EStateM.Result.ok · m) h.not_callable
  cases v with
  | object id =>
      obtain ⟨f, hget, hf⟩ := toJson_inert (I := I) hW h
      have hinert : Eval.callable f I m = .ok false m := congrArg (EStateM.Result.ok · m) hf
      unfold Builtin.jsonForm
      dsimp only
      rw [bind_of_ok hget, bind_of_ok hinert, if_neg Bool.false_ne_true]
      change (Eval.callable (.object id) >>= fun b => if b = true then pure .undefined
        else pure (.object id) : Eval Value) I m = _
      rw [bind_of_ok hcallable]
      rfl
  | _ => cases h <;> rfl

end Machine.Shows

namespace Builtin

open Eval (bind_of_ok get_bind)
open Json (memberText unitsIn_renderItems unitsIn_renderMembers)

variable {I : Interp} {m : Machine} {S : Nat → Prop} {v : Value} {d : Document} {id : Nat}
  {W : Option Nat → Prop} {us : List UInt16}

/-! ## Appending -/

/-- A computation appends units to a text and changes nothing. -/
def Appends (I : Interp) (m : Machine) (x : Text → Eval Text) (us : List UInt16) : Prop :=
  ∀ out, ∃ t, x out I m = .ok t m ∧ t.units.toList = out.units.toList ++ us

theorem Appends.text {t : Text} (ht : t.units.toList = us) :
    Appends I m (fun out => pure (out ++ t)) us :=
  fun out => ⟨out ++ t, rfl, by rw [← ht]; exact Array.toList_append⟩

theorem units_append_empty (t : Text) : (t ++ Text.empty).units.toList = t.units.toList :=
  Array.toList_append.trans (List.append_nil _)

/-- A style without a gap puts nothing in front of what is written. -/
theorem Appends.gap {x : Text → Eval Text} (h : Appends I m x us) :
    Appends I m (fun out => x (out ++ Text.empty)) us := by
  intro out
  obtain ⟨t, hrun, ht⟩ := h (out ++ Text.empty)
  exact ⟨t, hrun, by rw [ht, units_append_empty]⟩

/-- What is written between two marks. -/
theorem units_closed {t out : Text} {u : UInt16}
    (ht : t.units.toList = (out.push u).units.toList ++ us) (u' : UInt16) :
    (t.push u').units.toList = out.units.toList ++ (u :: (us ++ [u'])) := by
  rw [Text.push, Array.toList_push, ht, Text.push, Array.toList_push, List.append_assoc,
    List.append_assoc]
  rfl

/-- A loop appends what its passes append, and then something else is done. -/
theorem forIn_appends {α : Type} {l : List α} {f : α → Text → Eval (ForInStep Text)}
    {g : Text → Eval Text} {P : Text → Prop} {out : Text} (piece : α → List UInt16)
    (h : ∀ a ∈ l, ∀ out, ∃ t, f a out I m = .ok (.yield t) m ∧
      t.units.toList = out.units.toList ++ piece a)
    (hlast : ∀ t, t.units.toList = out.units.toList ++ l.flatMap piece →
      ∃ t', g t I m = .ok t' m ∧ P t') : ∃ t, (forIn l out f >>= g) I m = .ok t m ∧ P t := by
  induction l generalizing out with
  | nil => exact hlast out (List.append_nil _).symm
  | cons a l ih =>
      obtain ⟨t, hstep, ht⟩ := h a List.mem_cons_self out
      rw [List.forIn_cons, bind_assoc, bind_of_ok hstep]
      refine ih (fun a ha => h a (List.mem_cons_of_mem _ ha)) fun t' ht' => hlast t' ?_
      rw [ht', ht, List.flatMap_cons, List.append_assoc]

/-- The items of an array with the commas before them. -/
theorem flatMap_items (before ds : List Document) :
    (List.range' before.length ds.length).flatMap (fun i => (if i > 0 then [44] else []) ++
      unitsIn ((before ++ ds)[i]?.getD .null).render) =
      if ds = [] then [] else (if before.length > 0 then [44] else []) ++
        unitsIn (Document.renderItems ds) := by
  induction ds generalizing before with
  | nil => rfl
  | cons d ds ih =>
      have hfirst : (before ++ d :: ds)[before.length]? = some d := by simp
      have hrest := ih (before ++ [d])
      rw [List.length_append, List.length_singleton, List.append_assoc,
        List.singleton_append] at hrest
      rw [List.length_cons, List.range'_succ, List.flatMap_cons, hrest, hfirst,
        if_neg (List.cons_ne_nil d ds), List.append_assoc]
      congr 1
      by_cases hds : ds = []
      · subst hds
        exact List.append_nil _
      · rw [if_neg hds, if_pos (Nat.succ_pos _), unitsIn_renderItems d hds]
        rfl

/-! ## What is written of a value -/

theorem toLength_ofNat {n : Nat} (hn : n ≤ bufferLimit) : Eval.toLength (.ofNat n) I m = .ok n m := by
  have hint : Value.ofNat n = .int (Int32.ofInt n) := Eval.ofInt_natCast hn
  have hinteger : Eval.toInteger (.int (Int32.ofInt n)) I m = .ok (Int32.ofInt n).toInt m := rfl
  have hbound : bufferLimit = 2147483647 := rfl
  have hlimit : Eval.maxLength = 9007199254740991 := rfl
  rw [hint, Eval.toLength, bind_of_ok hinteger, Eval.toInt_ofInt hn, if_neg (by omega),
    if_neg (by omega)]
  rfl

theorem lengthOf_array {vs : List Value} (hobj : m.obj id =
    { body := .array, proto := (m.obj id).proto, props := Eval.arrayProps vs.toArray })
    (hvs : vs.length ≤ bufferLimit) : Eval.lengthOf id I m = .ok vs.length m := by
  have hget : Eval.getNamed id "length" I m = .ok (.ofNat vs.length) m :=
    Machine.Shows.array_length hobj
  rw [Eval.lengthOf, bind_of_ok hget]
  exact toLength_ofNat hvs

/-- A value is written as the text of the document that it shows, whatever it is part of. -/
def Writes (I : Interp) (m : Machine) (S : Nat → Prop) (v : Value) (d : Document) : Prop :=
  ∀ fuel opened indent, d.nesting < fuel → (unitsIn d.render).length ≤ Eval.textLimit →
    (∀ o ∈ opened, ¬S o) → Appends I m (writeJson {} fuel opened indent v) (unitsIn d.render)

theorem writes_null : Writes I m S .null .null := by
  intro fuel opened indent hfuel _ _
  obtain ⟨fuel, rfl⟩ := Nat.exists_eq_succ_of_ne_zero (Nat.ne_zero_of_lt hfuel)
  exact Appends.text (t := txt "null") rfl

theorem writes_bool (b : Bool) : Writes I m S (.bool b) (.bool b) := by
  intro fuel opened indent hfuel _ _
  obtain ⟨fuel, rfl⟩ := Nat.exists_eq_succ_of_ne_zero (Nat.ne_zero_of_lt hfuel)
  cases b with
  | true => exact Appends.text (t := txt "true") rfl
  | false => exact Appends.text (t := txt "false") rfl

/-- A string is quoted as the host quotes it. -/
theorem writes_string (s : String) : Writes I m S (.string (.ofString s)) (.string s) := by
  intro fuel opened indent hfuel _ _
  obtain ⟨fuel, rfl⟩ := Nat.exists_eq_succ_of_ne_zero (Nat.ne_zero_of_lt hfuel)
  refine Appends.text (t := Json.quote (.ofString s)) ?_
  rw [Document.render, unitsIn_eq, Json.quote_ofString]

/-- An integer is written in decimals. -/
theorem writes_integer {n : Int} (hn : n.natAbs ≤ 9007199254740992) :
    Writes I m S (.float (Binary.ofInt n)) (.integer n) := by
  intro fuel opened indent hfuel _ _
  obtain ⟨fuel, rfl⟩ := Nat.exists_eq_succ_of_ne_zero (Nat.ne_zero_of_lt hfuel)
  have hfinite : (Binary.ofInt n).isFinite = true := by
    have hexact := (Binary.ofInt_exact (hn.trans (by decide))).1
    unfold Binary.trunc? at hexact
    cases hshape : Binary.shape (Binary.ofInt n) with
    | finite neg m q => exact Binary.isFinite_of_shape hshape
    | _ => simp [hshape] at hexact
  have hwrites : writeJson {} (fuel + 1) opened indent (.float (Binary.ofInt n)) =
      fun out => pure (out ++ txt (NumberText.ofFloat (Binary.ofInt n))) := by
    funext out
    have hwritten : writeJson {} (fuel + 1) opened indent (.float (Binary.ofInt n)) out =
        if (Binary.ofInt n).isFinite = true then
          pure (out ++ txt (NumberText.ofFloat (Binary.ofInt n))) else pure (out ++ txt "null") := rfl
    rw [hwritten, if_pos hfinite]
  rw [hwrites, NumberText.ofFloat_ofInt (hn.trans (by decide))]
  exact Appends.text (unitsIn_eq _).symm

/-! ## Items -/

theorem item_size {d : Document} {ds : List Document} (hd : d ∈ ds) :
    (unitsIn d.render).length ≤ (unitsIn (Document.renderItems ds)).length := by
  induction ds with
  | nil => exact absurd hd List.not_mem_nil
  | cons e ds ih =>
      by_cases hds : ds = []
      · subst hds
        rw [List.mem_singleton.1 hd]
        rfl
      · rw [unitsIn_renderItems e hds, List.length_append, List.length_cons]
        rcases List.mem_cons.1 hd with rfl | hd
        · omega
        · have := ih hd
          omega

theorem items_count (ds : List Document) :
    ds.length ≤ (unitsIn (Document.renderItems ds)).length + 1 := by
  induction ds with
  | nil => exact Nat.zero_le _
  | cons d ds ih =>
      by_cases hds : ds = []
      · subst hds
        exact Nat.le_add_left 1 _
      · rw [unitsIn_renderItems d hds, List.length_append, List.length_cons, List.length_cons]
        omega

/-- Objects that show documents are written as such. -/
theorem unwrapped_eq (h : m.Shows W S v d) : unwrapped v I m = .ok v m := by
  cases h with
  | null | bool _ | integer _ | string _ => rfl
  | @array _ id _ _ _ _ hobj _ | @object _ id _ _ _ _ _ _ hobj _ _ _ _ =>
      have hbody : bodyOf (.object id) I m = .ok (some (id, (m.obj id).body)) m := rfl
      rw [unwrapped, bind_of_ok hbody, hobj]
      rfl

theorem isArray_eq {b : Bool} (h : m.body id = .array ∧ b = true ∨ m.body id = .ordinary ∧ b = false) :
    Eval.isArray (.object id) I m = .ok b m := by
  have hin : Eval.isArrayIn m Eval.proxyDepth (.object id) = .ok b := by
    unfold Eval.proxyDepth Eval.isArrayIn
    rcases h with ⟨hbody, rfl⟩ | ⟨hbody, rfl⟩ <;> rw [hbody]
  unfold Eval.isArray
  rw [get_bind, hin]
  rfl

/-- What is written of an object is written while the object is open, so no part of it may be the
object itself. -/
theorem not_open {opened : List Nat} (h : ∀ o ∈ opened, ¬S o) :
    ∀ o ∈ id :: opened, ¬(S o ∧ o ≠ id) := by
  intro o ho hin
  rcases List.mem_cons.1 ho with rfl | ho
  · exact hin.2 rfl
  · exact h o ho hin.1

theorem contains_eq_false {opened : List Nat} (h : ∀ o ∈ opened, ¬S o) (hS : S id) :
    opened.contains id = false := by
  rw [← Bool.not_eq_true, List.contains_iff_mem]
  exact fun hid => h id hid hS

/-- A value behind a key is looked up and formed before it is written. -/
theorem bind_formed {x : Value} {k : Key} {f : Value → Eval α} {r : EStateM.Result Value Machine α}
    (hW : ∀ p, W p → m.Without Key.toJson p) (hshows : m.Shows W S x d)
    (hget : Eval.getProp id k I m = .ok x m) (hf : f x I m = r) :
    (Eval.getProp id k >>= fun x => jsonForm {} id k x >>= f) I m = r := by
  rw [bind_of_ok hget, bind_of_ok (hshows.jsonForm_eq hW id k), hf]

/-- A pass of the loop over the items of an array writes one of them; the comma is already there. -/
theorem item_pass {i fuel : Nat} {opened : List Nat} {indent : Text} {x : Value}
    (hW : ∀ p, W p → m.Without Key.toJson p) (hshows : m.Shows W S x d)
    (hget : Eval.getProp id (Key.ofNat i) I m = .ok x m)
    (hwritten : Appends I m (writeJson {} fuel opened indent x) us) (out : Text) :
    ∃ t, (do
      let x ← Eval.getProp id (Key.ofNat i)
      let x ← jsonForm {} id (Key.ofNat i) x
      let x := if x.isUndefined then .null else x
      let t ← writeJson {} fuel opened indent x (out ++ Text.empty)
      pure (.yield t) : Eval (ForInStep Text)) I m = .ok (.yield t) m ∧
        t.units.toList = out.units.toList ++ us := by
  obtain ⟨t, hrun, ht⟩ := hwritten.gap out
  refine ⟨t, bind_formed hW hshows hget ?_, ht⟩
  rw [hshows.defined, if_neg Bool.false_ne_true]
  exact bind_of_ok hrun

/-- An array is written item by item. -/
theorem writes_array {rows : List (Value × Document)} (hW : ∀ p, W p → m.Without Key.toJson p)
    (hshows : m.Shows W S (.object id) (.array (rows.map Prod.snd)))
    (hS : S id)
    (hobj : m.obj id = { body := .array, proto := (m.obj id).proto
                         props := Eval.arrayProps (rows.map Prod.fst).toArray })
    (hitems : ∀ r ∈ rows, m.Shows W (fun j => S j ∧ j ≠ id) r.1 r.2)
    (ih : ∀ r ∈ rows, Writes I m (fun j => S j ∧ j ≠ id) r.1 r.2) :
    Writes I m S (.object id) (.array (rows.map Prod.snd)) := by
  intro fuel opened indent hfuel hsize hopen out
  obtain ⟨fuel, rfl⟩ := Nat.exists_eq_succ_of_ne_zero (Nat.ne_zero_of_lt hfuel)
  have hnotopen : opened.contains id = false := contains_eq_false hopen hS
  have harray : Eval.isArray (.object id) I m = .ok true m :=
    isArray_eq (.inl ⟨by rw [Machine.body, hobj], rfl⟩)
  have hcount := items_count (rows.map Prod.snd)
  rw [Json.length_array] at hsize
  have hlimit : Eval.textLimit = 1073741823 := rfl
  have hbound : bufferLimit = 2147483647 := rfl
  rw [List.length_map] at hcount
  have hlength : Eval.lengthOf id I m = .ok rows.length m := by
    have hwhole := lengthOf_array (I := I) hobj (by rw [List.length_map]; omega)
    rwa [List.length_map] at hwhole
  rw [writeJson, bind_of_ok (unwrapped_eq hshows)]
  dsimp only
  rw [hnotopen, if_neg Bool.false_ne_true, bind_of_ok harray, if_pos rfl, bind_of_ok hlength,
    Std.Legacy.Range.forIn_eq_forIn_range']
  have hpieces := flatMap_items [] (rows.map Prod.snd)
  rw [List.length_map, List.nil_append] at hpieces
  refine forIn_appends (fun i => (if i > 0 then [44] else []) ++
    unitsIn ((rows.map Prod.snd)[i]?.getD .null).render) (fun i hi acc => ?_) fun t ht => ?_
  · have hlt : i < rows.length := by
      have := (List.mem_range'_1.1 hi).2
      change i < 0 + (rows.length - 0 + 1 - 1) / 1 at this
      omega
    obtain ⟨r, hr⟩ : ∃ r, rows[i]? = some r := ⟨_, List.getElem?_eq_getElem hlt⟩
    have hmem : r ∈ rows := List.mem_of_getElem? hr
    have hfirst : (rows.map Prod.fst)[i]? = some r.1 := by rw [List.getElem?_map, hr]; rfl
    have hsecond : (rows.map Prod.snd)[i]? = some r.2 := by rw [List.getElem?_map, hr]; rfl
    have hkey : Key.ofNat i = .index i := if_pos (by
      change i < 4294967295
      omega)
    have hget : Eval.getProp id (Key.ofNat i) I m = .ok r.1 m := by
      rw [hkey]
      exact Machine.Shows.array_item hobj hfirst
    have hsize' : (unitsIn r.2.render).length ≤ Eval.textLimit := by
      have := item_size (List.mem_map_of_mem (f := Prod.snd) hmem)
      omega
    have hwritten := ih r hmem fuel (id :: opened) (indent ++ Text.empty)
      (Document.nesting_item hfuel (List.mem_map_of_mem (f := Prod.snd) hmem)) hsize' (not_open hopen)
    have hpass := item_pass hW (hitems r hmem) hget hwritten
    rw [hsecond, Option.getD_some]
    by_cases hlater : i > 0
    · obtain ⟨t, hrun, ht⟩ := hpass (acc.push 44)
      rw [if_pos hlater, if_pos hlater]
      refine ⟨t, hrun, ?_⟩
      rw [ht, Text.push, Array.toList_push, List.append_assoc]
    · rw [if_neg hlater, if_neg hlater]
      exact hpass acc
  · have hinner : t.units.toList = (out.push 91).units.toList ++
        unitsIn (Document.renderItems (rows.map Prod.snd)) := by
      have hrange : [:rows.length].start = 0 ∧ [:rows.length].size = rows.length ∧
          [:rows.length].step = 1 := ⟨rfl, by simp [Std.Legacy.Range.size], rfl⟩
      rw [hrange.1, hrange.2.1, hrange.2.2] at ht
      refine ht.trans (congrArg _ (hpieces.trans ?_))
      cases hrows : rows.map Prod.snd <;> rfl
    have hwhole : (if rows.length > 0 then t ++ Text.empty else t).units.toList = t.units.toList := by
      split
      · exact units_append_empty t
      · rfl
    refine ⟨_, rfl, ?_⟩
    rw [Json.unitsIn_array]
    exact units_closed (hwhole.trans hinner) 93

/-! ## Members -/

theorem text_ofText (t : Text) : (Key.ofText t).text? = some t := by
  rcases Key.ofText_cases t with ⟨n, -, ht, hkey⟩ | ⟨-, hkey⟩
  · rw [hkey, ht]
    rfl
  · rw [hkey]
    rfl

theorem member_size {r : String × Document} {rs : List (String × Document)} (hr : r ∈ rs) :
    (unitsIn r.2.render).length ≤ (unitsIn (Document.renderMembers rs)).length := by
  have hinner := Json.value_size r
  induction rs with
  | nil => exact absurd hr List.not_mem_nil
  | cons q rs ih =>
      by_cases hrs : rs = []
      · subst hrs
        rw [← List.mem_singleton.1 hr]
        exact hinner
      · rw [unitsIn_renderMembers q hrs, List.length_append, List.length_cons]
        rcases List.mem_cons.1 hr with rfl | hr
        · omega
        · have := ih hr
          omega

/-- A key is written as the host quotes it, with a colon behind it. -/
theorem units_key (t : Text) (k : String) :
    ((t ++ Text.empty ++ Json.quote (.ofString k)).push 58).units.toList =
      t.units.toList ++ (unitsIn (Document.quote k) ++ unitsIn ":") := by
  have hcolon : unitsIn ":" = [58] := by decide
  have hquote : (t ++ Text.empty ++ Json.quote (.ofString k)).units.toList =
      t.units.toList ++ unitsIn (Document.quote k) := by
    rw [unitsIn_eq, Json.quote_ofString]
    exact Array.toList_append.trans (congrArg (· ++ _) (units_append_empty t))
  rw [Text.push, Array.toList_push, hquote, hcolon, List.append_assoc]

/-- What is written behind a key makes a member of it. -/
theorem Appends.behind_key {x : Text → Eval Text} {k : String}
    (h : Appends I m x (unitsIn d.render)) :
    Appends I m (fun out => x ((out ++ Text.empty ++ Json.quote (.ofString k)).push 58))
      (unitsIn (memberText (k, d))) := by
  intro out
  obtain ⟨t, hrun, ht⟩ := h ((out ++ Text.empty ++ Json.quote (.ofString k)).push 58)
  refine ⟨t, hrun, ?_⟩
  rw [ht, units_key, memberText, unitsIn_append, unitsIn_append, List.append_assoc,
    List.append_assoc]

/-- A loop over keys appends members, all but the first after a comma. -/
theorem forIn_members {α : Type} {rows : List α} {key : α → Key} (member : α → String × Document)
    {f : Key → Text × Bool → Eval (ForInStep (Text × Bool))} {g : Text × Bool → Eval Text}
    {P : Text → Prop} {out : Text} {first : Bool}
    (h : ∀ r ∈ rows, ∀ out first, ∃ t, f (key r) (out, first) I m = .ok (.yield (t, false)) m ∧
      t.units.toList =
        out.units.toList ++ ((if first then [] else [44]) ++ unitsIn (memberText (member r))))
    (hlast : ∀ t b, t.units.toList = out.units.toList ++ (if rows = [] then [] else
      (if first then [] else [44]) ++ unitsIn (Document.renderMembers (rows.map member))) →
      ∃ t', g (t, b) I m = .ok t' m ∧ P t') :
    ∃ t, (forIn (rows.map key) (out, first) f >>= g) I m = .ok t m ∧ P t := by
  induction rows generalizing out first with
  | nil => exact hlast out first (List.append_nil _).symm
  | cons r rows ih =>
      have hrest : (unitsIn (memberText (member r)) ++ if rows = [] then [] else
          (if false = true then [] else [44]) ++ unitsIn (Document.renderMembers (rows.map member))) =
            unitsIn (Document.renderMembers (member r :: rows.map member)) := by
        by_cases hrows : rows = []
        · subst hrows
          exact List.append_nil _
        · have hmembers : rows.map member ≠ [] := by simpa using hrows
          rw [if_neg hrows, unitsIn_renderMembers _ hmembers]
          rfl
      obtain ⟨t, hstep, ht⟩ := h r List.mem_cons_self out first
      rw [List.map_cons, List.forIn_cons, bind_assoc, bind_of_ok hstep]
      refine ih (fun r hr => h r (List.mem_cons_of_mem _ hr)) fun t' b ht' => hlast t' b ?_
      rw [ht', ht, if_neg (List.cons_ne_nil r rows), List.append_assoc, List.append_assoc, hrest,
        List.map_cons]

/-- A plain object is written member by member, in the order in which it lists them. -/
theorem writes_object {t : PropertyTable} {map : OrderedMap Label Value}
    {rows : List (String × Value × Document)} (hW : ∀ p, W p → m.Without Key.toJson p)
    (hshows : m.Shows W S (.object id) (.object (rows.map fun r => (r.1, r.2.2)))) (hS : S id)
    (hid : id < m.heap.size) (hproto : W (m.obj id).proto)
    (hobj : m.obj id = { proto := (m.obj id).proto, props := t }) (hlists : t.Lists map.properties)
    (hkeys : map.listing = rows.map fun r => .ofString r.1)
    (hvalues : ∀ r ∈ rows, map.lookup (.text (.ofString r.1)) = some r.2.1)
    (hmembers : ∀ r ∈ rows, m.Shows W (fun j => S j ∧ j ≠ id) r.2.1 r.2.2)
    (ih : ∀ r ∈ rows, Writes I m (fun j => S j ∧ j ≠ id) r.2.1 r.2.2) :
    Writes I m S (.object id) (.object (rows.map fun r => (r.1, r.2.2))) := by
  intro fuel opened indent hfuel hsize hopen out
  obtain ⟨fuel, rfl⟩ := Nat.exists_eq_succ_of_ne_zero (Nat.ne_zero_of_lt hfuel)
  have hnotopen : opened.contains id = false := contains_eq_false hopen hS
  have harray : Eval.isArray (.object id) I m = .ok false m :=
    isArray_eq (.inr ⟨by rw [Machine.body, hobj], rfl⟩)
  have hstands := Machine.Shows.stands hid hobj hlists (hW _ hproto)
  have hlisted : Eval.enumerableKeys id I m =
      .ok (rows.map fun r => Key.ofText (.ofString r.1)) m := by
    have hselected : Eval.enumerableKeys id I m = .ok (map.listing.map Key.ofText) m :=
      Eval.selectKeys_stands hstands
    rw [hkeys, List.map_map] at hselected
    exact hselected
  obtain ⟨t', hplain, hlists'⟩ := hstands
  rw [Json.length_object] at hsize
  rw [writeJson, bind_of_ok (unwrapped_eq hshows)]
  dsimp only
  rw [hnotopen, if_neg Bool.false_ne_true, bind_of_ok harray, if_neg Bool.false_ne_true,
    bind_of_ok hlisted]
  refine forIn_members (fun r => (r.1, r.2.2)) (fun r hr acc first => ?_) fun t b ht => ?_
  · have hget : Eval.getProp id (Key.ofText (.ofString r.1)) I m = .ok r.2.1 m := by
      refine Eval.getOf_own hplain ?_
      have hown := OrderedMap.get_properties hlists' (.text (.ofString r.1))
      rw [hvalues r hr] at hown
      exact hown
    have hdefined : (!r.2.1.isUndefined) = true := by rw [(hmembers r hr).defined]; rfl
    have hmem : (r.1, r.2.2) ∈ rows.map fun r => (r.1, r.2.2) := List.mem_map_of_mem hr
    have hsize' : (unitsIn r.2.2.render).length ≤ Eval.textLimit := by
      have hpart := member_size hmem
      dsimp only at hpart
      omega
    have hwritten := ih r hr fuel (id :: opened) (indent ++ Text.empty)
      (Document.nesting_member hfuel hmem) hsize' (not_open hopen)
    have hentry := hwritten.behind_key (k := r.1)
    rw [text_ofText, Option.getD_some]
    cases first with
    | true =>
        obtain ⟨t, hrun, ht⟩ := hentry acc
        refine ⟨t, bind_formed hW (hmembers r hr) hget ?_, ht⟩
        rw [if_pos hdefined]
        exact bind_of_ok hrun
    | false =>
        obtain ⟨t, hrun, ht⟩ := hentry (acc.push 44)
        refine ⟨t, bind_formed hW (hmembers r hr) hget ?_, ?_⟩
        · rw [if_pos hdefined]
          exact bind_of_ok hrun
        · rw [ht, Text.push, Array.toList_push, List.append_assoc]
          rfl
  · have hinner : t.units.toList = (out.push 123).units.toList ++
        unitsIn (Document.renderMembers (rows.map fun r => (r.1, r.2.2))) := by
      rw [ht]
      cases rows <;> rfl
    have hwhole : (if b = true then t else t ++ Text.empty).units.toList = t.units.toList := by
      cases b with
      | true => rfl
      | false => exact units_append_empty t
    refine ⟨_, rfl, ?_⟩
    rw [Json.unitsIn_object]
    exact units_closed (hwhole.trans hinner) 125

/-- A value that shows a document is written as the text of the document. -/
theorem writes_shown (hW : ∀ p, W p → m.Without Key.toJson p) (h : m.Shows W S v d) :
    Writes I m S v d := by
  induction h with
  | null => exact writes_null
  | bool b => exact writes_bool b
  | integer hn => exact writes_integer hn
  | string s => exact writes_string s
  | array hid hS hproto hobj hitems ih =>
      exact writes_array hW (.array hid hS hproto hobj hitems) hS hobj hitems ih
  | object hid hS hproto hobj hlists hkeys hvalues hmembers ih =>
      exact writes_object hW (.object hid hS hproto hobj hlists hkeys hvalues hmembers) hS hid hproto
        hobj hlists hkeys hvalues hmembers ih

end Builtin

end ScriptHost
