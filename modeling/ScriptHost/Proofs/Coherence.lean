import Mathlib.Tactic.IntervalCases
import ScriptHost.Proofs.Construction
import ScriptHost.Proofs.WrittenBytes
/-!
# Coherence of the views of one buffer

Several typed arrays may look at the same bytes.  Whatever is written through one of them, or to the
bytes in place, is what all of them and the buffer show afterwards, as long as nothing is done to the
built-in objects.
-/

namespace ScriptHost

namespace Machine

variable {m m' : Machine} {x : Cache} {proto : Intrinsic → Nat} {r : RealmId} {i : Intrinsic}
  {id g t : Nat} {v : TypedView} {pos : Nat} {xs : List UInt8}

/-! ## Memory -/

/-- The machine where bytes were written to a region. -/
def written (m : Machine) (g pos : Nat) (xs : List UInt8) : Machine :=
  { m with regions := m.regions.modify g fun b => ElementKind.writeBytes b pos xs }

theorem region_written (m : Machine) (g pos : Nat) (xs : List UInt8) :
    (m.written g pos xs).region g = ElementKind.writeBytes (m.region g) pos xs := by
  have hempty : ElementKind.writeBytes .empty pos xs = .empty := by
    refine ByteArray.ext (Array.eq_empty_of_size_eq_zero ?_)
    exact ElementKind.size_writeBytes .empty pos xs
  unfold written region
  dsimp only
  rw [Array.getElem?_modify, if_pos rfl]
  cases m.regions[g]? with
  | none => exact hempty.symm
  | some b => rfl

/-- What a host knows of an object that is held is so when others are freed, or memory changes. -/
theorem Knows.spared {P : Nat → Prop} (h : m.Knows x proto i id) (hs : Spares P m m') (hP : P id)
    (hid : id < m.heap.size) (hweak : (m.body id).isWeak = false) : m'.Knows x proto i id := by
  rcases h with ⟨⟨ps, hps, hall⟩, hproxy⟩
  refine ⟨⟨ps, (hs.descends hP hid hweak hps).1, hall⟩, fun t hd c b hbody => ?_⟩
  rw [body, hs.obj id hP hid hweak] at hbody
  exact hproxy t hd c b hbody

end Machine

/-! ## Writing an element -/

namespace Eval

variable {I : Interp} {m : Machine} {id g i : Nat} {v : TypedView} {y z : Value}

/-- An element of a typed array is written to the memory of its buffer. -/
theorem setProp_typed (hbody : m.body id = .typed v) (hregion : v.region = some g)
    (hi : i < v.count) (hy : v.kind.Makes y z) : setProp id (.index i) y I m =
      .ok () (m.written g (v.offset + i * v.kind.size) (v.kind.encode z)) := by
  have hset : setProp id (.index i) y =
      setRule (writing 999) id (.index i) y (.object id) >>= orThrow := rfl
  have hstops : m.stopsAt id (.index i) = true := by
    unfold Machine.stopsAt
    rw [hbody]
  have hbody' : body id I m = .ok (.typed v) m := by
    rw [← hbody]
    rfl
  have hstore : storeElement id i z I m =
      .ok () (m.written g (v.offset + i * v.kind.size) (v.kind.encode z)) := by
    unfold storeElement
    rw [bind_of_ok hbody']
    dsimp only
    rw [if_pos hi, hregion]
    rfl
  -- The array itself is written to, so no prototype is asked.
  have hrule : setRule (writing 999) id (.index i) y (.object id) I m =
      .ok .done (m.written g (v.offset + i * v.kind.size) (v.kind.encode z)) := by
    unfold setRule
    rw [get_bind, hbody]
    dsimp only
    have hreceiver : (Value.object id == Value.object id && m.stopsAt id (.index i)) = true := by
      rw [hstops, Bool.and_true]
      exact beq_self_eq_true _
    rw [if_pos hreceiver, bind_of_ok (hy I m)]
    exact bind_of_ok hstore
  rw [hset, bind_of_ok hrule]
  rfl

end Eval

/-! ## A buffer and the typed arrays over it -/

namespace Facade

open ScriptEngine (Lasting)

variable {f : Facade} {m m' : Machine} {x : Cache} {proto : Intrinsic → Nat} {r : RealmId}
  {g pos t : Nat} {w : Window} {bytes : ByteArray} {xs : List UInt8} {held : List Nat}

/-- The buffer of a facade has some bytes. -/
structure Shows (f : Facade) (m : Machine) (x : Cache) (proto : Intrinsic → Nat) (r : RealmId)
    (g : Nat) (bytes : ByteArray) : Prop extends f.Stands m x proto r g where
  bytes : (m.region g).extract 0 f.size = bytes

theorem Shows.size_bytes (h : f.Shows m x proto r g bytes) : bytes.size = f.size := by
  have hmemory := h.memory
  rw [← h.bytes, ByteArray.size_extract]
  omega

theorem isView (hbody : m.body t = .typed (w.view f.buffer g)) (hw : w.Fits f.size) :
    m.IsView f.buffer g f.size (w.view f.buffer g) t :=
  ⟨hbody, rfl, rfl, rfl, hw.within, rfl⟩

/-- A facade stands as long as its parts are spared and the memory is there. -/
theorem Stands.spared {P : Nat → Prop} (h : f.Stands m x proto r g) (hs : Machine.Spares P m m')
    (hP : ∀ id ∈ x.objects ++ f.buffer :: f.arrays.map Prod.fst, P id)
    (hbuffer : m'.IsBuffer f.buffer g f.size) (hmemory : f.size ≤ (m'.region g).size) :
    f.Stands m' x proto r g := by
  rcases h.buffer.body with ⟨token, hbody⟩
  have hb : P f.buffer := hP _ (by simp)
  refine ⟨h.serves.spared hs fun id hid => hP id (List.mem_append_left _ hid), hbuffer,
    h.known.spared hs hb (Machine.lt_of_body (by simp [hbody])) (by simp [hbody, Body.isWeak]),
    hmemory, ?_⟩
  intro t w ht
  rcases h.arrays t w ht with ⟨hknown, htyped⟩
  have hid : P t :=
    hP t (List.mem_append_right _ (List.mem_cons_of_mem _ (List.mem_map_of_mem ht)))
  have hweak : (m.body t).isWeak = false := by simp [htyped, Body.isWeak]
  have hlt : t < m.heap.size := Machine.lt_of_body (by simp [htyped])
  refine ⟨hknown.spared hs hid hlt hweak, ?_⟩
  rw [Machine.body, hs.obj t hid hlt hweak]
  exact htyped

/-- What a facade shows lasts while its parts are held. -/
theorem shows_lasting (hheld : ∀ id ∈ x.objects ++ f.buffer :: f.arrays.map Prod.fst, id ∈ held) :
    Lasting held fun m => f.Shows m x proto r g bytes := by
  intro m m' roots hroots hm hsheds
  have hroot : ∀ id ∈ x.objects ++ f.buffer :: f.arrays.map Prod.fst,
      m.Held roots (.object id) := fun id hid =>
    .root (List.mem_append_left _ (hroots id (hheld id hid)))
  rcases hm.buffer.sheds hsheds (hroot _ (by simp)) with ⟨hbuffer, -, hregion⟩
  refine ⟨hm.toStands.spared (.of_sheds hsheds) hroot hbuffer ?_, ?_⟩
  · rw [hregion]
    exact hm.memory
  · rw [hregion]
    exact hm.bytes

/-- Bytes that are written to the memory of the buffer change nothing else. -/
theorem Shows.written (h : f.Shows m x proto r g bytes) (hwithin : pos + xs.length ≤ f.size) :
    f.Shows (m.written g pos xs) x proto r g (ElementKind.writeBytes bytes pos xs) := by
  have hspares : Machine.Spares (fun _ => True) m (m.written g pos xs) := .of_heap rfl rfl rfl
  refine ⟨h.toStands.spared hspares (fun _ _ => trivial) (h.buffer.of_heap rfl) ?_, ?_⟩
  · rw [Machine.region_written, ElementKind.size_writeBytes]
    exact h.memory
  · rw [Machine.region_written, ElementKind.extract_writeBytes hwithin h.memory, h.bytes]

end Facade

/-! ## Requests that write -/

namespace Host

open ScriptEngine (Lasting Holds)

variable {X : Contexts} {c : ContextId} {r : RealmId} {held held' : List Nat}
  {I J : Machine → Prop} {α : Type} {Q : α → ScriptEngine → Prop} {P : ScriptEngine → Prop}

theorem Yields.tryCatch {y : Action ScriptEngine α} {h : Stop → Action ScriptEngine α}
    (hy : Yields X P y Q) : Yields X P (MonadExcept.tryCatch y h) Q := by
  intro s hX hP
  rcases hy s hX hP with ⟨a, s', hrun, hX', hQ⟩
  exact ⟨a, s', Accounting.tryCatch_ok hrun, hX', hQ⟩

/-- The key for an index is a reference to no object. -/
theorem indexKey_tells {h : Handle} {i : Nat} (hr : (X.entry h.context).realm = some r)
    (hlasting : Lasting held I) (hi : (i : Int) ≤ maxIndex) :
    Tells X held I (indexKey h i) ⟨h.context, .index i⟩ := by
  have hlt : i < 2 ^ 31 := by
    have hmax : maxIndex = 2 ^ 31 - 1 := rfl
    omega
  have hkey : Key.ofNat (UInt32.ofNat i).toNat = .index i := by
    have hmod : (UInt32.ofNat i).toNat = i := by
      rw [UInt32.toNat_ofNat']
      exact Nat.mod_eq_of_lt (by omega)
    rw [hmod]
    have hlimit : Key.indexLimit = 2 ^ 32 - 1 := rfl
    unfold Key.ofNat
    rw [if_pos (by omega)]
  have hasked : Tells X held I (Host.ask (.keyOfIndex r (UInt32.ofNat i))) (Key.index i) := by
    refine ask_tells hlasting ⟨nofun, nofun⟩ rfl fun e he => ⟨e.machine, ?_, he⟩
    rw [← hkey]
    rfl
  unfold indexKey newIndexKey
  rw [if_pos ⟨Int.natCast_nonneg i, hi⟩, Int.toNat_natCast]
  exact Yields.live_bind hr (hasked.bind Tells.pure)

/-- Giving back a key gives back no object. -/
theorem dropKey_tells {k : KeyHandle} (hr : (X.entry k.context).realm = some r)
    (hlasting : Lasting held I) : Tells X held I (dropKey k) () := by
  have hasked : Tells X held I (Host.ask (.release r [.key k.key])) () := by
    refine Yields.ask fun e he => ?_
    refine he.answer_looks hlasting ⟨nofun, nofun⟩ rfl he.machine fun id => ?_
    have htaken : (Request.release r [.key k.key]).taken = Ref.ofKey k.key ++ [] := rfl
    rw [htaken, Ref.ofKey]
    split <;> simp
  unfold dropKey
  split
  · exact Yields.live_bind hr hasked
  · exact Tells.pure

/-- A reference to an object is one to a value. -/
theorem count_ofValue (v : Value) (id : Nat) :
    (Ref.ofValue v).count (.value (.object id)) = v.objectId?.toList.count id := by
  cases v with
  | object j =>
      have hrefs : Ref.ofValue (.object j) = [.value (.object j)] := rfl
      have hid : (Value.object j).objectId?.toList = [j] := rfl
      rw [hrefs, hid, List.count_singleton, List.count_singleton]
      simp
  | bool _ | int _ | float _ | string _ | symbol _ | bigint _ =>
      unfold Ref.ofValue
      split <;> simp [Value.objectId?]
  | undefined | null | uninitialized | exception => rfl

/-- What writing a property comes to when it throws nothing.  The reference to the value is given
away. -/
theorem setKey_yields {h v : Handle} {k : Key} {id : Nat} (hr : (X.entry h.context).realm = some r)
    (hlasting : Lasting held J) (hid : h.value = .object id)
    (hset : ∀ m, I m → ∃ m', Eval.setProp id k v.value
      (Eval.interp Builtin.supply ScriptEngine.depthLimit) (m.started r) = .ok () m' ∧ J m') :
    Yields X (fun e => Holds e (v.value.objectId?.toList ++ held) I) (setKey h k v)
      fun _ e => Holds e held J := by
  -- What is written to is looked at before the value is given away.
  have htarget : Yields X (fun e => Holds e (v.value.objectId?.toList ++ held) I) (do
      requireObject "set_atom" h
      Host.live h.context) fun r' e => r' = r ∧ Holds e (v.value.objectId?.toList ++ held) I := by
    have hobject : requireObject "set_atom" h = (Pure.pure () : Action ScriptEngine Unit) := by
      unfold requireObject
      rw [hid]
      rfl
    rw [hobject]
    intro s hX hs
    exact ⟨r, s, Accounting.live_ok (by rw [hX, hr]), hX, rfl, hs⟩
  have hasked : Yields X (fun e => Holds e (v.value.objectId?.toList ++ held) I)
      (Host.ask (.set r (.object id) k v.value)) fun a e => a = some true ∧ Holds e held J := by
    refine Yields.ask fun e he => ?_
    rcases hset _ he.machine with ⟨m', hrun, hJ⟩
    have hcore : ScriptEngine.core (.set r (.object id) k v.value) e =
        (some true, { e with machine := m' }) := by
      refine ScriptEngine.run_eq ?_
      rw [ScriptEngine.objectOf_bind]
      exact (Eval.bind_of_ok hrun).trans rfl
    refine he.answer_looks hlasting ⟨nofun, nofun⟩ hcore hJ fun j => ?_
    have htaken : (Request.set r (.object id) k v.value).taken = Ref.ofValue v.value := rfl
    rw [htaken, count_ofValue, List.count_append]
    omega
  unfold setKey
  refine htarget.tryCatch.bind fun r' => ?_
  intro s hX hs
  rcases hs with ⟨rfl, hs⟩
  rw [hid]
  have hwhole : Yields X (fun e => Holds e (v.value.objectId?.toList ++ held) I) (do
      let a ← Host.ask (.set r' (.object id) k v.value)
      let _ ← Host.orViolation h.context "set_atom" a) fun _ e => Holds e held J := by
    refine hasked.bind fun a => ?_
    intro s' hX' hs'
    rcases hs' with ⟨rfl, hs'⟩
    exact ⟨(), s', rfl, hX', hs'⟩
  exact hwhole s hX hs

/-- Writing by an index makes the same change as writing by the key for it. -/
theorem set_index_yields {h v : Handle} {id i : Nat} (hr : (X.entry h.context).realm = some r)
    (hI : Lasting held I) (hJ : Lasting held J) (hid : h.value = .object id)
    (hheld : v.value.objectId?.toList ++ held = held') (hi : (i : Int) ≤ maxIndex)
    (hset : ∀ m, I m → ∃ m', Eval.setProp id (.index i) v.value
      (Eval.interp Builtin.supply ScriptEngine.depthLimit) (m.started r) = .ok () m' ∧ J m') :
    Yields X (fun e => Holds e held' I) (set h (.index i) v) fun _ e => Holds e held J := by
  subst hheld
  have hmore : Lasting (v.value.objectId?.toList ++ held) I :=
    hI.mono fun _ hid => List.mem_append_right _ hid
  unfold set
  refine (Yields.tryCatch (indexKey_tells hr hmore hi)).bind fun k => ?_
  intro s hX hs
  rcases hs with ⟨rfl, hs⟩
  have hwrite : Yields X (fun e => Holds e (v.value.objectId?.toList ++ held) I)
      (holdingKey ⟨h.context, .index i⟩ fun k => setKey h k.key v) fun _ e => Holds e held J :=
    Yields.ensuring (setKey_yields hr hJ hid hset) fun _ =>
      (dropKey_tells hr hJ).mono fun _ _ hQ => hQ.2
  exact hwrite s hX hs

/-- Bytes that are written in place are written to memory. -/
theorem writeView_yields {view : SharedBytes} {pos : Nat} {bs : ByteArray} (hlasting : Lasting held J)
    (hwrite : ∀ m, I m → J (m.written view.region (view.offset + pos) bs.data.toList)) :
    Yields X (fun e => Holds e held I) (writeView view pos bs) fun _ e => Holds e held J := by
  refine Yields.ask fun e he => ?_
  have hcore : ScriptEngine.core (.writeRegion view.region (view.offset + pos) bs) e =
      ((), { e with machine := e.machine.written view.region (view.offset + pos) bs.data.toList }) := by
    rcases e with ⟨machine, pending, ledger, queue⟩
    rfl
  exact (he.answer_looks (q := .writeRegion ..) hlasting ⟨nofun, nofun⟩ hcore (hwrite _ he.machine)
    fun _ => Nat.le_add_right ..).2

end Host

/-! ## What edits write -/

namespace Edit

variable {n : Nat} {ws : List Window} {e : Edit} {es : List Edit} {pos : Nat} {xs : List UInt8}
  {bytes old new : ByteArray}

/-- An edit writes some bytes at a place. -/
inductive Writes (ws : List Window) : Edit → Nat → List UInt8 → Prop
  | element {j i : Nat} {v x : Value} {w : Window} (hw : ws[j]? = some w) (hx : w.kind.Makes v x) :
      Writes ws (.element j i v) (w.place i) (w.kind.encode x)
  | byte (j : Option Nat) (pos : Nat) (x : UInt8) :
      Writes ws (.byte j pos x) ((Edit.byte j pos x).start ws) [x]

/-- What edits make of some bytes, one after the other. -/
inductive Rewrites (ws : List Window) : List Edit → ByteArray → ByteArray → Prop
  | nil (bytes : ByteArray) : Rewrites ws [] bytes bytes
  | cons {e : Edit} {es : List Edit} {pos : Nat} {xs : List UInt8} {old new : ByteArray}
      (he : e.Writes ws pos xs) (hes : Rewrites ws es (ElementKind.writeBytes old pos xs) new) :
      Rewrites ws (e :: es) old new

theorem getD_of_getElem? {j : Nat} {w : Window} (hw : ws[j]? = some w) : ws.getD j default = w := by
  rw [List.getD_eq_getElem?_getD, hw, Option.getD_some]

/-- An element of a typed array is among the bytes in its window. -/
theorem place_le {w : Window} {i : Nat} (hi : i < w.count) :
    w.place i + w.kind.size ≤ w.offset + w.size := by
  have hle : (i + 1) * w.kind.size ≤ w.count * w.kind.size := Nat.mul_le_mul_right _ hi
  rw [Nat.add_mul, Nat.one_mul] at hle
  unfold Window.place Window.size
  omega

/-- An edit that is in range writes something. -/
theorem Fits.writes (he : e.Fits n ws) : ∃ pos xs, e.Writes ws pos xs := by
  cases he with
  | element hw hi hv hx => exact ⟨_, _, .element hw hx⟩
  | byte hpos => exact ⟨_, _, .byte none _ _⟩
  | @arrayByte j pos x w hw hpos => exact ⟨_, _, .byte (some j) pos x⟩

/-- Where an edit writes, and how much. -/
theorem Writes.place (he : e.Writes ws pos xs) : e.start ws = pos ∧ e.length ws = xs.length := by
  cases he with
  | element hw hx =>
      rw [start, length, getD_of_getElem? hw, ElementKind.length_encode]
      exact ⟨rfl, rfl⟩
  | byte => exact ⟨rfl, rfl⟩

/-- An edit that is in range writes within the buffer. -/
theorem Writes.within (he : e.Writes ws pos xs) (hfits : e.Fits n ws) (hws : ∀ w ∈ ws, w.Fits n) :
    pos + xs.length ≤ n := by
  rw [← he.place.1, ← he.place.2]
  cases hfits with
  | element hw hi hv hx =>
      have hplace := place_le hi
      have hwithin := (hws _ (List.mem_of_getElem? hw)).within
      rw [start, length, getD_of_getElem? hw]
      omega
  | byte hpos => exact hpos
  | @arrayByte j pos x w hw hpos =>
      have hwithin := (hws _ (List.mem_of_getElem? hw)).within
      rw [start, length, getD_of_getElem? hw]
      omega

/-- What edits make of some bytes does not depend on where these are. -/
theorem exists_rewrites (hes : ∀ e ∈ es, e.Fits n ws) (bytes : ByteArray) :
    ∃ new, Rewrites ws es bytes new := by
  induction es generalizing bytes with
  | nil => exact ⟨bytes, .nil bytes⟩
  | cons e es ih =>
      rcases (hes e List.mem_cons_self).writes with ⟨pos, xs, hwrites⟩
      rcases ih (fun e' he' => hes e' (List.mem_cons_of_mem e he'))
        (ElementKind.writeBytes bytes pos xs) with ⟨new, hnew⟩
      exact ⟨new, .cons hwrites hnew⟩

/-- Only one element is made of a value. -/
theorem makes_unique {k : ElementKind} {v x y : Value} (hx : k.Makes v x) (hy : k.Makes v y) :
    x = y := by
  have hsame := (hx (Eval.interp Builtin.supply 0) {}).symm.trans (hy (Eval.interp Builtin.supply 0) {})
  cases hsame
  rfl

/-- An edit writes what it says and nothing else. -/
theorem Writes.changes (he : e.Writes ws pos xs) (hwithin : pos + xs.length ≤ bytes.size) :
    e.Changes ws bytes (ElementKind.writeBytes bytes pos xs) := by
  constructor
  case size => exact ElementKind.size_writeBytes ..
  case outside =>
    intro q hq
    rw [he.place.1, he.place.2] at hq
    exact ElementKind.getElem?_writeBytes_outside hq
  case byte =>
    intro j p y heq
    rw [he.place.1]
    cases he with
    | element => cases heq
    | byte =>
        cases heq
        exact ElementKind.getElem?_writeBytes_inside (q := 0) hwithin Nat.one_pos
  -- The bytes of an element are told by the integer that it holds, whichever view wrote it.
  case element =>
    intro j i v x z w heq hw hwraps hx hz q hq
    cases he with
    | byte => cases heq
    | element hw' hx' =>
        cases heq
        obtain rfl := Option.some.inj (hw'.symm.trans hw)
        obtain rfl := makes_unique hx' hx
        rw [ElementKind.getElem?_writeBytes_inside hwithin (by rw [ElementKind.length_encode]; exact hq),
          ElementKind.getElem?_encode hwraps hz hq]

end Edit

/-! ## Edits of a facade -/

namespace Facade

open Host
open ScriptEngine (Lasting Holds)

/-- Every window is that of a typed array. -/
theorem exists_array {f : Facade} {j : Nat} {w : Window} (hw : f.windows[j]? = some w) :
    ∃ t, (t, w) ∈ f.arrays ∧ (f.arrays.getD j default).1 = t := by
  unfold windows at hw
  rw [List.getElem?_map, Option.map_eq_some_iff] at hw
  rcases hw with ⟨⟨t, w'⟩, hj, rfl⟩
  refine ⟨t, List.mem_of_getElem? hj, ?_⟩
  rw [List.getD_eq_getElem?_getD, hj, Option.getD_some]

section Edits

variable {X : Contexts} {f : Facade} {r : RealmId} {x : Cache} {proto : Intrinsic → Nat}
  {g t : Nat} {held : List Nat} {w : Window} {e : Edit} {es : List Edit} {pos : Nat}
  {xs : List UInt8} {bytes old new : ByteArray}
variable (hr : (X.entry f.context).realm = some r) (hx : (X.entry f.context).cache = x)
  (hheld : ∀ id ∈ x.objects ++ f.buffer :: f.arrays.map Prod.fst, id ∈ held)
include hr hx hheld

section Array

variable (ht : (t, w) ∈ f.arrays) (hw : w.Fits f.size) (hk : (x.elements w.kind).isObject = true)
include ht hw hk

omit hr hx hheld hk in
theorem typed_known : ∀ m, f.Shows m x proto r g bytes → m.Serves x proto r ∧
    m.Knows x proto (.elementPrototype w.kind) t ∧ m.IsBuffer f.buffer g f.size ∧
    m.IsView f.buffer g f.size (w.view f.buffer g) t := by
  intro m hm
  rcases hm.arrays t w ht with ⟨hknown, hbody⟩
  exact ⟨hm.serves, hknown, hm.buffer, isView hbody hw⟩

/-- The bytes of a typed array are worked on in its window. -/
theorem arrayView_tells : Tells X held (fun m => f.Shows m x proto r g bytes)
    (byteView (f.handle t)) ⟨g, w.offset, w.size⟩ :=
  typedView_tells hr (shows_lasting hheld) hx hk (typed_known ht hw)

/-- A typed array shows the part of the bytes that is in its window. -/
theorem arrayBytes_tells : Tells X held (fun m => f.Shows m x proto r g bytes)
    (toByteArray (f.handle t)) (bytes.extract w.offset (w.offset + w.size)) := by
  refine typedBytes_tells hr (shows_lasting hheld) hx hk (typed_known ht hw) ?_
  intro m hm
  change (m.region g).extract w.offset (w.offset + w.size) = _
  rw [← hm.bytes, ByteArray.extract_extract, Nat.zero_add, Nat.zero_add,
    Nat.min_eq_left hw.within]

end Array

variable (hbuffer : x.buffer.isObject = true) (hlimit : f.size ≤ Builtin.bufferLimit)
  (hws : ∀ w ∈ f.windows, w.Fits f.size ∧ (x.elements w.kind).isObject = true)
include hbuffer

theorem wholeView_tells : Tells X held (fun m => f.Shows m x proto r g bytes)
    (byteView (f.handle f.buffer)) ⟨g, 0, f.size⟩ :=
  bufferView_tells hr (shows_lasting hheld) hx (fun _ hm => ⟨hm.serves, hm.known, hm.buffer⟩) hbuffer

/-- The buffer shows all the bytes. -/
theorem wholeBytes_tells : Tells X held (fun m => f.Shows m x proto r g bytes)
    (toByteArray (f.handle f.buffer)) bytes :=
  bufferBytes_tells hr (shows_lasting hheld) hx (fun _ hm => ⟨hm.serves, hm.known, hm.buffer⟩) hbuffer
    fun _ hm => hm.bytes

include hws

variable (proto g) in
/-- Where the bytes are that an edit in place is made to. -/
theorem source_tells {j : Option Nat} {y : UInt8} (hj : (Edit.byte j pos y).Fits f.size f.windows) :
    ∃ view : SharedBytes, view.region = g ∧ view.offset + pos = (Edit.byte j pos y).start f.windows ∧
      ∀ bytes, Tells X held (fun m => f.Shows m x proto r g bytes) (byteView (f.source j)) view := by
  cases hj with
  | byte hpos =>
      exact ⟨⟨g, 0, f.size⟩, rfl, Nat.zero_add _, fun _ => wholeView_tells hr hx hheld hbuffer⟩
  | @arrayByte j _ _ w hw hpos =>
      rcases exists_array hw with ⟨t, ht, hj⟩
      have hfits := hws w (List.mem_of_getElem? hw)
      have hsource : f.source (some j) = f.handle t := congrArg f.handle hj
      refine ⟨⟨g, w.offset, w.size⟩, rfl, ?_, fun bytes => ?_⟩
      · rw [Edit.start, Edit.getD_of_getElem? hw]
      · rw [hsource]
        exact arrayView_tells hr hx hheld ht hfits.1 hfits.2

include hlimit

/-- An edit in range makes its change to the bytes. -/
theorem edit_yields (he : e.Fits f.size f.windows) (hwrites : e.Writes f.windows pos xs) :
    Yields X (fun e => Holds e held fun m => f.Shows m x proto r g bytes) (f.edit e)
      fun _ e => Holds e held fun m =>
        f.Shows m x proto r g (ElementKind.writeBytes bytes pos xs) := by
  have hwithin := hwrites.within he fun w hw => (hws w hw).1
  -- An element goes through the engine, a byte through a view of the memory.
  cases hwrites with
  | @element j i v z w hw hz =>
      rcases exists_array hw with ⟨t, ht, hj⟩
      cases he with
      | @element _ _ _ _ w' hw' hi hv _ =>
      obtain rfl := Option.some.inj (hw.symm.trans hw')
      have hedit : f.edit (.element j i v) =
          set (f.handle t) (.index i) ⟨f.context, v⟩ := by rw [edit, hj]
      rw [hedit]
      have hnone : v.objectId?.toList ++ held = held := by
        cases v with
        | object _ => cases hv
        | _ => rfl
      refine set_index_yields hr (shows_lasting hheld) (shows_lasting hheld) rfl hnone ?_
        fun m hm => ?_
      · have hcount : w.count ≤ w.size := Nat.le_mul_of_pos_right _ (ElementKind.size_pos _)
        have hfits := (hws w (List.mem_of_getElem? hw)).1.within
        have hmax : maxIndex = (Builtin.bufferLimit : Int) := rfl
        omega
      · have hstarted := (shows_lasting hheld).started (r := r) hm
        exact ⟨_, Eval.setProp_typed (hstarted.arrays t w ht).2 rfl hi hz, hstarted.written hwithin⟩
  | byte j pos y =>
      rcases source_tells proto g hr hx hheld hbuffer hws he with ⟨view, rfl, hstart, htells⟩
      refine (htells bytes).bind (writeView_yields (shows_lasting hheld) fun m hm => ?_)
      rw [hstart]
      exact hm.written hwithin

/-- Edits in range, one after the other. -/
theorem edits_yield (hes : ∀ e ∈ es, e.Fits f.size f.windows)
    (hrewrites : Edit.Rewrites f.windows es old new) :
    Yields X (fun e => Holds e held fun m => f.Shows m x proto r g old) (f.edits es)
      fun _ e => Holds e held fun m => f.Shows m x proto r g new := by
  unfold edits
  induction hrewrites with
  | nil => exact Yields.pure fun _ he => he
  | @cons e es pos xs old new he hrest ih =>
      refine Yields.bind
        (edit_yields hr hx hheld hbuffer hlimit hws (hes e List.mem_cons_self) he) fun _ => ?_
      exact ih fun e' he' => hes e' (List.mem_cons_of_mem e he')

omit hlimit in
/-- Everything that is read agrees with the bytes. -/
theorem coheres_of_holds {s : Host ScriptEngine} (hX : s.contexts = X)
    (hs : Holds s.engine held fun m => f.Shows m x proto r g bytes) : f.Coheres s bytes := by
  constructor
  case buffer => exact (wholeBytes_tells hr hx hheld hbuffer).fst hX hs
  case arrays =>
    intro t w ht
    have hw := hws w (List.mem_map_of_mem ht)
    rcases arrayInfo_yields hr (shows_lasting hheld) hx hw.2 (typed_known ht hw.1) s hX hs with
      ⟨info, s', hrun, -, rfl, -⟩
    exact ⟨_, s', hrun, rfl, rfl, rfl, (arrayBytes_tells hr hx hheld ht hw.1 hw.2).fst hX hs⟩

end Edits

/-- What a facade is made of, each once. -/
def parts (f : Facade) (x : Cache) : List Nat :=
  (x.objects ++ f.buffer :: f.arrays.map Prod.fst).dedup

variable {f f' : Facade} {s s' : Host ScriptEngine} {r r' : RealmId} {proto proto' : Intrinsic → Nat}

/-- A host that displays a facade holds what it is made of. -/
theorem holds_of_displays (h : s.Displays f r proto) : ∃ g bytes, s.engine.Holds
    (f.parts (Contexts.entry s.contexts f.context).cache)
    fun m => f.Shows m (Contexts.entry s.contexts f.context).cache proto r g bytes := by
  rcases h.stands with ⟨g, hg⟩
  refine ⟨g, _, ⟨hg, rfl⟩, fun id => ?_⟩
  by_cases hid : id ∈ f.parts (Contexts.entry s.contexts f.context).cache
  · have hone : (f.parts (Contexts.entry s.contexts f.context).cache).count id ≤ 1 :=
      List.nodup_iff_count_le_one.1 (List.nodup_dedup _) id
    exact hone.trans (h.held id (List.mem_dedup.1 hid))
  · rw [List.count_eq_zero.2 hid]
    exact Nat.zero_le _

/-- A buffer that a host makes of copied or of lent bytes is displayed, with no typed arrays yet. -/
theorem displays_new {c : ContextId} {bytes : ByteArray} (hs : s.Serves c r proto)
    (hroom : s.engine.CanAllocate bytes.size) :
    ∀ make ∈ [Host.newArrayBuffer c bytes, Host.newSharedBuffer c bytes], ∃ b s',
      make s = (.ok ⟨c, .object b⟩, s') ∧ s'.Displays ⟨c, b, bytes.size, []⟩ r proto := by
  -- Copied or lent, the buffer that is made shows the same bytes.
  have hmade : ∀ make : Action ScriptEngine Handle,
      Yields s.contexts (fun e : ScriptEngine => e.Ready r (Contexts.entry s.contexts c).cache proto ∧
        e.CanAllocate bytes.size) make
        (HasNewBuffer (Contexts.entry s.contexts c).cache proto r c bytes) →
      ∃ b s', make s = (.ok ⟨c, .object b⟩, s') ∧ s'.Displays ⟨c, b, bytes.size, []⟩ r proto := by
    intro make hyields
    rcases hyields s rfl ⟨hs.ready, hroom⟩ with ⟨h, s', hrun, hX, b, g, rfl, hholds⟩
    have hstores := hholds.machine
    have hmemory : bytes.size ≤ (s'.engine.machine.region g).size := by
      have hsize := congrArg ByteArray.size hstores.buffer.bytes
      rw [ByteArray.size_extract] at hsize
      omega
    refine ⟨b, s', hrun, ?_⟩
    constructor
    case live =>
      rw [hX]
      exact hs.live
    case stands =>
      rw [hX]
      exact ⟨g, hstores.serves, hstores.buffer.isBuffer, hstores.buffer.knows hstores.serves, hmemory,
        nofun⟩
    case limit => exact hroom.1
    case windows => exact nofun
    case held =>
      intro id hid
      rw [hX] at hid
      refine Nat.lt_of_lt_of_le (List.count_pos_iff.2 ?_) (hholds.held id)
      rcases List.mem_append.1 hid with hid | hid
      · exact List.mem_cons_of_mem _ (List.mem_dedup.2 hid)
      · rw [List.mem_singleton.1 hid]
        exact List.mem_cons_self
  intro make hmake
  rcases List.mem_pair.1 hmake with rfl | rfl
  · exact hmade _ (Host.newArrayBuffer_yields hs.live)
  · exact hmade _ (Host.newSharedBuffer_yields hs.live)

/-- A buffer of four bytes and two typed arrays over it, with overlapping windows. -/
def smallFacade : Facade :=
  { context := 0, buffer := 9, size := 4, arrays := [(10, ⟨.uint16, 0, 2⟩), (11, ⟨.uint16, 2, 1⟩)] }

/-- A small host that has them; the memory may be lent. -/
def smallDisplay (token : Option UInt64) : Host ScriptEngine :=
  let machine := Host.smallHost.engine.machine
  let array (w : Window) : Obj := { body := .typed (w.view 9 0), proto := some 2 }
  { Host.smallHost with
    engine :=
    { machine :=
      { machine with
        heap := machine.heap ++ #[Machine.bufferObj Host.smallProto 0 4 token, array ⟨.uint16, 0, 2⟩,
          array ⟨.uint16, 2, 1⟩]
        regions := #[⟨#[1, 2, 3, 4]⟩] }
      ledger := [4, 5, 9, 10, 11].foldl (fun l id => l.add (.value (.object id))) {} } }

/-- The host displays them. -/
theorem smallDisplay_displays (token : Option UInt64) :
    (smallDisplay token).Displays smallFacade 0 Host.smallProto := by
  -- It has three objects more than the small host, and all that was there before.
  have hspares : Machine.Spares (fun _ => True) Host.smallHost.engine.machine
      (smallDisplay token).engine.machine := by
    refine .of_grows ?_ (fun id hid => ?_) rfl rfl
    · change 9 ≤ 12
      decide
    · exact congrArg (·.getD {}) (Array.getElem?_append_left hid)
  have hserves : (smallDisplay token).engine.machine.Serves
      (Contexts.entry (smallDisplay token).contexts 0).cache Host.smallProto 0 :=
    Host.smallHost_serves.ready.serves.spared hspares fun _ _ => trivial
  have hbuffer : (smallDisplay token).engine.machine.HasBuffer Host.smallProto 9 0 ⟨#[1, 2, 3, 4]⟩ := by
    refine ⟨⟨token, rfl⟩, ?_, rfl⟩
    intro id b hbody _
    have hspecial : (smallDisplay token).engine.machine.body id ≠ .ordinary := by simp [hbody]
    have hlt : id < 12 := Machine.lt_of_body hspecial
    interval_cases id <;> first | rfl | cases hbody
  constructor
  case live => rfl
  case stands =>
    refine ⟨0, hserves, hbuffer.isBuffer, hbuffer.knows hserves, Nat.le_refl 4, ?_⟩
    intro t w ht
    rcases List.mem_pair.1 ht with ht | ht <;> cases ht <;>
      exact ⟨hserves.knows_typed rfl rfl rfl, rfl⟩
  case limit => decide
  case windows =>
    intro w hw
    rcases List.mem_pair.1 hw with rfl | rfl <;> exact ⟨⟨by decide, by decide⟩, rfl⟩
  case held =>
    have hheld : ∀ id ∈ (Contexts.entry Host.smallHost.contexts 0).cache.objects ++ [9, 10, 11],
        0 < (smallDisplay none).engine.ledger.count (.value (.object id)) := by decide
    exact hheld

theorem smallDisplay_bytes (token : Option UInt64) :
    (Host.toByteArray (smallFacade.handle 9) (smallDisplay token)).1 = .ok ⟨#[1, 2, 3, 4]⟩ := by
  have hdisplays := smallDisplay_displays token
  rcases holds_of_displays hdisplays with ⟨g, bytes, hholds⟩
  have hbytes : bytes = ⟨#[1, 2, 3, 4]⟩ := by
    rcases hholds.machine.buffer.body with ⟨token', hbody⟩
    cases hbody
    exact hholds.machine.bytes.symm.trans rfl
  rw [← hbytes]
  exact (wholeBytes_tells hdisplays.live rfl (fun id hid => List.mem_dedup.2 hid)
    hholds.machine.serves.untouched.buffers.1).fst rfl hholds

end Facade

end ScriptHost
