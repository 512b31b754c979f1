import ScriptHost.Proofs.Identifying
import ScriptHost.Proofs.Instances
/-!
# Buffers and typed arrays, made and looked at

What the constructors of an untouched context do to the machine: a buffer is one new object with new
memory, a typed array is one new object over a buffer, and a length that does not fit throws a range
error.  A host is told of a buffer, and of a typed array over it, where it begins, how far it reaches,
and the bytes there.  Looking leaves everything that is known of the engine as it was.
-/

namespace ScriptHost

namespace Machine

variable {m m' : Machine} {x : Cache} {proto : Intrinsic → Nat} {r : RealmId} {id b t g : Nat}
  {k : ElementKind} {bs : ByteArray} {roots : List Node}

/-! ## Buffers and views -/

/-- The object of a buffer that was made for bytes. -/
def bufferObj (proto : Intrinsic → Nat) (g : RegionId) (n : Nat) (token : Option UInt64) : Obj :=
  { body := .buffer { region := some g, length := n, token := token }
    proto := some (proto .bufferPrototype) }

/-- The object of a typed array that was made over a whole buffer. -/
def viewObj (proto : Intrinsic → Nat) (k : ElementKind) (b : Nat) (g : RegionId) (n : Nat) : Obj :=
  { body := .typed ⟨k, b, 0, n, false, n / k.size, some g⟩
    proto := some (proto (.elementPrototype k)) }

/-- A buffer that was made for bytes and still has them, in memory that no other buffer shows. -/
structure HasBuffer (m : Machine) (proto : Intrinsic → Nat) (b : Nat) (g : RegionId)
    (bs : ByteArray) : Prop where
  obj : ∃ token, m.obj b = bufferObj proto g bs.size token
  sole : ∀ id b', m.body id = .buffer b' → b'.region = some g → id = b
  bytes : (m.region g).extract 0 bs.size = bs

/-- A typed array that was made over a whole buffer. -/
def HasView (m : Machine) (proto : Intrinsic → Nat) (k : ElementKind) (b : Nat) (g : RegionId)
    (n t : Nat) : Prop := m.obj t = viewObj proto k b g n

/-- A buffer that is held keeps its memory when other things are freed. -/
theorem IsBuffer.sheds {n : Nat} (h : m.IsBuffer b g n)
    (hs : m.Sheds (fun id => m.Held roots (.object id)) m') (hheld : m.Held roots (.object b)) :
    m'.IsBuffer b g n ∧ m'.obj b = m.obj b ∧ m'.region g = m.region g := by
  rcases h.body with ⟨token, hbody⟩
  have hweak : (m.body b).isWeak = false := by simp [hbody, Body.isWeak]
  have hobj : m'.obj b = m.obj b := (hs.stays b hheld).eq hweak
  refine ⟨⟨⟨token, ?_⟩, ?_⟩, hobj, ?_⟩
  · rw [Machine.body, hobj]
    exact hbody
  · intro id b' hb' hregion
    exact h.sole id b' (hs.body_buffer hb') hregion
  · -- Only this buffer shows the memory, and it is not freed.
    refine hs.region g fun id b' hb' hg => ?_
    rw [h.sole id b' hb' hg]
    exact hheld

/-- A typed array is not changed when other things are freed, and holds its buffer. -/
theorem IsView.sheds {n : Nat} {v : TypedView} (h : m.IsView b g n v t)
    (hs : m.Sheds (fun id => m.Held roots (.object id)) m') (hheld : m.Held roots (.object t)) :
    m'.IsView b g n v t ∧ m'.obj t = m.obj t ∧ m.Held roots (.object b) := by
  have hweak : (m.body t).isWeak = false := by simp [h.body, Body.isWeak]
  have hobj : m'.obj t = m.obj t := (hs.stays t hheld).eq hweak
  have hbody : m'.body t = .typed v := by
    rw [Machine.body, hobj]
    exact h.body
  refine ⟨{ h with body := hbody }, hobj, ?_⟩
  · refine .object hheld hweak (mem_refs_body ?_)
    simp [h.body, Node.ofBody, h.buffer]

theorem body_of_heap (hheap : m'.heap = m.heap) (id : Nat) : m'.body id = m.body id := by
  rw [Machine.body, Machine.obj, hheap, Machine.body, Machine.obj]

theorem IsBuffer.of_heap {n : Nat} (h : m.IsBuffer b g n) (hheap : m'.heap = m.heap) :
    m'.IsBuffer b g n := by
  refine ⟨?_, fun id b' hb' => h.sole id b' ?_⟩
  · rw [body_of_heap hheap]
    exact h.body
  · rwa [body_of_heap hheap] at hb'

theorem IsView.of_heap {n : Nat} {v : TypedView} (h : m.IsView b g n v t)
    (hheap : m'.heap = m.heap) : m'.IsView b g n v t := by
  have hbody : m'.body t = .typed v := by
    rw [body_of_heap hheap]
    exact h.body
  exact { h with body := hbody }

theorem HasBuffer.isBuffer (h : m.HasBuffer proto b g bs) : m.IsBuffer b g bs.size := by
  rcases h.obj with ⟨token, hobj⟩
  exact ⟨⟨token, by rw [body, hobj]; rfl⟩, h.sole⟩

theorem HasBuffer.lt (h : m.HasBuffer proto b g bs) : b < m.heap.size := by
  rcases h.isBuffer.body with ⟨token, hbody⟩
  exact lt_of_body (by simp [hbody])

theorem HasBuffer.sheds (h : m.HasBuffer proto b g bs)
    (hs : m.Sheds (fun id => m.Held roots (.object id)) m') (hheld : m.Held roots (.object b)) :
    m'.HasBuffer proto b g bs := by
  rcases h.isBuffer.sheds hs hheld with ⟨hbuffer, hobj, hregion⟩
  refine ⟨?_, hbuffer.sole, ?_⟩
  · rw [hobj]
    exact h.obj
  · rw [hregion]
    exact h.bytes

theorem HasView.isView {n : Nat} (h : m.HasView proto k b g n t) (hsize : k.size ∣ n) :
    m.IsView b g n ⟨k, b, 0, n, false, n / k.size, some g⟩ t where
  body := by
    rw [body, h]
    rfl
  buffer := rfl
  region := rfl
  tracks := rfl
  within := by simp
  count := (Nat.div_mul_cancel hsize).symm

theorem HasView.lt {n : Nat} (h : m.HasView proto k b g n t) : t < m.heap.size := by
  refine lt_of_body ?_
  rw [body, h]
  rintro ⟨⟩

/-! ## Machines with one object more -/

/-- The machine with one object more. -/
def withObj (m : Machine) (o : Obj) : Machine := { m with heap := m.heap.push o }

@[simp] theorem obj_withObj (o : Obj) : (m.withObj o).obj m.heap.size = o := by
  simp [obj, withObj]

theorem obj_withObj_ne (o : Obj) (hid : id ≠ m.heap.size) : (m.withObj o).obj id = m.obj id := by
  simp [obj, withObj, Array.getElem?_push, hid]

theorem spares_withObj (m : Machine) (o : Obj) : Spares (fun _ => True) m (m.withObj o) :=
  .of_grows (by simp [withObj]) (fun _ hid => obj_withObj_ne o (Nat.ne_of_lt hid)) rfl rfl

/-- New objects that are no buffers leave buffers alone. -/
theorem HasBuffer.grows (h : m.HasBuffer proto b g bs) (hb : m'.obj b = m.obj b)
    (hbuffers : ∀ id b', m'.body id = .buffer b' → m.body id = .buffer b')
    (hregions : m'.region g = m.region g) : m'.HasBuffer proto b g bs := by
  refine ⟨?_, ?_, ?_⟩
  · rw [hb]
    exact h.obj
  · intro id b' hb' hregion
    exact h.sole id b' (hbuffers id b' hb') hregion
  · rw [hregions]
    exact h.bytes

end Machine

namespace Eval

open Machine (HasBuffer HasView bufferObj viewObj withObj)

variable {I : Interp} {m m₁ : Machine} {x : Cache} {proto : Intrinsic → Nat} {r : RealmId}
  {f b t g n depth : Nat} {k : ElementKind} {bs : ByteArray} {p : Option Nat}

/-! ## Errors -/

/-- The object of an error with a message. -/
def errorObj (m : Machine) (kind : ErrorKind) (message : Text) : Obj :=
  { body := .error
    proto := m.intrinsic? (errorIntrinsic kind)
    props := (({} : PropertyTable).put (Key.str "message") (.hidden (.string message))).put
      (Key.str "stack") (.hidden (.string (traceText m 0))) }

/-- The machine with a new error. -/
def raised (m : Machine) (kind : ErrorKind) (message : Text) : Machine :=
  let put (name : String) (v : Value) (o : Obj) : Obj :=
    { o with props := o.props.put (Key.str name) (.hidden v) }
  ((m.withObj { body := .error, proto := m.intrinsic? (errorIntrinsic kind) }).update m.heap.size
    (put "message" (.string message))).update m.heap.size
    (put "stack" (.string (traceText m 0)))

theorem throwText_eq {α : Type} (kind : ErrorKind) (message : Text) :
    (throwText kind message : Eval α) I m = .error (.object m.heap.size) (raised m kind message) :=
  rfl

theorem raise_eq {α : Type} (kind : ErrorKind) (message : String) :
    (raise kind message : Eval α) I m = .error (.object m.heap.size) (raised m kind (txt message)) :=
  rfl

@[simp] theorem size_raised (kind : ErrorKind) (message : Text) :
    (raised m kind message).heap.size = m.heap.size + 1 := by
  simp [raised, Machine.update, withObj]

@[simp] theorem obj_raised (kind : ErrorKind) (message : Text) :
    (raised m kind message).obj m.heap.size = errorObj m kind message := by
  have hsize : ∀ o : Obj, m.heap.size < (m.withObj o).heap.size := by simp [withObj]
  rw [raised, Machine.obj_update, if_pos ⟨rfl, by simp [Machine.update, withObj]⟩,
    Machine.obj_update, if_pos ⟨rfl, hsize _⟩, Machine.obj_withObj]
  rfl

theorem obj_raised_ne (kind : ErrorKind) (message : Text) {id : Nat} (hid : id ≠ m.heap.size) :
    (raised m kind message).obj id = m.obj id := by
  rw [raised, Machine.obj_update, if_neg (fun h => hid h.1.symm), Machine.obj_update,
    if_neg (fun h => hid h.1.symm), Machine.obj_withObj_ne _ hid]

/-! ## Room -/

/-- Where there is room it is found, at most after properties were counted anew. -/
theorem reserve_room (hroom : m.HasRoom n) :
    ∃ c, reserve n I m = .ok () { m with propertyBytes := c } := by
  unfold reserve
  rw [get_bind]
  cases hlimit : m.limits.memory with
  | none => exact ⟨m.propertyBytes, rfl⟩
  | some limit =>
      dsimp only
      rw [get_bind]
      by_cases hfull : bytesInUse m + n > limit
      · have hcounted : bytesInUse (countProperties m) + n ≤ limit :=
          (hroom limit hlimit).resolve_left (Nat.not_le.2 hfull)
        refine ⟨(countProperties m).propertyBytes, ?_⟩
        rw [if_pos hfull]
        have hcount : (modify countProperties : Eval Unit) I m = .ok () (countProperties m) := rfl
        refine (bind_of_ok hcount).trans ?_
        rw [get_bind, if_neg (Nat.not_lt.2 hcounted)]
        rfl
      · rw [if_neg hfull]
        exact ⟨m.propertyBytes, rfl⟩

/-! ## Buffers -/

/-- A buffer over bytes is one new object with new memory. -/
theorem bufferOf_eq (token : Option UInt64) (hroom : m.HasRoom bs.size)
    (hproto : m.intrinsic? .bufferPrototype = some (proto .bufferPrototype)) :
    ∃ m', ScriptEngine.bufferOf bs token I m = .ok (.object m.heap.size) m' ∧
      m'.heap = m.heap.push (bufferObj proto m.regions.size bs.size token) ∧
      m'.regions = m.regions.push bs ∧ m'.realms = m.realms ∧ m'.limits = m.limits := by
  rcases reserve_room (I := I) hroom with ⟨c, hreserve⟩
  unfold ScriptEngine.bufferOf
  rw [bind_of_ok hreserve]
  cases token with
  | none => exact ⟨_, rfl, by rw [bufferObj, ← hproto]; rfl, rfl, rfl, rfl⟩
  | some token => exact ⟨_, rfl, by rw [bufferObj, ← hproto]; rfl, rfl, rfl, rfl⟩

/-- The same for a buffer of zeros, which has memory for a byte at least. -/
theorem newBuffer_eq (hroom : m.HasRoom n) (hlimit : n ≤ Builtin.bufferLimit) (p : Option Nat) :
    ∃ m', Builtin.newBuffer n none false p I m = .ok m.heap.size m' ∧
      m'.heap = m.heap.push
        { body := .buffer { region := some m.regions.size, length := n }, proto := p } ∧
      m'.regions = m.regions.push (Builtin.zeros (max n 1)) ∧ m'.realms = m.realms ∧
      m'.limits = m.limits ∧ m'.realm = m.realm := by
  rcases reserve_room (I := I) hroom with ⟨c, hreserve⟩
  have hfits : (decide (n > Builtin.bufferLimit) || decide (n > Builtin.bufferLimit)) = false := by
    simpa using hlimit
  unfold Builtin.newBuffer
  dsimp only
  rw [Option.getD_none, hfits, if_neg Bool.false_ne_true, bind_of_ok hreserve]
  exact ⟨_, rfl, rfl, rfl, rfl, rfl, rfl⟩

/-! ## Typed arrays -/

theorem protoFor_eq {i : Intrinsic} (h : m.Makes f n) :
    protoFor (.object f) i I m = .ok (some n) m := by
  have hprototype : getNamed f "prototype" I m = .ok (.object n) m := getOf_prototype h
  unfold protoFor
  dsimp only
  rw [bind_of_ok hprototype]
  rfl

/-- The machine with a typed array over a whole buffer. -/
def withView (m : Machine) (k : ElementKind) (b : Nat) (g : RegionId) (n : Nat) (p : Option Nat) :
    Machine :=
  m.withObj { body := .typed ⟨k, b, 0, n, false, n / k.size, some g⟩, proto := p }

theorem newTyped_eq : Builtin.newTyped k b 0 n false (some g) p I m =
    .ok m.heap.size (withView m k b g n p) := rfl

/-- A typed array over a whole buffer is one new object if whole elements fill the buffer; otherwise
a range error is thrown. -/
theorem typedOver_eq {buffer : Buffer} (hbody : m.body b = .buffer buffer)
    (hregion : buffer.region = some g) (hmax : buffer.maxLength = none) :
    Builtin.typedOver k b buffer .undefined .undefined p I m =
      if k.size ∣ buffer.length then .ok m.heap.size (withView m k b g buffer.length p)
      else .error (.object m.heap.size) (raised m .range (txt "invalid length")) := by
  have hbody' : body b I m = .ok (.buffer buffer) m := by
    rw [← hbody]
    rfl
  have hoffset : toIndex .undefined "invalid offset" I m = .ok 0 m := rfl
  have hundefined : Value.undefined.isUndefined = true := rfl
  have hasked : (pure none : Eval (Option Nat)) I m = .ok none m := rfl
  unfold Builtin.typedOver
  rw [bind_of_ok hoffset, Nat.zero_mod, if_neg (by simp)]
  dsimp only
  rw [if_pos hundefined, bind_of_ok hasked, bind_of_ok hbody']
  dsimp only
  rw [hregion, if_neg (by simp), if_neg (by simp), hmax, if_neg (by simp), Nat.sub_zero]
  -- Without an offset and a length, only the length of the buffer can be at fault.
  by_cases hfits : k.size ∣ buffer.length
  · have hmod : (buffer.length % k.size != 0) = false := by
      simpa using Nat.dvd_iff_mod_eq_zero.1 hfits
    rw [hmod, if_neg Bool.false_ne_true, if_pos hfits]
    exact newTyped_eq
  · have hmod : (buffer.length % k.size != 0) = true := by
      simpa [Nat.dvd_iff_mod_eq_zero] using hfits
    rw [hmod, if_pos rfl, if_neg hfits]
    rfl

/-! ## Constructing typed arrays -/

variable {data : Array Value}

/-- The constructor of a kind is given a buffer. -/
theorem elementConstructor_eq {buffer : Buffer} (hf : m.Makes f n)
    (hbody : m.body b = .buffer buffer) (hregion : buffer.region = some g)
    (hmax : buffer.maxLength = none) :
    Builtin.elementConstructor k ⟨.undefined, #[.object b], .object f, f, data⟩ I m =
      if k.size ∣ buffer.length then
        .ok (.object m.heap.size) (withView m k b g buffer.length (some n))
      else .error (.object m.heap.size) (raised m .range (txt "invalid length")) := by
  have hneeds : Builtin.needsNew ⟨.undefined, #[.object b], .object f, f, data⟩ I m = .ok () m := rfl
  have hbody' : body b I m = .ok (.buffer buffer) m := by
    rw [← hbody]
    rfl
  have hover : Builtin.typedOver k b buffer .undefined .undefined (some n) I m = _ :=
    typedOver_eq hbody hregion hmax
  unfold Builtin.elementConstructor
  rw [bind_of_ok hneeds]
  change (body b >>= _) I m = _
  rw [bind_of_ok hbody']
  dsimp only
  rw [bind_of_ok (protoFor_eq hf)]
  -- From here on it is the typed array over the buffer, whichever way that ends.
  change (Builtin.typedOver k b buffer .undefined .undefined (some n) >>= _) I m = _
  by_cases hfits : k.size ∣ buffer.length
  · rw [if_pos hfits] at hover ⊢
    rw [bind_of_ok hover]
    rfl
  · rw [if_neg hfits] at hover ⊢
    exact bind_of_error hover

theorem ofInt_natCast (hlimit : n ≤ Builtin.bufferLimit) : Value.ofInt n = .int (Int32.ofInt n) := by
  have hbound : Builtin.bufferLimit = 2147483647 := rfl
  have hpower : (twoTo 31 : Int) = 2147483648 := rfl
  unfold Value.ofInt
  rw [hpower, if_pos]
  simp
  omega

theorem toInt_ofInt (hlimit : n ≤ Builtin.bufferLimit) : (Int32.ofInt n).toInt = n := by
  have hbound : Builtin.bufferLimit = 2147483647 := rfl
  exact Int32.toInt_ofInt_of_le (by omega) (by omega)

/-- A number of elements as an argument. -/
theorem toIndex_int {z : Int32} (hz : z.toInt = n) (hlimit : n ≤ Builtin.bufferLimit)
    (message : String) : toIndex (.int z) message I m = .ok n m := by
  have hbound : Builtin.bufferLimit = 2147483647 := rfl
  have hmax : maxLength = 9007199254740991 := rfl
  have hinteger : toInteger (.int z) I m = .ok (n : Int) m := by
    rw [← hz]
    rfl
  unfold toIndex
  rw [bind_of_ok hinteger, if_neg]
  · rfl
  · simp [hmax]
    omega

/-- A typed array of zeros is two new objects: a buffer and a typed array over it. -/
theorem typedOfLength_eq (hproto : m.intrinsic? .bufferPrototype = some (proto .bufferPrototype))
    (hlimit : n * k.size ≤ Builtin.bufferLimit) (hroom : m.HasRoom (n * k.size)) :
    ∃ m', Builtin.typedOfLength k n (some (proto (.elementPrototype k))) I m =
        .ok (m.heap.size + 1) m' ∧
      m'.heap = (m.heap.push (bufferObj proto m.regions.size (n * k.size) none)).push
        (viewObj proto k m.heap.size m.regions.size (n * k.size)) ∧
      m'.regions = m.regions.push (Builtin.zeros (max (n * k.size) 1)) ∧ m'.realms = m.realms ∧
      m'.limits = m.limits := by
  rcases newBuffer_eq (I := I) hroom hlimit (some (proto .bufferPrototype)) with
    ⟨m₁, hbuffer, hheap, hregions, hrealms, hlimits, -⟩
  have hintrinsic : intrinsic .bufferPrototype I m = .ok (some (proto .bufferPrototype)) m := by
    rw [← hproto]
    rfl
  -- The buffer that was just made is the last object.
  have hbody : body m.heap.size I m₁ =
      .ok (.buffer { region := some m.regions.size, length := n * k.size }) m₁ := by
    have hobj : m₁.body m.heap.size =
        .buffer { region := some m.regions.size, length := n * k.size } := by
      simp [Machine.body, Machine.obj, hheap]
    rw [← hobj]
    rfl
  refine ⟨withView m₁ k m.heap.size m.regions.size (n * k.size)
    (some (proto (.elementPrototype k))), ?_, ?_, hregions, hrealms, hlimits⟩
  · unfold Builtin.typedOfLength
    rw [bind_of_ok hintrinsic, bind_of_ok hbuffer, bind_of_ok hbody]
    dsimp only
    rw [newTyped_eq, hheap, Array.size_push]
  · rw [withView, withObj, hheap]
    rfl

/-- The constructor of a kind is given a length. -/
theorem elementConstructor_length {z : Int32} (hz : z.toInt = n)
    (hf : m.Makes f (proto (.elementPrototype k)))
    (hproto : m.intrinsic? .bufferPrototype = some (proto .bufferPrototype))
    (hlimit : n * k.size ≤ Builtin.bufferLimit) (hroom : m.HasRoom (n * k.size)) :
    ∃ m', (∀ data, Builtin.elementConstructor k ⟨.undefined, #[.int z], .object f, f, data⟩ I m =
        .ok (.object (m.heap.size + 1)) m') ∧
      m'.heap = (m.heap.push (bufferObj proto m.regions.size (n * k.size) none)).push
        (viewObj proto k m.heap.size m.regions.size (n * k.size)) ∧
      m'.regions = m.regions.push (Builtin.zeros (max (n * k.size) 1)) ∧ m'.realms = m.realms ∧
      m'.limits = m.limits := by
  -- A number of elements is a small integer, for there are at least as many bytes.
  have hsmall : n ≤ Builtin.bufferLimit := by
    have hsize : 0 < k.size := by cases k <;> decide
    calc
      n ≤ n * k.size := Nat.le_mul_of_pos_right n hsize
      _ ≤ Builtin.bufferLimit := hlimit
  have hfits : ¬n * k.size > Builtin.bufferLimit := Nat.not_lt.2 hlimit
  rcases typedOfLength_eq (I := I) (k := k) hproto hlimit hroom with ⟨m', hmade, hrest⟩
  refine ⟨m', fun data => ?_, hrest⟩
  have hneeds : Builtin.needsNew ⟨.undefined, #[.int z], .object f, f, data⟩ I m = .ok () m := rfl
  have harg : NativeCall.arg ⟨.undefined, #[.int z], .object f, f, data⟩ 0 = .int z := rfl
  unfold Builtin.elementConstructor
  rw [bind_of_ok hneeds, harg]
  dsimp only
  rw [bind_of_ok (toIndex_int hz hsmall _), if_neg hfits, bind_of_ok (protoFor_eq hf),
    bind_of_ok hmade]
  rfl

/-! ## Looking at buffers and typed arrays -/

section Looking

variable (data) {v : TypedView} (hb : m.IsBuffer b g n)
include hb

theorem needBuffer_eq (shared : Option Bool) (hshared : shared ≠ some true) :
    ∃ token, Builtin.needBuffer (.object b) shared I m =
      .ok (b, { region := some g, length := n, token := token }) m := by
  rcases hb.body with ⟨token, hbody⟩
  have hbody' : Builtin.bodyOf (.object b) I m =
      .ok (some (b, .buffer { region := some g, length := n, token := token })) m := by
    rw [← hbody]
    rfl
  refine ⟨token, ?_⟩
  unfold Builtin.needBuffer
  rw [bind_of_ok hbody']
  rcases shared with _ | _ | _
  · rfl
  · rfl
  · exact absurd rfl hshared

omit hb in
/-- A buffer tells how many bytes it has. -/
theorem byteLength_eq {buffer : Buffer} (hbody : m.body b = .buffer buffer)
    (hshared : buffer.shared = false) :
    Builtin.byteLength false ⟨.object b, #[], .undefined, f, data⟩ I m =
      .ok (Value.ofNat buffer.length) m := by
  have hfound : Builtin.bodyOf (.object b) I m = .ok (some (b, .buffer buffer)) m := by
    rw [← hbody]
    rfl
  have hneed : Builtin.needBuffer (.object b) (some false) I m = .ok (b, buffer) m := by
    unfold Builtin.needBuffer
    rw [bind_of_ok hfound]
    dsimp only
    rw [hshared]
    rfl
  unfold Builtin.byteLength
  rw [bind_of_ok hneed]
  rfl

/-- The host is shown the memory of a buffer. -/
theorem regionOf_eq : ScriptEngine.regionOf (.object b) I m = .ok ⟨g, n⟩ m := by
  rcases needBuffer_eq hb none (by simp) with ⟨token, hneed⟩
  unfold ScriptEngine.regionOf
  rw [bind_of_ok hneed]
  rfl

variable (ht : m.IsView b g n v t)
include ht

omit hb in
theorem needTyped_eq : Builtin.needTyped (.object t) I m = .ok (t, v) m := by
  have hbody : Builtin.bodyOf (.object t) I m = .ok (some (t, .typed v)) m := by
    rw [← ht.body]
    rfl
  exact bind_of_ok hbody

/-- A view of bytes that the buffer has is in reach. -/
theorem viewLost_eq : Builtin.viewLost m v = false := by
  rcases hb.body with ⟨token, hbody⟩
  have hwithin := ht.within
  simp [Builtin.viewLost, ht.buffer, hbody, ht.tracks]
  omega

/-- A typed array tells how many elements it has. -/
theorem elementCount_eq : Builtin.elementCount ⟨.object t, #[], .undefined, f, data⟩ I m =
    .ok (Value.ofNat v.count) m := by
  unfold Builtin.elementCount
  rw [bind_of_ok (needTyped_eq ht)]
  dsimp only
  rw [get_bind, get_bind, viewLost_eq hb ht]
  rfl

/-- The host is told what a typed array looks at. -/
theorem viewOf_eq : ScriptEngine.viewOf (.object t) I m =
    .ok ⟨.object b, v.offset, v.length, v.kind.size⟩ m := by
  have hreach : Builtin.reachTyped (.object t) I m = .ok (t, v) m := by
    unfold Builtin.reachTyped
    rw [bind_of_ok (needTyped_eq ht)]
    dsimp only
    rw [get_bind, viewLost_eq hb ht]
    rfl
  unfold ScriptEngine.viewOf
  rw [bind_of_ok hreach]
  dsimp only
  rw [ht.tracks, ht.buffer]
  rfl

end Looking

end Eval

namespace Host

open ScriptEngine (Lasting Holds)
open Machine (Serves Knows IsBuffer IsView)

variable {X : Contexts} {c : ContextId} {r : RealmId} {held : List Nat} {I : Machine → Prop}
  {x : Cache} {proto : Intrinsic → Nat} {b g n t : Nat} {v : TypedView} {k : ElementKind}
  {bytes : ByteArray}

/-! ## Memory -/

section Memory

variable (hr : (X.entry c).realm = some r) (hlasting : Lasting held I)
include hlasting

/-- Bytes that are in the memory of a buffer are read there. -/
theorem readView_tells {s : SharedBytes}
    (hI : ∀ m, I m → (m.region s.region).extract s.offset (s.offset + s.length) = bytes) :
    Tells X held I (readView s) bytes := by
  refine ask_tells hlasting ⟨nofun, nofun⟩ rfl fun e he => ⟨e.machine, ?_, he⟩
  rw [← hI _ he]
  rfl

include hr

/-- A view of a buffer begins where it was asked to, in the memory of the buffer. -/
theorem byteViewOf_tells (hI : ∀ m, I m → m.IsBuffer b g n) (offset : Nat) (length : Option Nat) :
    Tells X held I (byteViewOf ⟨c, .object b⟩ offset length) ⟨g, offset, length.getD n⟩ := by
  have hasked : Tells X held I (Host.ask (.bufferRegion r (.object b))) (some ⟨g, n⟩) := by
    refine ask_tells hlasting ⟨nofun, nofun⟩ rfl fun e he => ?_
    have hbuffer := hI _ (hlasting.started (r := r) he)
    exact ⟨_, ScriptEngine.run_reads (Eval.regionOf_eq hbuffer), hlasting.started he⟩
  unfold byteViewOf
  exact Yields.live_bind hr (hasked.bind (Tells.bind Yields.orThrow Tells.pure))

end Memory

/-! ## Buffers -/

section Buffers

variable (hr : (X.entry c).realm = some r) (hlasting : Lasting held I)
  (hx : (X.entry c).cache = x)
  (hI : ∀ m, I m → m.Serves x proto r ∧ m.Knows x proto .bufferPrototype b ∧ m.IsBuffer b g n)
  (hbuffer : x.buffer.isObject = true)
include hr hlasting hx hI hbuffer

/-- All the bytes of a buffer are in view. -/
theorem bufferView_tells : Tells X held I (byteView ⟨c, .object b⟩) ⟨g, 0, n⟩ := by
  have hknown : ∀ m, I m → m.Serves x proto r ∧ m.Knows x proto .bufferPrototype b :=
    fun m hm => ⟨(hI m hm).1, (hI m hm).2.1⟩
  unfold byteView
  refine (isBuffer_tells hr hlasting hx hknown hbuffer).bind ?_
  exact byteViewOf_tells hr hlasting (fun m hm => (hI m hm).2.2) 0 none

theorem bufferBytes_tells (hbytes : ∀ m, I m → (m.region g).extract 0 n = bytes) :
    Tells X held I (toByteArray ⟨c, .object b⟩) bytes := by
  refine (bufferView_tells hr hlasting hx hI hbuffer).bind ?_
  refine readView_tells hlasting fun m hm => ?_
  rw [Nat.zero_add]
  exact hbytes m hm

end Buffers

/-! ## Typed arrays -/

section TypedArrays

variable (hr : (X.entry c).realm = some r) (hlasting : Lasting held I)
  (hx : (X.entry c).cache = x) (hk : (x.elements k).isObject = true)
  (hI : ∀ m, I m → m.Serves x proto r ∧ m.Knows x proto (.elementPrototype k) t ∧
    m.IsBuffer b g n ∧ m.IsView b g n v t)
include hr hlasting hx hk hI

/-- The host is told what a typed array looks at, and has a reference to the buffer then. -/
theorem arrayInfo_yields : Yields X (fun e => Holds e held I) (arrayInfo ⟨c, .object t⟩)
    fun i e => i = ⟨⟨c, .object b⟩, v.offset, v.length, v.kind.size⟩ ∧ Holds e (b :: held) I := by
  have hknown : ∀ m, I m → m.Serves x proto r ∧ m.Knows x proto (.elementPrototype k) t :=
    fun m hm => ⟨(hI m hm).1, (hI m hm).2.1⟩
  let info : ViewInfo := ⟨.object b, v.offset, v.length, v.kind.size⟩
  -- The engine is asked once the host knows that it is a typed array, and gives a reference.
  have hasked : Yields X (fun e => Holds e held I) (Host.ask (.viewInfo r (.object t)))
      fun i e => i = some info ∧ Holds e (b :: held) I := by
    refine Yields.ask fun e he => ?_
    have hmachine := hlasting.started (r := r) he.machine
    rcases hI _ hmachine with ⟨-, -, hbuffer, hview⟩
    have hcore : ScriptEngine.core (.viewInfo r (.object t)) e =
        (some info, { e with machine := e.machine.started r }) :=
      ScriptEngine.run_reads (Eval.viewOf_eq hbuffer hview)
    exact he.answer_gives (hlasting.mono fun _ => List.mem_cons_of_mem b) ⟨nofun, nofun⟩ hcore
      hmachine rfl rfl
  unfold arrayInfo
  refine (notBuffer_tells hr hlasting hx hknown).bind ?_
  refine (kindOf_tells hr hlasting hx hk hknown).bind ?_
  refine Yields.live_bind hr (hasked.bind fun i => ?_)
  intro s hX hs
  rcases hs with ⟨rfl, hs⟩
  exact ⟨_, s, rfl, hX, rfl, hs⟩

/-- A typed array shows its stretch of the memory of its buffer. -/
theorem typedView_tells :
    Tells X held I (byteView ⟨c, .object t⟩) ⟨g, v.offset, v.length⟩ := by
  have hknown : ∀ m, I m → m.Serves x proto r ∧ m.Knows x proto (.elementPrototype k) t :=
    fun m hm => ⟨(hI m hm).1, (hI m hm).2.1⟩
  have hlasting' : Lasting (b :: held) I := hlasting.mono fun _ => List.mem_cons_of_mem b
  unfold byteView
  refine (notBuffer_tells hr hlasting hx hknown).bind ?_
  refine (kindOf_tells hr hlasting hx hk hknown).bind ?_
  refine (arrayInfo_yields hr hlasting hx hk hI).bind fun i => ?_
  intro s hX hs
  rcases hs with ⟨rfl, hs⟩
  have hshown := byteViewOf_tells hr hlasting' (fun m hm => (hI m hm).2.2.1) v.offset (some v.length)
  exact Tells.holding (y := fun h => byteViewOf h v.offset (some v.length)) hr hlasting hshown s hX hs

theorem typedBytes_tells
    (hbytes : ∀ m, I m → (m.region g).extract v.offset (v.offset + v.length) = bytes) :
    Tells X held I (toByteArray ⟨c, .object t⟩) bytes :=
  (typedView_tells hr hlasting hx hk hI).bind (readView_tells hlasting hbytes)

end TypedArrays

end Host

end ScriptHost
