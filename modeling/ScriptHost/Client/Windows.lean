import Mathlib.Algebra.Order.Ring.Int
import Mathlib.Algebra.Order.Ring.Nat
import ScriptHost.Buffer.Element
import ScriptHost.Client.Elements
import ScriptHost.Host.Properties
/-!
# Typed arrays that look at parts of one buffer

A host may have many typed arrays over the same buffer, each with a window onto some of its bytes, and
the windows may overlap.  It can write elements through the typed arrays, and single bytes into memory
that it works on in place.
-/

namespace ScriptHost

/-- The integer that a numeric value stands for, without its fraction. -/
def Value.integer? : Value → Option Int
  | .int n => some n.toInt
  | .float d => Binary.trunc? d
  | .bigint n => some n
  | _ => none

namespace ElementKind

/-- Whether an element is an integer modulo a power of two. -/
def wraps : ElementKind → Bool
  | int8 | uint8 | int16 | uint16 | int32 | uint32 | bigInt64 | bigUint64 => true
  | _ => false

/-- An element of a kind is made of a value, whatever the machine is like, and nothing comes of it. -/
def Makes (k : ElementKind) (v x : Value) : Prop :=
  ∀ I m, Eval.toElement k v I m = .ok x m

/-- A byte of an integer modulo `2 ^ (8 · size)`, the least first. -/
def wrappedByte (size : Nat) (z : Int) (q : Nat) : UInt8 :=
  UInt8.ofNat ((z % 2 ^ (8 * size)).toNat / 256 ^ q % 256)

end ElementKind

/-- The part of a buffer that a typed array looks at: some elements of a kind. -/
structure Window where
  kind : ElementKind
  offset : Nat
  count : Nat
deriving DecidableEq, Inhabited, Repr

namespace Window

variable (w : Window)

/-- How many bytes there are. -/
def size : Nat := w.count * w.kind.size

/-- Where an element begins. -/
def place (i : Nat) : Nat := w.offset + i * w.kind.size

/-- What a typed array with this window is. -/
def view (b g : Nat) : TypedView :=
  { kind := w.kind, buffer := b, offset := w.offset, length := w.size, tracks := false
    count := w.count, region := some g }

/-- Whole elements, within a buffer of so many bytes. -/
structure Fits (n : Nat) : Prop where
  aligned : w.kind.size ∣ w.offset
  within : w.offset + w.size ≤ n

end Window

/-! ## Edits -/

/-- A write to a buffer that some typed arrays look at, which are numbered. -/
inductive Edit where
  /-- An element of a typed array becomes a value. -/
  | element (array i : Nat) (v : Value)
  /-- A byte in place, among those of a typed array or of the whole buffer. -/
  | byte (array : Option Nat) (pos : Nat) (x : UInt8)
deriving Inhabited

namespace Edit

/-- Where an edit writes. -/
def start (ws : List Window) : Edit → Nat
  | element j i _ => (ws.getD j default).place i
  | byte none pos _ => pos
  | byte (some j) pos _ => (ws.getD j default).offset + pos

/-- How many bytes an edit writes. -/
def length (ws : List Window) : Edit → Nat
  | element j _ _ => (ws.getD j default).kind.size
  | byte _ _ _ => 1

/-- Edits that are in range.  What becomes an element is no object. -/
inductive Fits (n : Nat) (ws : List Window) : Edit → Prop
  | element {j i : Nat} {v x : Value} {w : Window} (hw : ws[j]? = some w) (hi : i < w.count)
      (hv : v.isObject = false) (hx : w.kind.Makes v x) : Fits n ws (.element j i v)
  | byte {pos : Nat} {x : UInt8} (hpos : pos < n) : Fits n ws (.byte none pos x)
  | arrayByte {j pos : Nat} {x : UInt8} {w : Window} (hw : ws[j]? = some w) (hpos : pos < w.size) :
      Fits n ws (.byte (some j) pos x)

/-- What an edit makes of bytes: it leaves those alone that it does not write, a byte is there
afterwards, and so are the bytes of an integer where elements are integers modulo a power of two. -/
structure Changes (ws : List Window) (e : Edit) (old new : ByteArray) : Prop where
  size : new.size = old.size
  outside : ∀ q, q < e.start ws ∨ e.start ws + e.length ws ≤ q → new.data[q]? = old.data[q]?
  byte : ∀ j pos x, e = .byte j pos x → new.data[e.start ws]? = some x
  element : ∀ j i v x z w, e = .element j i v → ws[j]? = some w → w.kind.wraps = true →
    w.kind.Makes v x → x.integer? = some z → ∀ q < w.kind.size,
      new.data[w.place i + q]? = some (ElementKind.wrappedByte w.kind.size z q)

end Edit

/-! ## Buffers with their typed arrays -/

/-- A buffer of a context and typed arrays over it, each with its window. -/
structure Facade where
  context : ContextId
  buffer : Nat
  /-- How many bytes the buffer has. -/
  size : Nat
  arrays : List (Nat × Window)
deriving Inhabited

namespace Facade

variable (f : Facade)

/-- The windows, numbered as the typed arrays are. -/
def windows : List Window := f.arrays.map Prod.snd

/-- The handle of an object. -/
def handle (id : Nat) : Handle := ⟨f.context, .object id⟩

/-- The handle by which an edit in place finds its bytes. -/
def source : Option Nat → Handle
  | none => f.handle f.buffer
  | some j => f.handle (f.arrays.getD j default).1

/-- Carries an edit out. -/
def edit : Edit → Action ScriptEngine Unit
  | .element j i v =>
    Host.set (f.handle (f.arrays.getD j default).1) (.index i) ⟨f.context, v⟩
  | .byte j pos x => do Host.writeView (← Host.byteView (f.source j)) pos ⟨#[x]⟩

/-- Carries edits out, the first one first. -/
def edits (es : List Edit) : Action ScriptEngine Unit := es.forM f.edit

/-- All bytes are read as they are: by the buffer itself, and by each typed array those in the part of
the buffer that it says it looks at. -/
structure Coheres (s : Host ScriptEngine) (bytes : ByteArray) : Prop where
  buffer : (Host.toByteArray (f.handle f.buffer) s).1 = .ok bytes
  arrays : ∀ t w, (t, w) ∈ f.arrays → ∃ info s', Host.arrayInfo (f.handle t) s = (.ok info, s') ∧
    info.buffer = f.handle f.buffer ∧ info.offset = w.offset ∧ info.length = w.size ∧
    (Host.toByteArray (f.handle t) s).1 =
      .ok (bytes.extract info.offset (info.offset + info.length))

/-- What an engine has of a buffer and its typed arrays: the built-in objects are as they were made,
and nothing was done to the objects themselves. -/
structure Stands (m : Machine) (x : Cache) (proto : Intrinsic → Nat) (r : RealmId) (g : Nat) :
    Prop where
  serves : m.Serves x proto r
  buffer : m.IsBuffer f.buffer g f.size
  known : m.Knows x proto .bufferPrototype f.buffer
  memory : f.size ≤ (m.region g).size
  arrays : ∀ t w, (t, w) ∈ f.arrays → m.Knows x proto (.elementPrototype w.kind) t ∧
    m.body t = .typed (w.view f.buffer g)

end Facade

/-- A host has a buffer and typed arrays over it, in a live context. -/
structure Host.Displays (s : Host ScriptEngine) (f : Facade) (r : RealmId)
    (proto : Intrinsic → Nat) : Prop where
  live : (Contexts.entry s.contexts f.context).realm = some r
  stands : ∃ g, f.Stands s.engine.machine (Contexts.entry s.contexts f.context).cache proto r g
  limit : f.size ≤ Builtin.bufferLimit
  windows : ∀ w ∈ f.windows, w.Fits f.size ∧
    ((Contexts.entry s.contexts f.context).cache.elements w.kind).isObject = true
  held : ∀ id ∈ (Contexts.entry s.contexts f.context).cache.objects ++
    f.buffer :: f.arrays.map Prod.fst, 0 < s.engine.ledger.count (.value (.object id))

end ScriptHost
