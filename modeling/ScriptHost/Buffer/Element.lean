import ScriptHost.Buffer.ElementKind
import ScriptHost.Engine.Value
/-!
# Elements as bytes

How a number is laid out in memory as an element of a kind, the byte of least weight first, and how
it is read back.
-/

namespace ScriptHost

namespace ElementKind

/-- The bytes of a natural, the least first. -/
def littleBytes : Nat → Nat → List UInt8
  | 0, _ => []
  | n + 1, v => UInt8.ofNat (v % 256) :: littleBytes n (v / 256)

/-- The natural that bytes write, the least first. -/
def ofLittle : List UInt8 → Nat
  | [] => 0
  | b :: bs => b.toNat + 256 * ofLittle bs

/-- An integer modulo `2 ^ (8 · size)`. -/
def wrapNat (size : Nat) (v : Int) : Nat := (v % (twoTo (8 * size) : Int)).toNat

/-- A number rounded to the nearest integer between 0 and 255, halves to even. -/
def clampByte (d : Float) : Nat :=
  if d.isNaN then 0
  else if d ≤ 0 then 0
  else if d ≥ 255 then 255
  else
    match Binary.shape d with
    | .finite _ m q => if 0 ≤ q then m * twoTo q.toNat else Binary.Format.shiftRound m (-q).toNat
    | _ => 0

/-- The bits of a number as an element. -/
def bitsOfNumber (k : ElementKind) (d : Float) : Nat :=
  match k with
  | uint8Clamped => clampByte d
  | float16 => Binary.narrow Binary.half d
  | float32 => Binary.narrow Binary.single d
  | float64 => d.toBits.toNat
  | k => wrapNat k.size ((Binary.trunc? d).getD 0)

/-- The bits of a value that was made numeric as an element. -/
def bitsOf (k : ElementKind) (v : Value) : Nat :=
  match v with
  | .bigint n => wrapNat k.size n
  | v => k.bitsOfNumber (v.number?.getD Binary.nan)

/-- The bytes of a value that was made numeric. -/
def encode (k : ElementKind) (v : Value) : List UInt8 := littleBytes k.size (k.bitsOf v)

/-- The value that bits stand for. -/
def decodeBits (k : ElementKind) (n : Nat) : Value :=
  match k with
  | uint8Clamped | uint8 | uint16 | uint32 => Value.ofNat n
  | int8 | int16 | int32 => Value.ofInt (Int.bmod n (twoTo (8 * k.size)))
  | bigInt64 => .bigint (Int.bmod n (twoTo 64))
  | bigUint64 => .bigint n
  | float16 => Value.ofFloat (Binary.widen Binary.half n)
  | float32 => Value.ofFloat (Binary.widen Binary.single n)
  | float64 => Value.ofFloat (Float.ofBits (UInt64.ofNat n))

/-- The bytes of memory from a position on; those past the end are zero. -/
def bytesAt (b : ByteArray) (pos n : Nat) : List UInt8 :=
  (List.range n).map fun i => (b.data[pos + i]?).getD 0

/-- The element at a position of memory. -/
def readAt (k : ElementKind) (b : ByteArray) (pos : Nat) : Value :=
  k.decodeBits (ofLittle (bytesAt b pos k.size))

/-- Memory with bytes from a position on; those past the end are dropped. -/
def writeBytes (b : ByteArray) (pos : Nat) : List UInt8 → ByteArray
  | [] => b
  | x :: xs => writeBytes (if h : pos < b.size then b.set pos x h else b) (pos + 1) xs

/-- Memory with an element at a position. -/
def writeAt (k : ElementKind) (b : ByteArray) (pos : Nat) (v : Value) : ByteArray :=
  writeBytes b pos (k.encode v)

end ElementKind

end ScriptHost
