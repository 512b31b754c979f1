import ScriptHost.Number.Power
/-!
# Binary floating point, read on its bits

A finite number is `± m · 2 ^ q` with naturals `m` and an integer `q`.  This file reads that form
off the bits, writes it back with rounding to nearest and ties to even for any width of the
format, and derives the exact conversions between numbers and integers from it.
-/

namespace ScriptHost

namespace Binary

/-- A floating point number taken apart. -/
inductive Shape where
  /-- Not a number. -/
  | nan
  /-- An infinity; `neg` tells which. -/
  | infinite (neg : Bool)
  /-- The number `m · 2 ^ q`, negated if `neg`. -/
  | finite (neg : Bool) (m : Nat) (q : Int)
deriving DecidableEq, Repr

/-- A format: bits of the fraction and bits of the exponent field. -/
structure Format where
  /-- Bits of the fraction. -/
  fraction : Nat
  /-- Bits of the exponent. -/
  exponent : Nat
  /-- What the fraction of a NaN is when it is written. -/
  quiet : Nat
deriving DecidableEq, Repr

/-- Half precision. -/
def half : Format := ⟨10, 5, 1⟩
/-- Single precision. -/
def single : Format := ⟨23, 8, twoTo 22⟩
/-- Double precision. -/
def double : Format := ⟨52, 11, twoTo 51⟩

namespace Format

/-- The offset that the exponent field carries. -/
def bias (f : Format) : Nat := twoTo (f.exponent - 1) - 1

/-- The exponent of the unit in the last place of the smallest numbers. -/
def minQuantum (f : Format) : Int := 1 - (f.bias : Int) - f.fraction

/-- Takes the bits of a number apart. -/
def decode (f : Format) (bits : Nat) : Shape :=
  let frac := bits % twoTo f.fraction
  let expo := bits / twoTo f.fraction % twoTo f.exponent
  let neg := bits / twoTo (f.fraction + f.exponent) % 2 == 1
  if expo == twoTo f.exponent - 1 then
    if frac == 0 then .infinite neg else .nan
  else if expo == 0 then .finite neg frac f.minQuantum
  else .finite neg (twoTo f.fraction + frac) (f.minQuantum + (expo - 1 : Nat))

/-- `n / 2 ^ k`, rounded to nearest, ties to even. -/
def shiftRound (n k : Nat) : Nat :=
  let d := twoTo k
  let quot := n / d
  let rem := n % d
  if 2 * rem > d || (2 * rem == d && quot % 2 == 1) then quot + 1 else quot

/-- The bits of an infinity without its sign. -/
def infinityBits (f : Format) : Nat := (twoTo f.exponent - 1) * twoTo f.fraction

/-- The sign bit, if set. -/
def signBits (f : Format) (neg : Bool) : Nat :=
  if neg then twoTo (f.fraction + f.exponent) else 0

/-- The bits of `± m · 2 ^ q`, rounded to nearest, ties to even. -/
def encode (f : Format) (neg : Bool) (m : Nat) (q : Int) : Nat :=
  if m == 0 then f.signBits neg
  else
    let top : Int := (m.log2 : Int) + q
    let lowest : Int := 1 - (f.bias : Int)
    let quantum : Int := max top lowest - f.fraction
    let shift := q - quantum
    let s := if 0 ≤ shift then m * twoTo shift.toNat else shiftRound m (-shift).toNat
    let field := (quantum - f.minQuantum).toNat
    let bits := field * twoTo f.fraction + s
    f.signBits neg + (if bits ≥ f.infinityBits then f.infinityBits else bits)

/-- The bits of any number taken apart. -/
def encodeShape (f : Format) : Shape → Nat
  | .nan => f.infinityBits + f.quiet
  | .infinite neg => f.signBits neg + f.infinityBits
  | .finite neg m q => f.encode neg m q

end Format

/-- A number taken apart. -/
def shape (d : Float) : Shape := double.decode d.toBits.toNat

/-- The number nearest to `± m · 2 ^ q`, ties to even. -/
def ofScaled (neg : Bool) (m : Nat) (q : Int) : Float :=
  Float.ofBits (UInt64.ofNat (double.encode neg m q))

/-- The number nearest to an integer, ties to even. -/
def ofInt (v : Int) : Float := ofScaled (v < 0) v.natAbs 0

/-- The number nearest to `± num / den`, ties to even.  The quotient is taken to 64 bits beyond
the precision of the format, with a last bit that tells whether anything was left. -/
def ofRatio (neg : Bool) (num den : Nat) : Float :=
  if num == 0 then ofScaled neg 0 0
  else
    let shift : Int := 120 - ((num.log2 : Int) - den.log2)
    let n := if 0 ≤ shift then num * twoTo shift.toNat else num
    let d := if 0 ≤ shift then den else den * twoTo (-shift).toNat
    let quot := n / d
    let sticky := if n % d == 0 then 0 else 1
    ofScaled neg (2 * quot + sticky) (-shift - 1)

/-- The integer part of `± m · 2 ^ q`, toward zero. -/
def truncScaled (neg : Bool) (m : Nat) (q : Int) : Int :=
  let n := if 0 ≤ q then m * twoTo q.toNat else m / twoTo (-q).toNat
  if neg then -(n : Int) else n

/-- The integer part of a number, toward zero; none for what is not finite. -/
def trunc? (d : Float) : Option Int :=
  match shape d with
  | .finite neg m q => some (truncScaled neg m q)
  | _ => none

/-- The representative of an integer modulo `2 ^ n` in `[-2 ^ (n-1), 2 ^ (n-1))`. -/
def wrapSigned (n : Nat) (v : Int) : Int := Int.bmod v (twoTo n)

/-- The integer part of a number modulo `2 ^ 32`, signed; zero for what is not finite. -/
def toInt32 (d : Float) : Int32 := Int32.ofInt (wrapSigned 32 ((trunc? d).getD 0))

/-- The integer part of a number modulo `2 ^ 64`, signed; zero for what is not finite. -/
def toInt64 (d : Float) : Int64 := Int64.ofInt (wrapSigned 64 ((trunc? d).getD 0))

/-- Whether a number is an integer, and which. -/
def asInteger? (d : Float) : Option Int :=
  match shape d with
  | .finite neg m q =>
    if 0 ≤ q then some (truncScaled neg m q)
    else if m % twoTo (-q).toNat == 0 then some (truncScaled neg m q) else none
  | _ => none

/-- Whether a number is zero with its sign bit set. -/
def isNegZero (d : Float) : Bool := d.toBits == 0x8000000000000000

/-- Not a number. -/
def nan : Float := Float.ofBits 0x7FF8000000000000
/-- Positive infinity. -/
def infinity : Float := Float.ofBits 0x7FF0000000000000
/-- Negative infinity. -/
def negInfinity : Float := Float.ofBits 0xFFF0000000000000
/-- Negative zero. -/
def negZero : Float := Float.ofBits 0x8000000000000000

/-- A number rounded to another format, as the bits of that format. -/
def narrow (f : Format) (d : Float) : Nat := f.encodeShape (shape d)

/-- The number that bits of another format stand for. -/
def widen (f : Format) (bits : Nat) : Float :=
  Float.ofBits (UInt64.ofNat (double.encodeShape (f.decode bits)))

/-- The number without its fraction, toward zero; the sign of zero is kept. -/
def truncate (d : Float) : Float :=
  match shape d with
  | .finite neg m q => if 0 ≤ q then d else ofScaled neg (m / twoTo (-q).toNat) 0
  | _ => d

end Binary

end ScriptHost
