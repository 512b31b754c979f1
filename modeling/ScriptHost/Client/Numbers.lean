import Mathlib.Data.Rat.Floor
import ScriptHost.Number.Binary64
/-!
# Numbers of double precision as rational numbers

What the bits of a number stand for, which number of double precision is nearest to another number,
and what is left of a number without its fraction.  All of this is told without the arithmetic of the
engine.
-/

namespace ScriptHost

namespace Binary

/-- The bits of what is not a number. -/
def IsNaN (b : UInt64) : Prop := b.toNat / 2 ^ 52 % 2 ^ 11 = 2047 ∧ b.toNat % 2 ^ 52 ≠ 0

instance (b : UInt64) : Decidable (IsNaN b) := inferInstanceAs (Decidable (_ ∧ _))

/-- The number that bits stand for; none for the infinities and for what is not a number. -/
def value? (b : UInt64) : Option ℚ :=
  let expo : ℕ := b.toNat / 2 ^ 52 % 2 ^ 11
  let frac : ℕ := b.toNat % 2 ^ 52
  let sign : ℚ := if b.toNat / 2 ^ 63 = 1 then -1 else 1
  if expo = 2047 then none
  else if expo = 0 then some (sign * (frac * 2 ^ (-1074 : ℤ)))
  else some (sign * ((2 ^ 52 + frac) * 2 ^ ((expo : ℤ) - 1075)))

/-- A number of double precision is the nearest to another number.  If there are two that are as near
as each other, it is the one whose last bit is not set. -/
structure RoundsTo (v x : ℚ) : Prop where
  double : ∃ b, value? b = some x
  nearest : ∀ b y, value? b = some y → |v - x| ≤ |v - y|
  even : ∀ b y, value? b = some y → y ≠ x → |v - y| = |v - x| →
    ∃ b', value? b' = some x ∧ b'.toNat % 2 = 0

/-- A number without its fraction. -/
def towardZero (x : ℚ) : ℤ := if 0 ≤ x then ⌊x⌋ else ⌈x⌉

/-- What bits stand for, without its fraction; zero for the infinities and for what is not a
number. -/
def integerPart (b : UInt64) : ℤ := ((value? b).map towardZero).getD 0

end Binary

end ScriptHost
