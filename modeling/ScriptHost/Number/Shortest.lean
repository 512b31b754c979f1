import ScriptHost.Number.Binary64
/-!
# The fewest decimal digits that read back

Every finite number other than zero is nearest to some decimal numeral; this file finds the
shortest one, and among the shortest the nearest.  For each count of digits it looks at the two
neighbours of the number on the decimal grid with that many digits, in exact arithmetic.  Where
numerals must also be nearest to the number, only the nearer neighbour counts.
-/

namespace ScriptHost

namespace Shortest

/-- A decimal numeral `0.d₁d₂…dₖ · 10 ^ point`, with `digits` its digits as one natural. -/
structure Decimal where
  /-- The digits, read as a natural. -/
  digits : Nat
  /-- How many digits there are. -/
  count : Nat
  /-- Where the decimal point stands, counted from before the first digit. -/
  point : Int
deriving DecidableEq, Repr

/-- `a · 2 ^ q · 10 ^ -k` as a fraction. -/
def ratio (a : Nat) (q k : Int) : Nat × Nat :=
  (a * twoTo q.toNat * tenTo (-k).toNat, twoTo (-q).toNat * tenTo k.toNat)

/-- The position of the decimal point of `m · 2 ^ q`: the least `k` with `m · 2 ^ q < 10 ^ k`. -/
def pointOf (m : Nat) (q : Int) : Int :=
  let guess : Int := Int.fdiv (((m.log2 : Int) + q) * 30103) 100000
  let below := fun (k : Int) => let (n, d) := ratio m q k; decide (n < d)
  if below (guess - 1) then guess - 1
  else if below guess then guess
  else if below (guess + 1) then guess + 1
  else guess + 2

/-- Which numerals that read back count. -/
inductive Choice where
  /-- Any of them. -/
  | any
  /-- Only those that no other with as many digits is nearer than; of two the even one. -/
  | nearest
deriving DecidableEq, Repr

/-- The numeral of `count` digits that lies in the rounding interval of `m · 2 ^ q`, the nearer if
both neighbours do.  `low` and `high` are the ends of the interval in quarters of `2 ^ q`, which
belong to it if `closed`. -/
def onGrid (choice : Choice) (m : Nat) (q : Int) (low high : Nat) (closed : Bool) (point : Int)
    (count : Nat) : Option Nat :=
  let grid := point - count
  let (n, d) := ratio m q grid
  let down := n / d
  let inside := fun (x : Nat) =>
    -- compares x · 10 ^ grid with the ends, both scaled by four
    let (ln, ld) := ratio low (q - 2) grid
    let (hn, hd) := ratio high (q - 2) grid
    if closed then decide (ln ≤ x * ld) && decide (x * hd ≤ hn)
    else decide (ln < x * ld) && decide (x * hd < hn)
  let up := down + 1
  let rem := n % d
  let nearDown := 2 * rem < d || (2 * rem == d && down % 2 == 0)
  if rem == 0 then some down
  else
    match inside down && down != 0, inside up with
    | true, true => if nearDown then some down else some up
    | true, false => if nearDown || choice == .any then some down else none
    | false, true => if !nearDown || choice == .any then some up else none
    | false, false => none

/-- Tries counts of digits upward. -/
def search (choice : Choice) (m : Nat) (q : Int) (low high : Nat) (closed : Bool) (point : Int) :
    Nat → Nat → Decimal
  | 0, count => ⟨m, count, point⟩
  | fuel + 1, count =>
    match onGrid choice m q low high closed point count with
    | some x =>
      if x == tenTo count then ⟨1, 1, point + 1⟩ else ⟨x, count, point⟩
    | none => search choice m q low high closed point fuel (count + 1)

/-- The shortest numeral that reads back as `m · 2 ^ q`, for a double with `m` other than zero. -/
def ofScaled (choice : Choice) (m : Nat) (q : Int) : Decimal :=
  let narrowBelow := m == twoTo 52 && q > -1074
  let low := if narrowBelow then 4 * m - 1 else 4 * m - 2
  search choice m q low (4 * m + 2) (m % 2 == 0) (pointOf m q) 20 1

/-- The digits as characters, without trailing zeros. -/
def Decimal.chars (d : Decimal) : List Char :=
  let cs := Nat.toDigits 10 d.digits
  let cs := List.replicate (d.count - cs.length) '0' ++ cs
  (cs.reverse.dropWhile (· == '0')).reverse

end Shortest

end ScriptHost
