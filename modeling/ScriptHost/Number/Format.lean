import ScriptHost.Number.Shortest
import ScriptHost.Text.Units
/-!
# Numbers as script text

Shortest digits are written positionally while the decimal point stands at most 21 places right of
the first digit or at most 5 zeros left of it, and with an exponent otherwise.  The fixed and
significant-digit forms round exactly, halves away from zero.
-/

namespace ScriptHost

namespace NumberText

/-- Lays out decimal digits with their point as script text. -/
def layout (digits : List Char) (point : Int) : String :=
  let k : Int := digits.length
  if k ≤ point && point ≤ 21 then
    String.ofList (digits ++ List.replicate (point - k).toNat '0')
  else if 0 < point && point ≤ 21 then
    String.ofList (digits.take point.toNat ++ '.' :: digits.drop point.toNat)
  else if -6 < point && point ≤ 0 then
    String.ofList ('0' :: '.' :: (List.replicate (-point).toNat '0' ++ digits))
  else
    let e := point - 1
    let expo := (if e < 0 then "e-" else "e+") ++ toString e.natAbs
    match digits with
    | [d] => d.toString ++ expo
    | d :: ds => d.toString ++ "." ++ String.ofList ds ++ expo
    | [] => expo

/-- The script text of a number. -/
def ofFloat (d : Float) : String :=
  match Binary.shape d with
  | .nan => "NaN"
  | .infinite neg => if neg then "-Infinity" else "Infinity"
  | .finite neg m q =>
    if m == 0 then "0"
    else
      let dec := Shortest.ofScaled .nearest m q
      (if neg then "-" else "") ++ layout dec.chars dec.point

/-- `n / d` rounded to nearest, halves upward. -/
def roundHalfUp (n d : Nat) : Nat := (2 * n + d) / (2 * d)

/-- A natural in decimal digits, filled with zeros on the left up to `width`. -/
def padded (width n : Nat) : List Char :=
  let cs := Nat.toDigits 10 n
  List.replicate (width - cs.length) '0' ++ cs

/-- `m · 2 ^ q` with `places` digits after the point. -/
def fixed (neg : Bool) (m : Nat) (q : Int) (places : Nat) : String :=
  let (n, d) := Shortest.ratio m q (-(places : Int))
  let r := roundHalfUp n d
  let cs := padded (places + 1) r
  let whole := cs.take (cs.length - places)
  let frac := cs.drop (cs.length - places)
  let body := if places == 0 then String.ofList whole
    else String.ofList whole ++ "." ++ String.ofList frac
  if neg && r != 0 then "-" ++ body else body

/-- The first `count` digits of `m · 2 ^ q`, rounded, with the place of the point. -/
def significant (m : Nat) (q : Int) (count : Nat) : List Char × Int :=
  if m == 0 then (List.replicate count '0', 1)
  else
    let point := Shortest.pointOf m q
    let (n, d) := Shortest.ratio m q (point - count)
    let r := roundHalfUp n d
    if r ≥ tenTo count then (padded count (r / 10), point + 1) else (padded count r, point)

/-- Digits in exponent form. -/
def scientific (neg : Bool) (digits : List Char) (point : Int) : String :=
  let e := point - 1
  let mant := match digits with
    | [] => "0"
    | [c] => c.toString
    | c :: cs => c.toString ++ "." ++ String.ofList cs
  (if neg then "-" else "") ++ mant ++ (if e < 0 then "e-" else "e+") ++ toString e.natAbs

/-- `m · 2 ^ q` with `count` significant digits, positional where it is short. -/
def precise (neg : Bool) (m : Nat) (q : Int) (count : Nat) : String :=
  let (digits, point) := significant m q count
  if point < -5 || point > count then scientific neg digits point
  else
    let body :=
      if point ≤ 0 then "0." ++ String.ofList (List.replicate (-point).toNat '0' ++ digits)
      else if point == (count : Int) then String.ofList digits
      else String.ofList (digits.take point.toNat) ++ "." ++ String.ofList (digits.drop point.toNat)
    (if neg then "-" else "") ++ body

/-- Digits above nine are letters: `Nat.toDigits` with the letters up to the last. -/
def digitChar36 (n : Nat) : Char :=
  if n < 10 then Char.ofNat (48 + n) else Char.ofNat (87 + n)

/-- The digits of a natural in a base up to 36, least first. -/
def digitsRev (base : Nat) : Nat → Nat → List Char
  | 0, _ => []
  | fuel + 1, n =>
      if n < base then [digitChar36 n] else digitChar36 (n % base) :: digitsRev base fuel (n / base)

/-- A natural in a base up to 36. -/
def natInBase (base n : Nat) : String :=
  if base == 10 then toString n
  else String.ofList (digitsRev base (n.log2 + 2) n).reverse

/-- The largest number up to which all integers are numbers. -/
def largestExact : Nat := 9007199254740991

/-- The digits of a large whole number in a base, least first; those that are not sure are zeros. -/
def wholeDigits (base : Nat) : Nat → Float → List Nat
  | 0, _ => []
  | fuel + 1, d =>
    if d < base.toFloat then [d.toUInt64.toNat]
    else
      let next := (d / base.toFloat).floor
      let exact := match Binary.shape d with
        | .finite _ m q => m * twoTo q.toNat / twoTo (-q).toNat
        | _ => 0
      (if next ≥ largestExact.toFloat then 0 else exact % base) :: wholeDigits base fuel next

/-- The digits of a fraction below one in a base, last first, with what is left of it.  `n` is the
number that the digits so far make, and no digits come once that is large. -/
def fractionDigits (base : Nat) : Nat → Float → Nat → List Nat → List Nat × Float
  | 0, frac, _, acc => (acc, frac)
  | fuel + 1, frac, n, acc =>
    if frac == 0 || n > largestExact / 2 then (acc, frac)
    else
      let x := frac * base.toFloat
      let digit := x.floor.toUInt64.toNat
      fractionDigits base fuel (x - x.floor) (n * base + digit) (digit :: acc)

/-- How many places in a base hold the smallest number. -/
def mostPlaces (base : Nat) : Nat := ((1074 / base.toFloat.log2).ceil).toUInt64.toNat

/-- A positive number in a base other than ten. -/
def positiveInBase (base : Nat) (d : Float) : String :=
  if d.floor > largestExact.toFloat then
    String.ofList ((wholeDigits base 1100 d.floor).reverse.map digitChar36)
  else
    let whole := d.floor.toUInt64.toNat
    let (digits, left) := fractionDigits base (mostPlaces base) (d - d.floor) whole []
    if left * base.toFloat ≥ (base / 2).toFloat then
      match digits.dropWhile (· + 1 == base) with
      | [] => natInBase base (whole + 1)
      | x :: xs => write whole ((x + 1) :: xs)
    else write whole (digits.dropWhile (· == 0))
where
  /-- A whole part and the digits of a fraction, last first. -/
  write (whole : Nat) (digits : List Nat) : String :=
    if digits.isEmpty then natInBase base whole
    else natInBase base whole ++ "." ++ String.ofList (digits.reverse.map digitChar36)

/-- A finite number in a base other than ten. -/
def inBase (base : Nat) (d : Float) : String :=
  if d < 0 then "-" ++ positiveInBase base (-d) else positiveInBase base d

/-- An integer in a base up to 36. -/
def intInBase (base : Nat) (v : Int) : String :=
  if v < 0 then "-" ++ natInBase base v.natAbs else natInBase base v.natAbs

end NumberText

end ScriptHost
