import ScriptHost.Number.Binary64
import ScriptHost.Text.Blank
/-!
# Reading numerals

Decimal numerals are read exactly and rounded once.  The readers work on characters; a unit
outside ASCII is never part of a numeral, so the passage from units to characters loses nothing
that matters here.
-/

namespace ScriptHost

namespace Numeral

/-- Whether a character is a digit. -/
def isDigit (c : Char) : Bool := '0' ≤ c && c ≤ '9'

/-- The value of a digit or letter in bases up to 36; 36 for anything else. -/
def digitValue (c : Char) : Nat :=
  if '0' ≤ c && c ≤ '9' then c.toNat - 48
  else if 'a' ≤ c && c ≤ 'z' then c.toNat - 87
  else if 'A' ≤ c && c ≤ 'Z' then c.toNat - 55
  else 36

/-- The natural that digits write in a base. -/
def ofDigits (base : Nat) (cs : List Char) : Nat :=
  cs.foldl (fun n c => n * base + digitValue c) 0

/-- The number `± n · 10 ^ e`, rounded once. -/
def scale10 (neg : Bool) (n : Nat) (e : Int) : Float :=
  if n == 0 then Binary.ofScaled neg 0 0
  else
    let size : Int := (n.log2 : Int) * 30103 / 100000 + e
    if size > 400 then (if neg then Binary.negInfinity else Binary.infinity)
    else if size < -400 then Binary.ofScaled neg 0 0
    else if 0 ≤ e then Binary.ofRatio neg (n * tenTo e.toNat) 1
    else Binary.ofRatio neg n (tenTo (-e).toNat)

/-- An exponent part `e±ddd`, if one stands at the front. -/
def scanExponent (cs : List Char) : Int × List Char :=
  match cs with
  | c :: rest =>
    if c == 'e' || c == 'E' then
      let (neg, rest) := match rest with
        | '-' :: r => (true, r)
        | '+' :: r => (false, r)
        | r => (false, r)
      let ds := rest.takeWhile isDigit
      if ds.isEmpty then (0, cs)
      else
        let n := ofDigits 10 (ds.dropWhile (· == '0') |>.take 9)
        ((if neg then -(n : Int) else n), rest.dropWhile isDigit)
    else (0, cs)
  | [] => (0, [])

/-- A decimal numeral without sign at the front of the text, with what follows it. -/
def scanDecimal? (neg : Bool) (cs : List Char) : Option (Float × List Char) :=
  let whole := cs.takeWhile isDigit
  let rest := cs.dropWhile isDigit
  let (frac, rest') := match rest with
    | '.' :: r => (r.takeWhile isDigit, r.dropWhile isDigit)
    | r => ([], r)
  if whole.isEmpty && frac.isEmpty then none
  else
    let (e, rest'') := scanExponent rest'
    some (scale10 neg (ofDigits 10 (whole ++ frac)) (e - frac.length), rest'')

/-- Letters at the front of the text. -/
def startsWith (word : List Char) (cs : List Char) : Bool := word.isPrefixOf cs

/-- A decimal numeral or an infinity, with its sign, at the front of the text. -/
def scanSigned? (cs : List Char) : Option (Float × List Char) :=
  let (neg, body) := match cs with
    | '-' :: r => (true, r)
    | '+' :: r => (false, r)
    | r => (false, r)
  if startsWith "Infinity".toList body then
    some (if neg then Binary.negInfinity else Binary.infinity, body.drop 8)
  else scanDecimal? neg body

/-- The base that a mark after a leading zero names. -/
def markedBase? (c : Char) : Option Nat :=
  if c == 'x' || c == 'X' then some 16
  else if c == 'o' || c == 'O' then some 8
  else if c == 'b' || c == 'B' then some 2
  else none

/-- The number that a whole text writes; none if it is not a numeral.  Blanks at the ends do not
count, and the empty text is zero. -/
def ofText? (t : Text) : Option Float :=
  let cs := t.trim.toAsciiList
  match cs with
  | [] => some (Binary.ofScaled false 0 0)
  | '0' :: c :: rest =>
    match markedBase? c with
    | some base =>
      if !rest.isEmpty && rest.all (fun d => digitValue d < base) then
        some (Binary.ofInt (ofDigits base rest))
      else none
    | none =>
      match scanSigned? cs with
      | some (d, []) => some d
      | _ => none
  | _ =>
    match scanSigned? cs with
    | some (d, []) => some d
    | _ => none

/-- The integer that a whole text writes; none if it is not an integer numeral. -/
def integerOfText? (t : Text) : Option Int :=
  let cs := t.trim.toAsciiList
  let decimal := fun (neg : Bool) (ds : List Char) =>
    if !ds.isEmpty && ds.all isDigit then
      some (if neg then -(ofDigits 10 ds : Int) else ofDigits 10 ds)
    else none
  match cs with
  | [] => some 0
  | '-' :: ds => decimal true ds
  | '+' :: ds => decimal false ds
  | '0' :: c :: rest =>
    match markedBase? c with
    | some base =>
      if !rest.isEmpty && rest.all (fun d => digitValue d < base) then
        some (ofDigits base rest)
      else none
    | none => decimal false cs
  | ds => decimal false ds

end Numeral

end ScriptHost
