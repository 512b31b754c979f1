import ScriptHost.Builtin.Numbers
import ScriptHost.Engine.Source
import ScriptHost.Json.Reader
/-!
# Global functions

The evaluator, the readers of numbers, and the codes for texts in addresses.
-/

namespace ScriptHost

namespace Builtin

open Eval

/-! ## Texts in addresses -/

/-- Whether a unit is one of the given characters. -/
def isAmong (chars : String) (u : UInt16) : Bool := chars.toList.contains (Json.charOf u)

/-- Whether a unit is a letter or digit. -/
def isAlnum (u : UInt16) : Bool := u < 128 && (Json.charOf u).isAlphanum

/-- Characters that part an address. -/
def addressMarks : String := ";/?:@&=+$,#"

/-- Whether a unit stands for itself in an address, or in a part of one. -/
def plainInAddress (part : Bool) (u : UInt16) : Bool :=
  isAlnum u || isAmong "-_.!~*'()" u || (!part && isAmong addressMarks u)

/-- Two upper-case hexadecimal digits. -/
def hexByte (n : Nat) : String :=
  let digits := (Nat.toDigits 16 n).map Char.toUpper
  String.ofList (List.replicate (2 - digits.length) '0' ++ digits)

/-- The bytes of a code point. -/
def pointBytes (n : Nat) : List Nat :=
  if n < 0x80 then [n]
  else if n < 0x800 then [0xC0 + n / 64, 0x80 + n % 64]
  else if n < 0x10000 then [0xE0 + n / 4096, 0x80 + n / 64 % 64, 0x80 + n % 64]
  else [0xF0 + n / 262144, 0x80 + n / 4096 % 64, 0x80 + n / 64 % 64, 0x80 + n % 64]

/-- Writes a text for an address; the message if it cannot be written. -/
def encodeAddress (part : Bool) (t : Text) : Except String Text :=
  t.points.foldlM (fun out p =>
    if p < 0x10000 && plainInAddress part (UInt16.ofNat p) then .ok (out.push (UInt16.ofNat p))
    else if 0xDC00 ≤ p && p < 0xE000 then .error "invalid character"
    else if 0xD800 ≤ p && p < 0xDC00 then .error "expecting surrogate pair"
    else .ok (out ++ txt (String.join ((pointBytes p).map fun b => "%" ++ hexByte b)))) Text.empty

/-- The value of hexadecimal digits from a place on. -/
def hexAt? (t : Text) (start count : Nat) : Option Nat :=
  let cs := (t.slice start (start + count)).toAsciiList
  if cs.length == count && cs.all (fun c => Numeral.digitValue c < 16) then
    some (Numeral.ofDigits 16 cs)
  else none

/-- The byte that an escape at a place writes; the message if there is none. -/
def byteAt (t : Text) (i : Nat) : Except String Nat :=
  if t.at' i != 37 then .error "expecting %"
  else
    match hexAt? t (i + 1) 2 with
    | some b => .ok b
    | none => .error "expecting hex digit"

/-- The code point that bytes after a first byte write, zero if they do not fit. -/
def followingBytes (t : Text) : Nat → Nat → Nat → Except String Nat
  | 0, _, n => .ok n
  | count + 1, i, n => do
    let b ← byteAt t i
    if b / 64 != 2 then .ok 0 else followingBytes t count (i + 3) (n * 64 + b % 64)

/-- Reads a text from an address; the message if it cannot be read. -/
def decodeAddress (part : Bool) (t : Text) : Except String Text :=
  go (t.size + 1) 0 Text.empty
where
  /-- The same from a place on. -/
  go : Nat → Nat → Text → Except String Text
    | 0, _, out => .ok out
    | fuel + 1, i, out => do
      if i ≥ t.size then return out
      if t.at' i != 37 then go fuel (i + 1) (out.push (UInt16.ofNat (t.at' i)))
      else
        let b ← byteAt t i
        if b < 0x80 then
          if !part && isAmong addressMarks (UInt16.ofNat b) then go fuel (i + 1) (out.push 37)
          else go fuel (i + 3) (out.push (UInt16.ofNat b))
        else
          -- How many bytes follow, and the least point that needs so many: shorter forms are
          -- refused.
          let (count, least, first) :=
            if 0xC0 ≤ b && b < 0xE0 then (1, 0x80, b % 32)
            else if 0xE0 ≤ b && b < 0xF0 then (2, 0x800, b % 16)
            else if 0xF0 ≤ b && b < 0xF8 then (3, 0x10000, b % 8)
            else (0, 1, 0)
          let n ← followingBytes t count (i + 3) first
          if n < least || n > 0x10FFFF || (0xD800 ≤ n && n < 0xE000) then .error "malformed UTF-8"
          else go fuel (i + 3 * (count + 1)) (out.pushPoint n)

/-- A result, or an error about an address. -/
def orAddressError (r : Except String Text) : Eval Value := do
  match r with
  | .ok t => pure (.string t)
  | .error m => raise .uri m

/-- Writes a text with its special units escaped. -/
def escapeText (t : Text) : Text :=
  t.units.foldl (fun out u =>
    if isAlnum u || isAmong "@*_+-./" u then out.push u
    else if u < 256 then out ++ txt ("%" ++ hexByte u.toNat)
    else out ++ txt ("%u" ++ hexByte (u.toNat / 256) ++ hexByte (u.toNat % 256))) Text.empty

/-- Reads a text with escaped units. -/
def unescapeText (t : Text) : Text :=
  go (t.size + 1) 0 Text.empty
where
  /-- The same from a place on. -/
  go : Nat → Nat → Text → Text
    | 0, _, out => out
    | fuel + 1, i, out =>
      if i ≥ t.size then out
      else if t.at' i != 37 then go fuel (i + 1) (out.push (UInt16.ofNat (t.at' i)))
      else
        let long := if t.at' (i + 1) == 117 then hexAt? t (i + 2) 4 else none
        match long, hexAt? t (i + 1) 2 with
        | some n, _ => go fuel (i + 6) (out.push (UInt16.ofNat n))
        | none, some n => go fuel (i + 3) (out.push (UInt16.ofNat n))
        | none, none => go fuel (i + 1) (out.push 37)

/-! ## Functions -/

/-- Evaluates text as a script. -/
def evaluate (c : NativeCall) : Eval Value := do
  match c.arg 0 with
  | .string t => do
    if !(← get).currentRealm.hasEval then typeError "eval is not supported"
    evalIndirect t
  | v => pure v

/-- Functions of the global object; the evaluator comes first. -/
def globals : Array Native := #[
  method "eval" 1 evaluate,
  method "parseInt" 2 parseIntOf,
  method "parseFloat" 1 parseFloatOf,
  method "isNaN" 1 fun c => do pure (.bool (← toFloat (c.arg 0)).isNaN),
  method "isFinite" 1 fun c => do pure (.bool (← toFloat (c.arg 0)).isFinite),
  method "queueMicrotask" 1 fun c => do
    let f ← functionArg c 0
    Mem.enqueue (.finalize f .undefined)
    pure .undefined,
  method "decodeURI" 1 fun c => do orAddressError (decodeAddress false (← toText (c.arg 0))),
  method "decodeURIComponent" 1 fun c => do
    orAddressError (decodeAddress true (← toText (c.arg 0))),
  method "encodeURI" 1 fun c => do orAddressError (encodeAddress false (← toText (c.arg 0))),
  method "encodeURIComponent" 1 fun c => do
    orAddressError (encodeAddress true (← toText (c.arg 0))),
  method "escape" 1 fun c => do pure (.string (escapeText (← toText (c.arg 0)))),
  method "unescape" 1 fun c => do pure (.string (unescapeText (← toText (c.arg 0))))]

end Builtin

end ScriptHost
