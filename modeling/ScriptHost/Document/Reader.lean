import ScriptHost.Document.Basic
/-!
# Reading documents

A reader walks over the bytes of the text.  Numbers without fraction and exponent that fit into 64
bits are integers; any other number is made from its first digits by one multiplication or
division with a power of ten, which is fast and may miss the nearest number in the last place.
Failures name the line and the column, counted in bytes.
-/

namespace ScriptHost

namespace Document

/-- A reader: from a position in the text to a result and the next position, or to a failure. -/
abbrev Reader := ReaderT ByteArray (StateT Nat (Except String))

namespace Reader

/-- How deep arrays and objects may be nested. -/
def depthLimit : Nat := 128

/-- The byte at the current position, zero at the end. -/
def peek : Reader Nat := do
  let text ← read
  let i ← get
  pure (text[i]?.getD 0).toNat

/-- Whether the text is used up. -/
def atEnd : Reader Bool := do
  let text ← read
  pure ((← get) ≥ text.size)

/-- Goes one byte on. -/
def advance : Reader Unit := modify (· + 1)

/-- Line and column of a position: lines are counted from one, columns in bytes. -/
def placeOf (text : ByteArray) (stop : Nat) : Nat × Nat :=
  let rec go : Nat → Nat → Nat × Nat → Nat × Nat
    | 0, _, p => p
    | n + 1, i, (line, col) =>
      if (text[i]?.getD 0).toNat == 10 then go n (i + 1) (line + 1, 0)
      else go n (i + 1) (line, col + 1)
  go (min stop text.size) 0 (1, 0)

/-- A failure with the place where the reader stands. -/
def failHere {α : Type} (what : String) : Reader α := do
  let (line, col) := placeOf (← read) (← get)
  throw (what ++ " at line " ++ toString line ++ " column " ++ toString col)

/-- A failure with the place of the next byte. -/
def failAhead {α : Type} (what : String) : Reader α := do
  let (line, col) := placeOf (← read) ((← get) + 1)
  throw (what ++ " at line " ++ toString line ++ " column " ++ toString col)

/-- Goes on past blanks. -/
def skipBlanks : Reader Unit := do
  let text ← read
  let rec go : Nat → Nat → Nat
    | 0, i => i
    | n + 1, i =>
      let b := (text[i]?.getD 0).toNat
      if b == 32 || b == 10 || b == 9 || b == 13 then go n (i + 1) else i
  modify fun i => go (text.size - i) i

/-- Takes the letters of a word. -/
def word (w : String) : Reader Unit := do
  for c in w.toList do
    if ← atEnd then failHere "EOF while parsing a value"
    if (← peek) != c.toNat then
      advance
      failHere "expected ident"
    advance

/-- Whether a byte is a digit. -/
def isDigit (b : Nat) : Bool := 48 ≤ b && b ≤ 57

/-- Powers of ten up to the largest double, as doubles. -/
def powerOfTen (e : Nat) : Float := Float.ofScientific 1 false e

/-- `± n · 10 ^ e` by repeated scaling of the rounded digits. -/
def scale (n : Nat) (e : Int) : Reader Float := do
  let rec go : Nat → Float → Int → Option Float
    | 0, f, _ => some f
    | fuel + 1, f, e =>
      -- Each power is rounded by itself, so the result need not be the nearest double.
      if e.natAbs ≤ 308 then
        let p := powerOfTen e.natAbs
        if e ≥ 0 then
          let f := f * p
          if f.isInf then none else some f
        else some (f / p)
      else if f == 0.0 then some f
      else if e ≥ 0 then none
      else go fuel (f / powerOfTen 308) (e + 308)
  match go 40000 (Binary.ofInt n) e with
  | some f => pure f
  | none => failHere "number out of range"

/-- The largest natural of 64 bits. -/
def maxWord : Nat := twoTo 64 - 1

/-- The digits from the current position on, taken into `acc` while it stays within 64 bits; tells
also how many digits were taken and how many were left out. -/
def digits (acc : Nat) : Reader (Nat × Nat × Nat) := do
  let text ← read
  let rec go : Nat → Nat → Nat → Nat → Nat → Nat × Nat × Nat × Nat
    | 0, i, acc, used, lost => (i, acc, used, lost)
    | n + 1, i, acc, used, lost =>
      let b := (text[i]?.getD 0).toNat
      if isDigit b then
        let next := acc * 10 + (b - 48)
        -- Once a digit is left out, no later one may count, or the places would shift.
        if lost == 0 && next ≤ maxWord then go n (i + 1) next (used + 1) lost
        else go n (i + 1) acc used (lost + 1)
      else (i, acc, used, lost)
  let i ← get
  let (j, acc, used, lost) := go (text.size - i) i acc 0 0
  set j
  pure (acc, used, lost)

/-- The value of an exponent part, if one follows. -/
def exponent : Reader (Option Int) := do
  let b ← peek
  if b == 101 || b == 69 then
    advance
    let s ← peek
    if s == 43 || s == 45 then advance
    if ← atEnd then failHere "EOF while parsing a value"
    if !isDigit (← peek) then
      advance
      failHere "invalid number"
    let (n, _, lost) ← digits 0
    let n : Int := if lost > 0 then 1000000000 else min n 1000000000
    pure (some (if s == 45 then -n else n))
  else pure none

/-- A number after its first digits, of which it is told what they write, how many of them count and how
many do not. -/
def ending (neg leadingZero : Bool) : Nat × Nat × Nat → Reader Document
  | (n, _, lost) => do
    if leadingZero && isDigit (← peek) then failAhead "invalid number"
    let signed := fun (f : Float) => Document.real (if neg then -f else f)
    if (← peek) == 46 then
      advance
      if !isDigit (← peek) then
        if ← atEnd then failHere "EOF while parsing a value" else failAhead "invalid number"
      let (n, used, _) ← if lost > 0 then do let (_, _, _) ← digits maxWord; pure (n, 0, 0)
        else digits n
      let e : Int := (lost : Int) - used
      let x ← exponent
      pure (signed (← scale n (e + x.getD 0)))
    else
      match ← exponent with
      | some x => pure (signed (← scale n ((lost : Int) + x)))
      | none =>
        if lost > 0 then pure (signed (← scale n lost))
        else if !neg then pure (.integer n)
        -- Minus zero and what lies below the least 64-bit integer are not integers.
        else if n == 0 || n > twoTo 63 then pure (.real (-(Binary.ofInt n)))
        else pure (.integer (-(n : Int)))

/-- A number after its sign. -/
def magnitude (neg : Bool) : Reader Document := do
  if ← atEnd then failHere "EOF while parsing a value"
  if !isDigit (← peek) then
    advance
    failHere "invalid number"
  if (← peek) == 48 then do
    advance
    ending neg true (0, 1, 0)
  else do ending neg false (← digits 0)

/-- A number. -/
def number : Reader Document := do
  let neg := (← peek) == 45
  if neg then advance
  magnitude neg

/-- Four hexadecimal digits. -/
def hex4 : Reader Nat := do
  let mut n := 0
  for _ in [0:4] do
    if ← atEnd then failHere "EOF while parsing a string"
    let b ← peek
    let v := if isDigit b then b - 48
      else if 97 ≤ b && b ≤ 102 then b - 87
      else if 65 ≤ b && b ≤ 70 then b - 55 else 16
    if v == 16 then
      advance
      failHere "invalid escape"
    n := n * 16 + v
    advance
  pure n

/-- The code point of an escape after `\u`. -/
def unicodeEscape : Reader Nat := do
  let n ← hex4
  -- The second half of a pair stands first; the message speaks of the other half all the same.
  if 0xDC00 ≤ n && n ≤ 0xDFFF then failHere "lone leading surrogate in hex escape"
  else if 0xD800 ≤ n && n ≤ 0xDBFF then
    if (← peek) != 92 then
      advance
      failHere "unexpected end of hex escape"
    advance
    if (← peek) != 117 then
      advance
      failHere "unexpected end of hex escape"
    advance
    let m ← hex4
    if m < 0xDC00 || m > 0xDFFF then failHere "lone leading surrogate in hex escape"
    pure (0x10000 + (n - 0xD800) * 0x400 + (m - 0xDC00))
  else pure n

/-- The rest of a string after its opening quote, as bytes. -/
def stringBytes : Nat → ByteArray → Reader ByteArray
  | 0, acc => pure acc
  | fuel + 1, acc => do
    if ← atEnd then failHere "EOF while parsing a string"
    let b ← peek
    if b == 34 then
      advance
      pure acc
    else if b == 92 then
      advance
      if ← atEnd then failHere "EOF while parsing a string"
      let c ← peek
      advance
      let plain := fun (n : Nat) => stringBytes fuel (acc.push (UInt8.ofNat n))
      match Char.ofNat c with
      | '"' => plain 34
      | '\\' => plain 92
      | '/' => plain 47
      | 'b' => plain 8
      | 'f' => plain 12
      | 'n' => plain 10
      | 'r' => plain 13
      | 't' => plain 9
      | 'u' => do
        let n ← unicodeEscape
        stringBytes fuel (acc ++ (Char.ofNat n).toString.toUTF8)
      | _ => failHere "invalid escape"
    else if b < 32 then
      advance
      failHere "control character (\\u0000-\\u001F) found while parsing a string"
    else
      advance
      stringBytes fuel (acc.push (UInt8.ofNat b))

/-- A string, from its opening quote on. -/
def string : Reader String := do
  advance
  let text ← read
  let bytes ← stringBytes (text.size + 1) ByteArray.empty
  match String.fromUTF8? bytes with
  | some s => pure s
  | none => failHere "invalid unicode code point"

/-- What follows an item: another one, or the closing byte, which is taken. -/
def another (close : Nat) (what : String) : Reader Bool := do
  skipBlanks
  if ← atEnd then failHere ("EOF while parsing " ++ what)
  let b ← peek
  if b == close then
    advance
    pure false
  else if b == 44 then
    advance
    skipBlanks
    if (← peek) == close then failAhead "trailing comma"
    pure true
  else failAhead ("expected `,` or `" ++ (Char.ofNat close).toString ++ "`")

/-- Items until the closing bracket. -/
def itemsUntil (item : Reader Document) : Nat → List Document → Reader (List Document)
  | 0, acc => pure acc.reverse
  | fuel + 1, acc => do
    let d ← item
    if ← another 93 "a list" then itemsUntil item fuel (d :: acc) else pure (d :: acc).reverse

/-- A key with the colon after it. -/
def key : Reader String := do
  skipBlanks
  if (← peek) != 34 then failAhead "key must be a string"
  let k ← string
  skipBlanks
  if (← peek) != 58 then failAhead "expected `:`"
  advance
  pure k

/-- Members until the closing brace. -/
def membersUntil (item : Reader Document) : Nat → List (String × Document) →
    Reader (List (String × Document))
  | 0, acc => pure acc.reverse
  | fuel + 1, acc => do
    let k ← key
    let d ← item
    if ← another 125 "an object" then membersUntil item fuel ((k, d) :: acc)
    else pure ((k, d) :: acc).reverse

/-- Any document, nested at most `depth` deep. -/
def value : Nat → Reader Document
  | 0 => failAhead "recursion limit exceeded"
  | depth + 1 => do
    skipBlanks
    if ← atEnd then failHere "EOF while parsing a value"
    let text ← read
    let b ← peek
    if b == 110 then do word "null"; pure .null
    else if b == 116 then do word "true"; pure (.bool true)
    else if b == 102 then do word "false"; pure (.bool false)
    else if b == 34 then do pure (.string (← string))
    else if b == 45 || isDigit b then number
    else if b == 91 then
      if depth == 0 then failAhead "recursion limit exceeded"
      advance
      skipBlanks
      if (← peek) == 93 then do advance; pure (.array [])
      else do pure (.array (← itemsUntil (value depth) (text.size + 1) []))
    else if b == 123 then
      if depth == 0 then failAhead "recursion limit exceeded"
      advance
      skipBlanks
      if (← peek) == 125 then do advance; pure (.object [])
      else do pure (.object (← membersUntil (value depth) (text.size + 1) []))
    else failAhead "expected value"

/-- After the document only blanks may follow. -/
def finish : Reader Unit := do
  skipBlanks
  if !(← atEnd) then failAhead "trailing characters"

/-- Runs a reader over a whole text. -/
def run {α : Type} (r : Reader α) (text : String) : Except String α := do
  let whole : Reader α := do
    let a ← r
    finish
    pure a
  let (a, _) ← whole text.toUTF8 0
  pure a

end Reader

/-- Reads a document of any shape, members in the order of the text. -/
def parse (text : String) : Except String Document :=
  Reader.run (Reader.value Reader.depthLimit) text

end Document

end ScriptHost
