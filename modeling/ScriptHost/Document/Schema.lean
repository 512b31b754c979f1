import ScriptHost.Document.Reader
/-!
# Reading documents of an expected shape

A schema says what the host expects: a scalar, a list, a pair, a map, a record or one of several
variants.  Reading goes along the schema, so the first mismatch in the text is what is reported.
-/

namespace ScriptHost

/-- What shape a document is expected to have. -/
inductive Schema where
  | value | bool | u8 | i32 | i64 | u64 | f64 | char | string | unit
  | optionalI32 | listI32 | listString
  /-- A pair of an integer and a string. -/
  | pair
  /-- A map from strings to integers. -/
  | mapI32
  /-- A record of an identifier, a flag and a list of tags. -/
  | order
  /-- A dot, a circle with a radius or a rectangle with two sides. -/
  | shape
deriving DecidableEq, Repr, Inhabited

namespace Schema

open Document (Reader)
open Document.Reader (skipBlanks peek atEnd advance failHere failAhead word isDigit number
  depthLimit)

/-- The words for a number in a report. -/
def numberText : Document → String
  | .integer n => "integer `" ++ toString n ++ "`"
  | .real d => "floating point `" ++ Document.realText d ++ "`"
  | _ => "number"

/-- Takes a scalar of the wrong type and reports it; an array or object is reported where it
starts. -/
def mismatch {α : Type} (expected : String) : Reader α := do
  let b ← peek
  let report := fun (what : String) =>
    (failHere ("invalid type: " ++ what ++ ", expected " ++ expected) : Reader α)
  if b == 110 then do word "null"; report "null"
  else if b == 116 then do word "true"; report "boolean `true`"
  else if b == 102 then do word "false"; report "boolean `false`"
  else if b == 34 then do let s ← Document.Reader.string; report ("string " ++ Quoted.quote s)
  else if b == 45 || isDigit b then do let d ← number; report (numberText d)
  else if b == 91 then report "sequence"
  else if b == 123 then report "map"
  else failAhead "expected value"

/-- The first byte of the next document. -/
def start : Reader Nat := do
  skipBlanks
  if ← atEnd then failHere "EOF while parsing a value"
  peek

/-- An integer between two bounds. -/
def boundedInt (low high : Int) (name : String) : Reader Document := do
  let b ← start
  if b == 45 || isDigit b then
    let d ← number
    match d with
    | .integer n =>
      if low ≤ n && n ≤ high then pure d
      else failHere ("invalid value: " ++ numberText d ++ ", expected " ++ name)
    | _ => failHere ("invalid type: " ++ numberText d ++ ", expected " ++ name)
  else mismatch name

/-- An integer of 32 bits with sign. -/
def int32 : Reader Document := boundedInt (-(twoTo 31 : Int)) (twoTo 31 - 1) "i32"

/-- An integer of 8 bits. -/
def byte : Reader Document := boundedInt 0 255 "u8"

/-- A string. -/
def text : Reader String := do
  let b ← start
  if b == 34 then Document.Reader.string else mismatch "a string"

/-- A boolean. -/
def flag : Reader Document := do
  let b ← start
  if b == 116 then do word "true"; pure (.bool true)
  else if b == 102 then do word "false"; pure (.bool false)
  else mismatch "a boolean"

/-- Nothing. -/
def nothing : Reader Document := do
  let b ← start
  if b == 110 then do word "null"; pure .null else mismatch "unit"

/-- The closing bracket of a list whose items were all taken. -/
def closeList : Reader Unit := do
  skipBlanks
  let b ← peek
  if b == 93 then advance
  else if b == 44 then
    advance
    skipBlanks
    if (← peek) == 93 then failAhead "trailing comma" else failAhead "trailing characters"
  else if ← atEnd then failHere "EOF while parsing a list"
  else failAhead "trailing characters"

/-- Items of fixed types in a list, from its opening bracket on; `expected` describes the whole. -/
def fixedItems (expected : String) (items : List (Reader Document)) : Reader (List Document) := do
  advance
  let mut acc : List Document := []
  let mut index := 0
  for item in items do
    skipBlanks
    -- The list may end early, which is told by how many items there were.
    if (← peek) == 93 then
      advance
      failHere ("invalid length " ++ toString index ++ ", expected " ++ expected)
    if index > 0 then
      if (← peek) != 44 then failAhead "expected `,` or `]`"
      advance
      skipBlanks
      if (← peek) == 93 then failAhead "trailing comma"
    let d ← item
    acc := d :: acc
    index := index + 1
  closeList
  pure acc.reverse

/-- A list of items of one type. -/
def list (item : Reader Document) : Reader Document := do
  let b ← start
  if b == 91 then
    advance
    skipBlanks
    if (← peek) == 93 then do advance; pure (.array [])
    else
      let bytes ← read
      pure (.array (← Document.Reader.itemsUntil item (bytes.size + 1) []))
  else mismatch "a sequence"

/-- Takes a document of any shape without looking into it. -/
def skipValue : Nat → Reader Unit
  | 0 => pure ()
  | fuel + 1 => do
    let b ← start
    let bytes ← read
    if b == 34 then
      advance
      let rec go : Nat → Nat → Nat
        | 0, i => i
        | n + 1, i =>
          let c := (bytes[i]?.getD 0).toNat
          if c == 34 then i + 1 else if c == 92 then go n (i + 2) else go n (i + 1)
      modify fun i => go (bytes.size - i) i
    else if b == 91 || b == 123 then
      let close := if b == 91 then 93 else 125
      advance
      skipBlanks
      if (← peek) == close then advance
      else
        let rec items : Nat → Reader Unit
          | 0 => pure ()
          | n + 1 => do
            if b == 123 then
              skipValue fuel
              skipBlanks
              advance
            skipValue fuel
            skipBlanks
            let c ← peek
            advance
            if c == 44 then items n else pure ()
        items (bytes.size + 1)
    else if b == 110 then word "null"
    else if b == 116 then word "true"
    else if b == 102 then word "false"
    else do let _ ← number

/-- Fields of a record, from its opening brace on, in any order; other members are skipped. -/
def fields (specs : List (String × Reader Document)) : Reader (List (String × Document)) := do
  advance
  let bytes ← read
  let rec go : Nat → List (String × Document) → Reader (List (String × Document))
    | 0, acc => pure acc
    | fuel + 1, acc => do
      let k ← Document.Reader.key
      let acc ← match specs.find? (·.1 == k) with
        | some (_, r) => do
          let d ← r
          pure ((k, d) :: acc)
        | none => do
          skipValue bytes.size
          pure acc
      if ← Document.Reader.another 125 "an object" then go fuel acc else pure acc
  skipBlanks
  let found ← if (← peek) == 125 then do advance; pure [] else go (bytes.size + 1) []
  -- The record has its fields in the order of the schema, not in that of the text.
  specs.mapM fun (k, _) =>
    match found.find? (·.1 == k) with
    | some m => pure m
    | none => failHere ("missing field `" ++ k ++ "`")

/-- A record written as an object or as a list of its fields. -/
def record (expected : String) (specs : List (String × Reader Document)) : Reader Document := do
  let b ← start
  if b == 91 then
    let count := toString specs.length
    let items ← fixedItems (expected ++ " with " ++ count ++ " elements") (specs.map (·.2))
    pure (.object ((specs.map (·.1)).zip items))
  else if b == 123 then
    pure (.object (← fields specs))
  else mismatch expected

/-- The names of the variants of a shape. -/
def variants : List String := ["Dot", "Circle", "Rect"]

/-- One of the variants, from the opening quote of its name on. -/
def variantName : Reader String := do
  let b ← start
  if b != 34 then failAhead "expected value"
  let s ← Document.Reader.string
  if variants.contains s then pure s
  else failHere ("unknown variant `" ++ s ++ "`, expected one of `Dot`, `Circle`, `Rect`")

/-- A dot, a circle or a rectangle. -/
def shapeReader : Reader Document := do
  let b ← start
  if b == 34 then
    let name ← variantName
    if name == "Dot" then pure (.string name)
    else if name == "Circle" then failHere "invalid type: unit variant, expected newtype variant"
    else failHere "invalid type: unit variant, expected struct variant"
  else if b == 123 then
    advance
    let name ← variantName
    skipBlanks
    if (← peek) != 58 then failAhead "expected `:`"
    advance
    let d ←
      if name == "Dot" then do
        let _ ← nothing
        pure (Document.string name)
      else if name == "Circle" then do
        let r ← int32
        pure (.object [(name, r)])
      else do
        let r ← record "struct variant Shape::Rect" [("w", byte), ("h", byte)]
        pure (.object [(name, r)])
    skipBlanks
    if (← peek) == 125 then
      advance
      pure d
    else failHere "expected value"
  else failAhead "expected value"

/-- The reader of a schema. -/
def reader : Schema → Reader Document
  | value => do pure (← Document.Reader.value depthLimit).sorted
  | bool => flag
  | u8 => byte
  | i32 => int32
  | i64 => boundedInt (-(twoTo 63 : Int)) (twoTo 63 - 1) "i64"
  | u64 => boundedInt 0 (twoTo 64 - 1) "u64"
  | f64 => do
    let b ← start
    if b == 45 || isDigit b then
      match ← number with
      | .integer n => pure (.real (Binary.ofInt n))
      | d => pure d
    else mismatch "f64"
  | char => do
    let b ← start
    if b == 34 then
      let s ← Document.Reader.string
      if s.length == 1 then pure (.string s)
      else failHere ("invalid value: string " ++ Quoted.quote s ++ ", expected a character")
    else mismatch "a character"
  | string => do pure (.string (← text))
  | unit => nothing
  | optionalI32 => do
    let b ← start
    if b == 110 then nothing else int32
  | listI32 => list int32
  | listString => list (do pure (.string (← text)))
  | pair => do
    let b ← start
    if b == 91 then
      pure (.array (← fixedItems "a tuple of size 2" [int32, do pure (.string (← text))]))
    else mismatch "a tuple of size 2"
  | mapI32 => do
    let b ← start
    if b == 123 then
      advance
      skipBlanks
      if (← peek) == 125 then do advance; pure (.object [])
      else
        let bytes ← read
        pure (Document.object (← Document.Reader.membersUntil int32 (bytes.size + 1) [])).sorted
    else mismatch "a map"
  | order =>
    record "struct Order"
      [("id", do pure (.string (← text))), ("active", flag),
        ("tags", list (do pure (.string (← text))))]
  | shape => shapeReader

/-- Reads a text as a document of the expected shape. -/
def decode (s : Schema) (text : String) : Except String Document :=
  Document.Reader.run s.reader text

end Schema

end ScriptHost
