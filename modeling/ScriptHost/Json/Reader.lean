import ScriptHost.Number.Reading
/-!
# JSON text in scripts

The reader of scripts works on units, one token ahead: after each value the next token is read at
once, so a bad token is found before anything is said about its place.  Faults are causes with the
text that was left; the wording and the place are made from both.
-/

namespace ScriptHost

/-- A JSON document as a script sees it. -/
inductive Json where
  | null
  | bool (b : Bool)
  | number (d : Float)
  | string (t : Text)
  | array (items : List Json)
  /-- Members as they are written; of equal names the last counts. -/
  | object (members : List (Text × Json))
deriving Inhabited

namespace Json

/-! ## Faults -/

/-- What can be wrong with a text. -/
inductive Cause where
  | ended | noName | noColon | noMemberEnd | noItemEnd | control | escape | hexDigits | noNumber
  | leadingZero | noFraction | noExponent | trailing
  | token (t : Text)
  | foreign (point : Nat)
deriving DecidableEq, Inhabited

/-- A fault and the text from its place on. -/
structure Fault where
  cause : Cause
  rest : List UInt16
deriving Inhabited

/-- How many bytes a code point takes. -/
def pointBytes (n : Nat) : Nat :=
  if n < 0x80 then 1 else if n < 0x800 then 2 else if n < 0x10000 then 3 else 4

/-- How many bytes code points take. -/
def bytesOf (ps : Array Nat) : Nat := ps.foldl (fun n p => n + pointBytes p) 0

/-- The line and the column, both from one, at the end of code points. -/
def placeAfter (ps : List Nat) : Nat × Nat :=
  go 1 1 ps
where
  /-- The same after a line and a column. -/
  go (line column : Nat) : List Nat → Nat × Nat
    | [] => (line, column)
    | 13 :: 10 :: r => go (line + 1) 1 r
    | p :: r => if p == 10 || p == 13 then go (line + 1) 1 r else go line (column + pointBytes p) r

/-- The words for a fault whose place is told, or the whole message. -/
def Cause.words : Cause → Except String String
  | ended => .error "Unexpected end of JSON input"
  | trailing => .error "unexpected data at the end"
  | token t => .error ("unexpected token: '" ++ t.toHostString ++ "'")
  | foreign p =>
    let digits := String.ofList (Nat.toDigits 16 p)
    .error ("Unexpected token '\\u" ++ String.ofList (List.replicate (4 - digits.length) '0') ++
      digits ++ "' in JSON")
  | noName => .ok "Expected property name or '\x7d'"
  | noColon => .ok "Expected ':' after property name"
  | noMemberEnd => .ok "Expected ',' or '\x7d' after property value"
  | noItemEnd => .ok "Expected ',' or ']' after array element"
  | control => .ok "Bad control character in string literal"
  | escape => .ok "Bad escaped character"
  | hexDigits => .ok "Bad Unicode escape"
  | noNumber => .ok "No number after minus sign"
  | leadingZero => .ok "Unexpected number"
  | noFraction => .ok "Unterminated fractional number"
  | noExponent => .ok "Exponent part is missing a number"

/-- The message for a fault in a text, and its line. -/
def Fault.report (f : Fault) (text : List UInt16) : String × Nat :=
  let before : Text := ⟨(text.take (text.length - f.rest.length)).toArray⟩
  let (line, column) := placeAfter before.points.toList
  match f.cause.words with
  | .error m => (m, line)
  | .ok m =>
    (m ++ " in JSON at position " ++ toString (bytesOf before.points) ++ " (line " ++
      toString line ++ " column " ++ toString column ++ ")", line)

/-! ## Tokens -/

/-- A token. -/
inductive Token where
  | ended
  | string (t : Text)
  | number (d : Float)
  | word (t : Text)
  | mark (c : Char)
deriving Inhabited

/-- A token with the text from it on and the text after it. -/
structure Lexeme where
  token : Token
  start : List UInt16
  rest : List UInt16
deriving Inhabited

/-- The character of a unit. -/
def charOf (u : UInt16) : Char := Char.ofNat u.toNat

/-- Whether a unit is a digit. -/
def isDigit (u : UInt16) : Bool := Numeral.isDigit (charOf u)

/-- Whether a unit can begin a word. -/
def startsWord (u : UInt16) : Bool := (charOf u).isAlpha || u == 95 || u == 36

/-- The unit that an escape of one letter stands for. -/
def escaped? (u : UInt16) : Option UInt16 :=
  match charOf u with
  | 'b' => some 8
  | 'f' => some 12
  | 'n' => some 10
  | 'r' => some 13
  | 't' => some 9
  | '"' => some 34
  | '\\' => some 92
  | '/' => some 47
  | _ => none

/-- Hexadecimal digits at the front of a text, as many as asked for. -/
def scanHex : Nat → Nat → List UInt16 → Except Fault Nat
  | 0, n, _ => .ok n
  | _ + 1, _, [] => .error ⟨.hexDigits, []⟩
  | count + 1, n, u :: r =>
    let d := Numeral.digitValue (charOf u)
    if d < 16 then scanHex count (16 * n + d) r else .error ⟨.hexDigits, u :: r⟩

/-- The rest of a string after its opening quote. -/
def scanString : List UInt16 → Text → Except Fault (Text × List UInt16)
  | [], _ => .error ⟨.ended, []⟩
  | u :: r, acc =>
    if u == 34 then .ok (acc, r)
    else if u < 32 then .error ⟨.control, u :: r⟩
    else if u == 92 then
      match r with
      | [] => .error ⟨.ended, []⟩
      | e :: r' =>
        if e == 117 then
          match scanHex 4 0 r' with
          | .error f => .error f
          | .ok n =>
            match r' with
            | _ :: _ :: _ :: _ :: r'' => scanString r'' (acc.push (UInt16.ofNat n))
            | _ => .error ⟨.hexDigits, []⟩
        else
          match escaped? e with
          | some x => scanString r' (acc.push x)
          | none => .error ⟨.escape, r⟩
    else scanString r (acc.push u)

/-- A number at the front of a text. -/
def scanNumber (input : List UInt16) : Except Fault (Float × List UInt16) := do
  let (neg, body) := match input with
    | 45 :: r => (true, r)
    | r => (false, r)
  let whole := body.takeWhile isDigit
  let rest := body.dropWhile isDigit
  if whole.isEmpty then .error ⟨.noNumber, input⟩
  if whole.head? == some 48 && whole.length > 1 then .error ⟨.leadingZero, body⟩
  let (frac, rest) ← match rest with
    | 46 :: r =>
      let ds := r.takeWhile isDigit
      if ds.isEmpty then .error ⟨.noFraction, r⟩ else .ok (46 :: ds, r.dropWhile isDigit)
    | r => .ok ([], r)
  let (power, rest) ← match rest with
    | e :: r =>
      if e == 101 || e == 69 then
        let (sign, r) : List UInt16 × List UInt16 := match r with
          | 43 :: r => ([43], r)
          | 45 :: r => ([45], r)
          | r => ([], r)
        let ds := r.takeWhile isDigit
        if ds.isEmpty then .error ⟨.noExponent, r⟩ else .ok (e :: (sign ++ ds), r.dropWhile isDigit)
      else .ok ([], e :: r)
    | [] => .ok ([], [])
  let d := match Numeral.scanDecimal? neg ((whole ++ frac ++ power).map charOf) with
    | some (d, _) => d
    | none => 0
  pure (d, rest)

/-- Whether a unit is a blank between tokens. -/
def isBlank (u : UInt16) : Bool := u == 32 || u == 9 || u == 10 || u == 13

/-- The next token of a text. -/
def next (input : List UInt16) : Except Fault Lexeme :=
  let start := input.dropWhile isBlank
  match start with
  | [] => .ok ⟨.ended, [], []⟩
  | u :: r =>
    if u == 34 then do
      let (t, rest) ← scanString r .empty
      pure ⟨.string t, start, rest⟩
    else if u == 45 || isDigit u then do
      let (d, rest) ← scanNumber start
      pure ⟨.number d, start, rest⟩
    else if startsWord u then
      let more := fun v => startsWord v || isDigit v
      .ok ⟨.word ⟨(start.takeWhile more).toArray⟩, start, start.dropWhile more⟩
    else if u < 128 then .ok ⟨.mark (charOf u), start, r⟩
    else .error ⟨.foreign ((Text.mk (start.take 2).toArray).pointAt 0).1, start⟩

/-! ## Values -/

/-- Says that a token stands where it must not. -/
def unexpected {α : Type} (l : Lexeme) : Except Fault α :=
  match l.token with
  | .ended => .error ⟨.ended, l.start⟩
  | .mark c => .error ⟨.token (if c.toNat == 0 then .empty else .ofChars [c]), l.start⟩
  | .word t => .error ⟨.token t, l.start⟩
  | _ => .error ⟨.token .empty, l.start⟩

/-- Items up to the closing bracket, from the first token of an item on. -/
def itemsFrom (value : Lexeme → Except Fault (Json × Lexeme)) : Nat → Lexeme → List Json →
    Except Fault (List Json × Lexeme)
  | 0, l, _ => .error ⟨.ended, l.start⟩
  | fuel + 1, l, acc => do
    let (v, l) ← value l
    match l.token with
    | .mark ']' => do pure ((v :: acc).reverse, ← next l.rest)
    | .mark ',' => do itemsFrom value fuel (← next l.rest) (v :: acc)
    | _ => .error ⟨.noItemEnd, l.start⟩

/-- Members up to the closing brace, from the first token of a member on. -/
def membersFrom (value : Lexeme → Except Fault (Json × Lexeme)) : Nat → Lexeme →
    List (Text × Json) → Except Fault (List (Text × Json) × Lexeme)
  | 0, l, _ => .error ⟨.ended, l.start⟩
  | fuel + 1, l, acc => do
    match l.token with
    | .string name => do
      let l ← next l.rest
      match l.token with
      | .mark ':' => do
        let (v, l) ← value (← next l.rest)
        match l.token with
        | .mark '\x7d' => do pure (((name, v) :: acc).reverse, ← next l.rest)
        | .mark ',' => do membersFrom value fuel (← next l.rest) ((name, v) :: acc)
        | _ => .error ⟨.noMemberEnd, l.start⟩
      | _ => .error ⟨.noColon, l.start⟩
    | _ => .error ⟨.noName, l.start⟩

/-- A value that begins with a token, and the token after it.  The count is more than the units that
are left, so it bounds the items of a list as well as their depth. -/
def value : Nat → Lexeme → Except Fault (Json × Lexeme)
  | 0, l => .error ⟨.ended, l.start⟩
  | fuel + 1, l => do
    match l.token with
    | .mark '[' => do
      let l ← next l.rest
      match l.token with
      | .mark ']' => do pure (.array [], ← next l.rest)
      | _ => do
        let (vs, l) ← itemsFrom (value fuel) (fuel + 1) l []
        pure (.array vs, l)
    | .mark '\x7b' => do
      let l ← next l.rest
      match l.token with
      | .mark '\x7d' => do pure (.object [], ← next l.rest)
      | _ => do
        let (ms, l) ← membersFrom (value fuel) (fuel + 1) l []
        pure (.object ms, l)
    | .string t => do pure (.string t, ← next l.rest)
    | .number d => do pure (.number d, ← next l.rest)
    | .word t =>
      if t == txt "true" then do pure (.bool true, ← next l.rest)
      else if t == txt "false" then do pure (.bool false, ← next l.rest)
      else if t == txt "null" then do pure (.null, ← next l.rest)
      else unexpected l
    | _ => unexpected l

/-- The document that a text writes. -/
def read (text : List UInt16) : Except Fault Json := do
  let (v, l) ← value (text.length + 1) (← next text)
  match l.token with
  | .ended => pure v
  | _ => .error ⟨.trailing, l.start⟩

/-! ## Quotation -/

/-- A unit inside a quoted text.  Surrogates without a partner are escaped. -/
def quoteUnit (t : Text) (i : Nat) (u : UInt16) : Text :=
  match charOf u with
  | '"' => txt "\\\""
  | '\\' => txt "\\\\"
  | '\x08' => txt "\\b"
  | '\x0c' => txt "\\f"
  | '\n' => txt "\\n"
  | '\r' => txt "\\r"
  | '\t' => txt "\\t"
  | _ =>
    let alone := (Text.isLead u && !((t.get? (i + 1)).any Text.isTrail)) ||
      (Text.isTrail u && !(i > 0 && (t.get? (i - 1)).any Text.isLead))
    if u < 32 || alone then
      let digits := Nat.toDigits 16 u.toNat
      txt ("\\u" ++ String.ofList (List.replicate (4 - digits.length) '0') ++ String.ofList digits)
    else Text.single u

/-- A text in quotes. -/
def quote (t : Text) : Text :=
  (t.units.foldl (fun (st : Text × Nat) u => (st.1 ++ quoteUnit t st.2 u, st.2 + 1))
    (txt "\"", 0)).1.push 34

end Json

end ScriptHost
