import ScriptHost.Script.Tree
import ScriptHost.Number.Reading
/-!
# Tokens

The words of a script.  The lexer reads one token at a time from a position; whether a slash starts
a regular expression, and where a template goes on, is decided by the grammar, which then calls the
reader for those forms.
-/

namespace ScriptHost

namespace Script

/-- A token. -/
inductive Token where
  | eof
  | number (v : Value)
  | string (t : Text) (octal : Bool)
  /-- A piece of a template: its cooked text, its text as written, and whether it is the last. -/
  | template (cooked : Option Text) (raw : Text) (last : Bool)
  | ident (name : Text) (escaped : Bool)
  | privateName (name : Text)
  | regexp (body flags : Text)
  | punct (s : String)
deriving DecidableEq, Inhabited

/-- What the reader keeps while it goes through the text. -/
structure LexState where
  /-- The position of the next unit. -/
  pos : Nat := 0
  /-- The current line, counted from one. -/
  line : Nat := 1
  /-- The position after the last blank. -/
  mark : Nat := 0
  /-- The position of the last line end. -/
  lineStart : Nat := 0
deriving Inhabited

/-- A failure to read: its text. -/
abbrev Fault := String

/-- Readers of tokens over a fixed text. -/
abbrev Lex := ReaderT Text (StateT LexState (Except Fault))

namespace Lex

/-- The unit `k` places ahead, zero past the end. -/
def ahead (k : Nat) : Lex Nat := do
  let t ← read
  pure (t.at' ((← get).pos + k))

/-- Whether the text is used up. -/
def atEnd : Lex Bool := do
  let t ← read
  pure ((← get).pos ≥ t.size)

/-- Goes on by some units. -/
def skip (k : Nat) : Lex Unit := modify fun s => { s with pos := s.pos + k }

/-- Whether a code point may start a name. -/
def isNameStart (n : Nat) : Bool :=
  (97 ≤ n && n ≤ 122) || (65 ≤ n && n ≤ 90) || n == 36 || n == 95 ||
    (n ≥ 0xAA && !Blank.isBlank n && n != 0xAB && n != 0xAC && n != 0xAD && n != 0xAE &&
      n != 0xAF && n != 0xB0 && n != 0xB1 && n != 0xB2 && n != 0xB3 && n != 0xB4 && n != 0xB6 &&
      n != 0xB7 && n != 0xB8 && n != 0xB9 && !(0xBB ≤ n && n ≤ 0xBF) && n != 0xD7 && n != 0xF7 &&
      !(0x300 ≤ n && n ≤ 0x36F) && !(0x2010 ≤ n && n ≤ 0x206F) && !(0x2190 ≤ n && n ≤ 0x2BFF) &&
      !(0x3001 ≤ n && n ≤ 0x3004) && !(0x3008 ≤ n && n ≤ 0x3020) && !(0xD800 ≤ n && n ≤ 0xDFFF) &&
      !(0xFF00 ≤ n && n ≤ 0xFF20) && !(0x1F000 ≤ n && n ≤ 0x1FAFF) && n != 0xFFFD)

/-- Whether a code point may go on in a name. -/
def isNamePart (n : Nat) : Bool :=
  isNameStart n || (48 ≤ n && n ≤ 57) || n == 0x200C || n == 0x200D || n == 0xB7 ||
    (0x300 ≤ n && n ≤ 0x36F)

/-- The value of a hexadecimal digit; 16 for anything else. -/
def hexValue (n : Nat) : Nat :=
  let v := Numeral.digitValue (Char.ofNat n)
  if v < 16 then v else 16

/-- The code point of an escape after `\u`, if there is one. -/
def unicodeEscape? : Lex (Option Nat) := do
  if (← ahead 0) == 123 then
    let t ← read
    let start := (← get).pos + 1
    let rec go : Nat → Nat → Nat → Option (Nat × Nat)
      | 0, _, _ => none
      | fuel + 1, i, n =>
        let u := t.at' i
        if u == 125 then (if i == start || n > 0x10FFFF then none else some (n, i + 1))
        else if hexValue u == 16 || n > 0x10FFFF then none
        else go fuel (i + 1) (n * 16 + hexValue u)
    match go (t.size + 1) start 0 with
    | some (n, i) =>
      modify fun s => { s with pos := i }
      pure (some n)
    | none => pure none
  else
    let a := hexValue (← ahead 0)
    let b := hexValue (← ahead 1)
    let c := hexValue (← ahead 2)
    let d := hexValue (← ahead 3)
    if a == 16 || b == 16 || c == 16 || d == 16 then pure none
    else
      skip 4
      pure (some (((a * 16 + b) * 16 + c) * 16 + d))

/-- Goes over a line end. -/
def lineEnd : Lex Unit := do
  let u ← ahead 0
  if u == 13 && (← ahead 1) == 10 then skip 1
  modify fun s => { s with pos := s.pos + 1, lineStart := s.pos, line := s.line + 1 }

/-- Goes on to the next line end. -/
def skipLine : Nat → Lex Unit
  | 0 => pure ()
  | fuel + 1 => do
    if ← atEnd then pure ()
    else if Blank.isLineEnd (← ahead 0) then pure ()
    else do skip 1; skipLine fuel

/-- Goes on past the end of a comment; tells whether a line ended in it. -/
def skipComment : Nat → Bool → Lex Bool
  | 0, lf => pure lf
  | fuel + 1, lf => do
    if ← atEnd then throw "unexpected end of comment"
    else if (← ahead 0) == 42 && (← ahead 1) == 47 then do skip 2; pure lf
    else if Blank.isLineEnd (← ahead 0) then do lineEnd; skipComment fuel true
    else do skip 1; skipComment fuel lf

/-- Whether a comment that goes to the end of the line starts here.  Besides `//` there are the
marks of comments in web pages, of which `-->` has to start a line. -/
def lineComment (web lineStart : Bool) : Lex Bool := do
  let u ← ahead 0
  let v ← ahead 1
  let w ← ahead 2
  let slashes := u == 47 && v == 47
  let opening := u == 60 && v == 33 && w == 45 && (← ahead 3) == 45
  let closing := u == 45 && v == 45 && w == 62 && lineStart
  pure (slashes || (web && (opening || closing)))

/-- Goes on past blanks and comments; tells whether a line ended.  `first` tells that no token
stands before. -/
def skipBlanks (web first : Bool) : Nat → Bool → Lex Bool
  | 0, lf => pure lf
  | fuel + 1, lf => do
    let t ← read
    let u ← ahead 0
    if ← atEnd then pure lf
    else if Blank.isLineEnd u then do lineEnd; skipBlanks web first fuel true
    else if Blank.isBlank u then do
      modify fun s => { s with pos := s.pos + 1, mark := s.pos + 1 }
      skipBlanks web first fuel lf
    else if ← lineComment web (lf || first) then do
      skipLine (t.size + 1)
      skipBlanks web first fuel lf
    else if u == 47 && (← ahead 1) == 42 then do
      skip 2
      let lf' ← skipComment (t.size + 1) lf
      skipBlanks web first fuel lf'
    else pure lf

/-! ## Names and numerals -/

/-- The rest of a name. -/
def nameRest : Nat → Text → Bool → Lex (Text × Bool)
  | 0, acc, esc => pure (acc, esc)
  | fuel + 1, acc, esc => do
    let t ← read
    let (n, k) := t.pointAt (← get).pos
    if n == 92 && (← ahead 1) == 117 then do
      skip 2
      match ← unicodeEscape? with
      | some n =>
        if isNamePart n then nameRest fuel (acc.pushPoint n) true
        else throw "invalid unicode escape sequence in identifier"
      | none => throw "invalid unicode escape sequence in identifier"
    else if k > 0 && isNamePart n then do
      skip k
      nameRest fuel (acc.pushPoint n) esc
    else pure (acc, esc)

/-- Digits of a base with separators between them. -/
def digitsIn (base : Nat) : Nat → Nat → Nat → Lex (Nat × Nat)
  | 0, n, count => pure (n, count)
  | fuel + 1, n, count => do
    let u ← ahead 0
    let v := Numeral.digitValue (Char.ofNat u)
    if u < 128 && v < base then do
      skip 1
      digitsIn base fuel (n * base + v) (count + 1)
    else if u == 95 && count > 0 && Numeral.digitValue (Char.ofNat (← ahead 1)) < base
        && (← ahead 1) < 128 then do
      skip 1
      digitsIn base fuel n count
    else pure (n, count)

/-- What may not follow a numeral. -/
def endNumber (v : Value) : Lex Token := do
  let t ← read
  let (n, k) := t.pointAt (← get).pos
  if k > 0 && (isNameStart n || (48 ≤ n && n ≤ 57) || n == 92) then throw "invalid number literal"
  else pure (.number v)

/-- A numeral. -/
def numeral (strict : Bool) : Lex Token := do
  let t ← read
  let fuel := t.size + 1
  let u ← ahead 0
  let v ← ahead 1
  let base? := if u == 48 then Numeral.markedBase? (Char.ofNat v) else none
  match base? with
  | some base =>
    skip 2
    let (n, count) ← digitsIn base fuel 0 0
    if count == 0 then throw "invalid number literal"
    if (← ahead 0) == 110 then do
      skip 1
      endNumber (.bigint n)
    else endNumber (Value.ofInt n)
  | none =>
    if u == 48 && 48 ≤ v && v ≤ 57 then
      if strict then throw "octal literals are deprecated in strict mode"
      let start := (← get).pos
      let (_, count) ← digitsIn 10 fuel 0 0
      let body := (t.slice start (start + count)).toAsciiList
      -- With an 8 or a 9 in it, the numeral is decimal in spite of its zero.
      if body.all (fun c => Numeral.digitValue c < 8) then
        endNumber (Value.ofInt (Numeral.ofDigits 8 body))
      else endNumber (Value.ofInt (Numeral.ofDigits 10 body))
    else
      let (n, _) ← digitsIn 10 fuel 0 0
      if (← ahead 0) == 110 then do
        skip 1
        endNumber (.bigint n)
      else
        let (n, fracCount) ← if (← ahead 0) == 46 then do
            skip 1
            let (m, c) ← digitsIn 10 fuel n 0
            pure (m, c)
          else pure (n, 0)
        let e ← ahead 0
        let s ← ahead 1
        -- An exponent needs a digit, behind its sign if it has one.
        let d ← if s == 43 || s == 45 then ahead 2 else ahead 1
        if (e == 101 || e == 69) && 48 ≤ d && d ≤ 57 then
          skip (if s == 43 || s == 45 then 2 else 1)
          let (x, _) ← digitsIn 10 fuel 0 0
          let x : Int := if s == 45 then -(x : Int) else x
          endNumber (Value.ofFloat (Numeral.scale10 false n (x - fracCount)))
        else if e == 101 || e == 69 then throw "invalid number literal"
        else if fracCount == 0 then endNumber (Value.ofInt n)
        else endNumber (Value.ofFloat (Numeral.scale10 false n (-(fracCount : Int))))

/-! ## Strings and templates -/

/-- What an escape stands for. -/
inductive Escape where
  | point (n : Nat)
  | unit (n : Nat)
  | nothing
  /-- An old octal escape. -/
  | octal (n : Nat)
  | invalid (what : String)

/-- An escape after its backslash. -/
def escape : Lex Escape := do
  let t ← read
  let u ← ahead 0
  let (n, k) := t.pointAt (← get).pos
  if u == 117 then do
    skip 1
    match ← unicodeEscape? with
    | some n => pure (.point n)
    | none => pure (.invalid "Invalid Unicode escape sequence")
  else if u == 120 then do
    let a := hexValue (← ahead 1)
    let b := hexValue (← ahead 2)
    if a == 16 || b == 16 then do
      skip 1
      pure (.invalid "Invalid hexadecimal escape sequence")
    else do
      skip 3
      pure (.unit (a * 16 + b))
  -- Octal escapes have at most three digits and stay below 256.
  else if 48 ≤ u && u ≤ 55 then do
    let v ← ahead 1
    let w ← ahead 2
    if u == 48 && !(48 ≤ v && v ≤ 57) then do
      skip 1
      pure (.unit 0)
    else if 48 ≤ v && v ≤ 55 then
      if 48 ≤ w && w ≤ 55 && u ≤ 51 then do
        skip 3
        pure (.octal (((u - 48) * 8 + (v - 48)) * 8 + (w - 48)))
      else do
        skip 2
        pure (.octal ((u - 48) * 8 + (v - 48)))
    else do
      skip 1
      pure (.octal (u - 48))
  else if Blank.isLineEnd u then do
    lineEnd
    pure .nothing
  else
    skip (max k 1)
    match u with
    | 110 => pure (.unit 10)
    | 116 => pure (.unit 9)
    | 114 => pure (.unit 13)
    | 98 => pure (.unit 8)
    | 118 => pure (.unit 11)
    | 102 => pure (.unit 12)
    | 56 => pure (.octal 56)
    | 57 => pure (.octal 57)
    | _ => pure (.point n)

/-- The rest of a string after its opening quote. -/
def stringRest (strict : Bool) (quote : Nat) : Nat → Text → Bool → Lex Token
  | 0, acc, oct => pure (.string acc oct)
  | fuel + 1, acc, oct => do
    let u ← ahead 0
    if (← atEnd) || u == 10 || u == 13 then throw "unexpected end of string"
    else if u == quote then do skip 1; pure (.string acc oct)
    else if u == 92 then do
      skip 1
      if ← atEnd then throw "unexpected end of string"
      match ← escape with
      | .point n => stringRest strict quote fuel (acc.pushPoint n) oct
      | .unit n => stringRest strict quote fuel (acc.push (UInt16.ofNat n)) oct
      | .nothing => stringRest strict quote fuel acc oct
      | .octal n =>
        if strict then throw "octal escape sequences are not allowed in strict mode"
        else stringRest strict quote fuel (acc.push (UInt16.ofNat n)) true
      | .invalid what => throw what
    else do
      skip 1
      stringRest strict quote fuel (acc.push (UInt16.ofNat u)) oct

/-- The next piece of a template, up to an opening `${` or the closing backquote. -/
def templateRest : Nat → Option Text → Text → Lex Token
  | 0, acc, raw => pure (.template acc raw true)
  | fuel + 1, acc, raw => do
    let t ← read
    let u ← ahead 0
    if ← atEnd then throw "unexpected end of string"
    else if u == 96 then do skip 1; pure (.template acc raw true)
    else if u == 36 && (← ahead 1) == 123 then do skip 2; pure (.template acc raw false)
    else if u == 92 then do
      let start := (← get).pos
      skip 1
      if ← atEnd then throw "unexpected end of string"
      let e ← escape
      let written := t.slice start (← get).pos
      match e with
      | .point n => templateRest fuel (acc.map (·.pushPoint n)) (raw ++ written)
      | .unit n => templateRest fuel (acc.map (·.push (UInt16.ofNat n))) (raw ++ written)
      | .nothing => templateRest fuel acc (raw ++ written)
      -- Such escapes are wrong only in a template that no function takes; the raw text is kept
      -- anyway.
      | .octal _ => templateRest fuel none (raw ++ written)
      | .invalid _ => templateRest fuel none (raw ++ written)
    else if u == 13 then do
      -- Line ends of two characters count as one.
      lineEnd
      templateRest fuel (acc.map (·.push 10)) (raw.push 10)
    else if Blank.isLineEnd u then do
      lineEnd
      templateRest fuel (acc.map (·.push (UInt16.ofNat u))) (raw.push (UInt16.ofNat u))
    else do
      skip 1
      templateRest fuel (acc.map (·.push (UInt16.ofNat u))) (raw.push (UInt16.ofNat u))

/-- A piece of a template from the current position on. -/
def templatePart : Lex Token := do
  templateRest ((← read).size + 1) (some Text.empty) Text.empty

/-- The body of a regular expression after its opening slash. -/
def regexpBody : Nat → Bool → Text → Lex Text
  | 0, _, acc => pure acc
  | fuel + 1, inClass, acc => do
    let u ← ahead 0
    if ← atEnd then throw "unexpected end of regexp"
    else if Blank.isLineEnd u then throw "unexpected line terminator in regexp"
    else if u == 47 && !inClass then do skip 1; pure acc
    else if u == 92 then do
      let v ← ahead 1
      skip 1
      if ← atEnd then throw "unexpected end of regexp"
      if Blank.isLineEnd v then throw "unexpected line terminator in regexp"
      skip 1
      regexpBody fuel inClass ((acc.push 92).push (UInt16.ofNat v))
    else do
      skip 1
      let inClass := if u == 91 then true else if u == 93 then false else inClass
      regexpBody fuel inClass (acc.push (UInt16.ofNat u))

/-- A regular expression, after its opening slash. -/
def regexp : Lex Token := do
  let t ← read
  let body ← regexpBody (t.size + 1) false Text.empty
  let (flags, esc) ← nameRest (t.size + 1) Text.empty false
  if esc then throw "invalid regular expression flags"
  pure (.regexp body flags)

/-! ## Punctuation -/

/-- Marks of more than one character, longest first. -/
def longMarks : List String :=
  [">>>=", "...", "===", "!==", "**=", "<<=", ">>=", ">>>", "&&=", "||=", "??=",
    "=>", "==", "!=", "<=", ">=", "&&", "||", "??", "?.", "++", "--", "+=", "-=", "*=", "/=", "%=",
    "&=", "|=", "^=", "<<", ">>", "**"]

/-- Whether a mark stands at the current position. -/
def marksHere (m : String) : Lex Bool := do
  let t ← read
  pure (t.matchesAt (Text.ofString m) (← get).pos)

/-- A mark at the current position. -/
def mark : Lex Token := do
  let u ← ahead 0
  let rec go : List String → Lex (Option String)
    | [] => pure none
    | m :: ms => do
      if ← marksHere m then
        if m == "?." && 48 ≤ (← ahead 2) && (← ahead 2) ≤ 57 then go ms else pure (some m)
      else go ms
  match ← go longMarks with
  | some m =>
    skip m.length
    pure (.punct m)
  | none =>
    skip 1
    pure (.punct (Char.ofNat u).toString)

/-- The next token; tells also whether a line ended before it. -/
def token (strict web : Bool) : Lex (Token × Bool × Nat) := do
  let t ← read
  let fuel := t.size + 1
  let lf ← skipBlanks web ((← get).pos == 0) fuel false
  let start := (← get).pos
  let (n, k) := t.pointAt start
  let tok ←
    if k == 0 then pure Token.eof
    else if isNameStart n then do
      let (name, esc) ← nameRest fuel Text.empty false
      pure (.ident name esc)
    else if n == 92 then do
      if (← ahead 1) == 117 then
        let (name, _) ← nameRest fuel Text.empty true
        match name.points[0]? with
        | some p => if isNameStart p then pure (.ident name true) else throw "unexpected character"
        | none => throw "unexpected character"
      else mark
    else if n == 35 then do
      let (p, kk) := t.pointAt (start + 1)
      if kk > 0 && isNameStart p || (← ahead 1) == 92 then
        skip 1
        let (name, _) ← nameRest fuel Text.empty false
        pure (.privateName (Text.single 35 ++ name))
      -- Only the first line can be one for the shell.
      else if start == 0 && p == 33 then do
        skipLine fuel
        pure (.punct "#")
      else throw "invalid first character of private name"
    else if 48 ≤ n && n ≤ 57 then numeral strict
    else if n == 46 && 48 ≤ t.at' (start + 1) && t.at' (start + 1) ≤ 57 then numeral strict
    else if n == 34 || n == 39 then do
      skip 1
      stringRest strict n fuel Text.empty false
    else if n == 96 then do
      skip 1
      templatePart
    else if n ≥ 128 then throw "unexpected character"
    else mark
  pure (tok, lf, start)

end Lex

end Script

end ScriptHost
