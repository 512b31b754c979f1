import ScriptHost.Pattern.Tree
import ScriptHost.Number.Reading
/-!
# Reading regular expressions
-/

namespace ScriptHost

namespace Pattern

/-- The state of the reader. -/
structure ReadState where
  pos : Nat := 0
  /-- How many groups were opened, the whole match included. -/
  groups : Nat := 1
  names : List (Text × Nat) := []
deriving Inhabited

/-- Readers over fixed text; a failure is a message. -/
abbrev Read := ReaderT (Array Nat × Flags × Bool) (StateT ReadState (Except String))

namespace Read

/-- The point at a distance from the current one. -/
def peekAt (i : Nat) : Read (Option Nat) := do pure ((← read).1[(← get).pos + i]?)

/-- The current point. -/
def peek : Read (Option Nat) := peekAt 0

/-- Moves on. -/
def skip (n : Nat) : Read Unit := modify fun s => { s with pos := s.pos + n }

/-- Whether the current point is a character. -/
def at' (c : Char) : Read Bool := do pure ((← peek) == some c.toNat)

/-- Moves past a character, if it stands here. -/
def eat (c : Char) : Read Bool := do
  if ← at' c then
    skip 1
    pure true
  else pure false

/-- Whether points are whole characters. -/
def unicode : Read Bool := do
  let f := (← read).2.1
  pure (f.unicode || f.unicodeSets)

/-- Whether the pattern has named groups. -/
def hasNames : Read Bool := do pure (← read).2.2

/-- A point as a character. -/
def charOf (n : Nat) : Char := Char.ofNat n

/-- Digits of a number at the current place. -/
def digits : Nat → Nat → Read (Option Nat)
  | 0, n => pure (some n)
  | fuel + 1, n => do
    match ← peek with
    | some c =>
      if 48 ≤ c && c ≤ 57 then do
        skip 1
        digits fuel (n * 10 + (c - 48))
      else pure (some n)
    | none => pure (some n)

/-- A number at the current place. -/
def number? : Read (Option Nat) := do
  match ← peek with
  | some c => if 48 ≤ c && c ≤ 57 then digits ((← read).1.size + 1) 0 else pure none
  | none => pure none

/-- Hexadecimal digits, exactly so many. -/
def hexDigits (count : Nat) : Read (Option Nat) := do
  let start := (← get).pos
  let cs := (← read).1.extract start (start + count)
  if cs.size == count && cs.all (fun c => c < 128 && Numeral.digitValue (charOf c) < 16) then
    skip count
    pure (some (cs.foldl (fun n c => n * 16 + Numeral.digitValue (charOf c)) 0))
  else pure none

/-- A quantifier: least and most. -/
def quantifier : Read (Option (Nat × Option Nat)) := do
  if ← eat '*' then pure (some (0, none))
  else if ← eat '+' then pure (some (1, none))
  else if ← eat '?' then pure (some (0, some 1))
  else if ← at' '\x7b' then
    let start := (← get).pos
    skip 1
    -- Loose patterns may hold a brace that is only a character.
    let giveUp : Read (Option (Nat × Option Nat)) := do
      if ← unicode then throw "invalid repetition count"
      modify fun s => { s with pos := start }
      pure none
    match ← number? with
    | none => giveUp
    | some least => do
      if ← eat ',' then
        if ← eat '\x7d' then pure (some (least, none))
        else
          match ← number? with
          | some most => do
            if ← eat '\x7d' then
              if most < least then throw "invalid repetition count"
              pure (some (least, some most))
            else giveUp
          | none => giveUp
      else if ← eat '\x7d' then pure (some (least, some least))
      else giveUp
  else pure none

/-- The name of a group, up to its closing bracket. -/
def groupName : Nat → Text → Read Text
  | 0, _ => throw "invalid group name"
  | fuel + 1, t => do
    match ← peek with
    | some 62 => do
      skip 1
      if t.isEmpty then throw "invalid group name"
      pure t
    | some c => do
      skip 1
      let letter := (97 ≤ c && c ≤ 122) || (65 ≤ c && c ≤ 90) || c == 36 || c == 95 || c ≥ 128
      if letter || (48 ≤ c && c ≤ 57 && !t.isEmpty) then groupName fuel (t.pushPoint c)
      else throw "invalid group name"
    | none => throw "invalid group name"

/-- Escapes that mean one point, after the backslash. -/
def pointEscape (inClass : Bool) : Read Nat := do
  match ← peek with
  | none => throw "unexpected end"
  | some n => do
    skip 1
    let u ← unicode
    match charOf n with
    | 'n' => pure 10
    | 'r' => pure 13
    | 't' => pure 9
    | 'v' => pure 11
    | 'f' => pure 12
    | '0' => do
      match ← peek with
      | some d =>
        if 48 ≤ d && d ≤ 55 && !u then do
          skip 1
          pure (d - 48)
        else if 48 ≤ d && d ≤ 57 && u then throw "invalid decimal escape in regular expression"
        else pure 0
      | none => pure 0
    | 'x' => do
      match ← hexDigits 2 with
      | some v => pure v
      | none => if u then throw "invalid escape sequence in regular expression" else pure n
    | 'u' => do
      if (← at' '\x7b') && u then do
        skip 1
        let rec go : Nat → Nat → Bool → Read Nat
          | 0, _, _ => throw "invalid escape sequence in regular expression"
          | fuel + 1, v, some? => do
            match ← peek with
            | some 125 => do
              skip 1
              if some? && v ≤ 0x10FFFF then pure v
              else throw "invalid escape sequence in regular expression"
            | some c =>
              if c < 128 && Numeral.digitValue (charOf c) < 16 && v ≤ 0x10FFFF then do
                skip 1
                go fuel (v * 16 + Numeral.digitValue (charOf c)) true
              else throw "invalid escape sequence in regular expression"
            | none => throw "invalid escape sequence in regular expression"
        go ((← read).1.size + 1) 0 false
      else
        match ← hexDigits 4 with
        | some v => do
          -- Two escapes are one point if they are the halves of a pair; else the second is read
          -- again.
          if u && 0xD800 ≤ v && v < 0xDC00 then
            let start := (← get).pos
            if (← eat '\\') && (← eat 'u') then
              match ← hexDigits 4 with
              | some w =>
                if 0xDC00 ≤ w && w < 0xE000 then
                  return 0x10000 + (v - 0xD800) * 0x400 + (w - 0xDC00)
              | none => pure ()
            modify fun s => { s with pos := start }
          pure v
        | none => if u then throw "invalid escape sequence in regular expression" else pure n
    | 'c' => do
      match ← peek with
      | some d =>
        if (97 ≤ d && d ≤ 122) || (65 ≤ d && d ≤ 90) then do
          skip 1
          pure (d % 32)
        else if u then throw "invalid escape sequence in regular expression"
        else do
          modify fun s => { s with pos := s.pos - 1 }
          pure 92
      | none => if u then throw "invalid escape sequence in regular expression" else do
          modify fun s => { s with pos := s.pos - 1 }
          pure 92
    | c =>
      if inClass && c == 'b' then pure 8
      else if inClass && c == '-' then pure 45
      else if u && !("^$\\.*+?()[]\x7b\x7d|/".toList.contains c) then
        throw "invalid escape sequence in regular expression"
      else pure n

/-- Escapes that mean a set, after the backslash. -/
def setEscape? : Read (Option ClassItem) := do
  let one (i : ClassItem) : Read (Option ClassItem) := do
    skip 1
    pure (some i)
  match (← peek).map charOf with
  | some 'd' => one (.digits false)
  | some 'D' => one (.digits true)
  | some 'w' => one (.wordChars false)
  | some 'W' => one (.wordChars true)
  | some 's' => one (.blanks false)
  | some 'S' => one (.blanks true)
  | _ => pure none

/-- One member between brackets. -/
def classAtom : Read (ClassItem × Option Nat) := do
  match ← peek with
  | none => throw "unexpected end"
  | some 92 => do
    skip 1
    match ← setEscape? with
    | some i => pure (i, none)
    | none => do
      let v ← pointEscape true
      pure (.range v v, some v)
  | some n => do
    skip 1
    pure (.range n n, some n)

/-- What stands between brackets. -/
def classItems : Nat → List ClassItem → Read (List ClassItem)
  | 0, _ => throw "unexpected end"
  | fuel + 1, acc => do
    match ← peek with
    | none => throw "unexpected end"
    | some 93 => do
      skip 1
      pure acc.reverse
    | some _ => do
      let (a, low) ← classAtom
      let next ← peekAt 1
      if (← at' '-') && next != some 93 && next.isSome then
        skip 1
        let (b, high) ← classAtom
        match low, high with
        | some x, some y => do
          if y < x then throw "invalid class range"
          classItems fuel (.range x y :: acc)
        | _, _ => do
          if ← unicode then throw "invalid class range"
          -- A set has no place in the order, so here the dash is only a character.
          classItems fuel (b :: .range 45 45 :: a :: acc)
      else classItems fuel (a :: acc)

mutual

/-- Alternatives. -/
def disjunction : Nat → Read Node
  | 0 => throw "too many groups"
  | fuel + 1 => do
    let a ← alternative fuel .empty
    if ← eat '|' then
      let b ← disjunction fuel
      pure (.alt a b)
    else pure a

/-- Terms one after the other. -/
def alternative : Nat → Node → Read Node
  | 0, _ => throw "too many groups"
  | fuel + 1, acc => do
    match (← peek).map charOf with
    | none | some '|' | some ')' => pure acc
    | some _ => do
      let before := (← get).groups
      let (n, repeatable) ← term fuel
      let after := (← get).groups
      let n ← if repeatable then do
          match ← quantifier with
          | some (least, most) => do
            let lazy? ← eat '?'
            pure (Node.loop least most (!lazy?) before after n)
          | none => pure n
        else pure n
      match acc with
      | .empty => alternative fuel n
      | acc => alternative fuel (.seq acc n)

/-- One term, and whether it may be repeated. -/
def term : Nat → Read (Node × Bool)
  | 0 => throw "too many groups"
  | fuel + 1 => do
    match ← peek with
    | none => throw "unexpected end"
    | some n => do
      let u ← unicode
      match charOf n with
      | '^' => do
        skip 1
        pure (.lineStart, false)
      | '$' => do
        skip 1
        pure (.lineEnd, false)
      | '.' => do
        skip 1
        pure (.any, true)
      | '(' => do
        skip 1
        if ← eat '?' then
          if ← eat ':' then closed fuel
          else if ← eat '=' then lookAt fuel true false
          else if ← eat '!' then lookAt fuel true true
          else if ← eat '<' then
            if ← eat '=' then lookAt fuel false false
            else if ← eat '!' then lookAt fuel false true
            else do
              let name ← groupName ((← read).1.size + 1) Text.empty
              if (← get).names.any (·.1 == name) then throw "duplicate group name"
              let i := (← get).groups
              modify fun s => { s with groups := i + 1, names := s.names ++ [(name, i)] }
              let (b, _) ← closed fuel
              pure (.group i b, true)
          else throw "invalid group"
        else do
          let i := (← get).groups
          modify fun s => { s with groups := i + 1 }
          let (b, _) ← closed fuel
          pure (.group i b, true)
      | '[' => do
        skip 1
        let neg ← eat '^'
        let items ← classItems ((← read).1.size + 1) []
        pure (.set neg items, true)
      | '*' | '+' | '?' => throw "nothing to repeat"
      | '\\' => do
        skip 1
        escape u
      | '\x7b' => do
        if u then throw "syntax error"
        match ← quantifier with
        | some _ => throw "nothing to repeat"
        | none => do
          skip 1
          pure (.char n, true)
      | ']' | '\x7d' => do
        if u then throw "syntax error"
        skip 1
        pure (.char n, true)
      | _ => do
        skip 1
        pure (.char n, true)

/-- What stands between parentheses. -/
def closed : Nat → Read (Node × Bool)
  | 0 => throw "too many groups"
  | fuel + 1 => do
    let b ← disjunction fuel
    if ← eat ')' then pure (b, true) else throw "expecting ')'"

/-- A look ahead or behind. -/
def lookAt : Nat → Bool → Bool → Read (Node × Bool)
  | 0, _, _ => throw "too many groups"
  | fuel + 1, ahead, negated => do
    let (b, _) ← closed fuel
    let u ← unicode
    pure (.look ahead negated b, ahead && !u)

/-- An escape outside brackets. -/
def escape (u : Bool) : Read (Node × Bool) := do
  match (← peek).map charOf with
  | none => throw "unexpected end"
  | some 'b' => do
    skip 1
    pure (.boundary false, false)
  | some 'B' => do
    skip 1
    pure (.boundary true, false)
  | some 'k' => do
    if u || (← hasNames) then
      skip 1
      if ← eat '<' then
        let name ← groupName ((← read).1.size + 1) Text.empty
        pure (.backNamed name, true)
      else throw "expecting group name"
    else do
      skip 1
      pure (.char 107, true)
  | some c => do
    match ← setEscape? with
    | some i => pure (.set false [i], true)
    | none =>
      if '1' ≤ c && c ≤ '9' then do
        let start := (← get).pos
        match ← number? with
        | some i => do
          -- Groups may be opened further on, so all opening parentheses of the pattern are counted.
          let total := ((← read).1.toList.filter (· == 40)).length + 1
          if i < total then pure (.back i, true)
          else if u then throw "back reference out of range in regular expression"
          else do
            modify fun s => { s with pos := start + 1 }
            pure (.char c.toNat, true)
        | none => pure (.char c.toNat, true)
      else do
        let v ← pointEscape false
        pure (.char v, true)

end

/-- The names that back references use. -/
def namesUsed : Node → List Text
  | .backNamed n => [n]
  | .seq a b | .alt a b => namesUsed a ++ namesUsed b
  | .group _ b | .loop _ _ _ _ _ b | .look _ _ b => namesUsed b
  | _ => []

/-- A whole pattern. -/
def whole : Read Node := do
  let n ← disjunction ((← read).1.size * 4 + 16)
  match ← peek with
  | none => do
    let names := (← get).names
    if (namesUsed n).any (fun x => !(names.any (·.1 == x))) then throw "group name not defined"
    pure n
  | some c => if c == 41 then throw "extraneous characters at the end" else throw "syntax error"

end Read

/-- Reads flags; none if a letter is no flag or stands twice. -/
def Flags.ofText? (t : Text) : Option Flags :=
  let step := fun (acc : Option Flags) (c : Char) =>
    match acc with
    | none => none
    | some f =>
      match c with
      | 'd' => if f.hasIndices then none else some { f with hasIndices := true }
      | 'g' => if f.global then none else some { f with global := true }
      | 'i' => if f.ignoreCase then none else some { f with ignoreCase := true }
      | 'm' => if f.multiline then none else some { f with multiline := true }
      | 's' => if f.dotAll then none else some { f with dotAll := true }
      | 'u' => if f.unicode || f.unicodeSets then none else some { f with unicode := true }
      | 'v' => if f.unicode || f.unicodeSets then none else some { f with unicodeSets := true }
      | 'y' => if f.sticky then none else some { f with sticky := true }
      | _ => none
  t.toAsciiList.foldl step (some {})

/-- The letters of flags, in alphabetical order. -/
def Flags.text (f : Flags) : String :=
  String.ofList ((if f.hasIndices then ['d'] else []) ++ (if f.global then ['g'] else []) ++
    (if f.ignoreCase then ['i'] else []) ++ (if f.multiline then ['m'] else []) ++
    (if f.dotAll then ['s'] else []) ++ (if f.unicode then ['u'] else []) ++
    (if f.unicodeSets then ['v'] else []) ++ (if f.sticky then ['y'] else []))

/-- Reads a regular expression. -/
def parse (body flags : Text) : Except String Pattern :=
  match Flags.ofText? flags with
  | none => .error "invalid regular expression flags"
  | some f =>
    let points := if f.unicode || f.unicodeSets then body.points else body.units.map (·.toNat)
    let named := (body.indexOf? (txt "(?<") 0).isSome
    match Read.whole (points, f, named) {} with
    | .ok (n, s) => .ok { node := n, flags := f, groups := s.groups, names := s.names }
    | .error m => .error m

end Pattern

end ScriptHost
