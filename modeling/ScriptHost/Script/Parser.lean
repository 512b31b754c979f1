import ScriptHost.Script.Lexer
import ScriptHost.Pattern.Reader
/-!
# The state of the parser

One token of lookahead over the lexer, the place of the token before it, and what the surrounding
function allows: strict rules, `await`, `yield`, `return`, `super` and the labels in reach.
-/

namespace ScriptHost

namespace Script

/-- What the surrounding function and statements allow. -/
structure Scope where
  strict : Bool := false
  async : Bool := false
  generator : Bool := false
  isModule : Bool := false
  /-- Inside a function body, where `return` may stand. -/
  returns : Bool := false
  newTarget : Bool := false
  superCall : Bool := false
  superMember : Bool := false
  /-- Inside the initializer of a class field or a static block. -/
  initializer : Bool := false
  /-- Inside a static block. -/
  staticBlock : Bool := false
  /-- Among the parameters of the function. -/
  inParameters : Bool := false
  inLoop : Bool := false
  inSwitch : Bool := false
  /-- Whether there are regular expressions. -/
  regexps : Bool := true
  /-- Labels in reach, and whether they name loops. -/
  labels : List (Text × Bool) := []
deriving Inhabited

/-- A token with where it stands. -/
structure Here where
  tok : Token := .eof
  /-- Whether a line ended before the token. -/
  lf : Bool := false
  start : Nat := 0
  line : Nat := 1
  mark : Nat := 0
  lineStart : Nat := 0
deriving Inhabited

/-- The state of the parser. -/
structure ParseState where
  lex : LexState := {}
  cur : Here := {}
  /-- The token before the current one. -/
  prev : Here := {}
  /-- Where the token before the current one ends. -/
  prevStop : Nat := 0
  scope : Scope := {}
  /-- Whether `await` was used outside every function. -/
  topAwait : Bool := false
  /-- Whether `eval` was called by name in the current function. -/
  callsEval : Bool := false
deriving Inhabited

/-- Why a script could not be read. -/
inductive ParseFault where
  /-- The text is no script; the line where this showed. -/
  | malformed (message : String) (line : Nat)
  /-- The text is nested too deeply. -/
  | tooDeep
deriving Inhabited

/-- Parsers over a fixed text. -/
abbrev Parse := ReaderT Text (StateT ParseState (Except ParseFault))

namespace Parse

/-- Fails with a message. -/
def fail {α : Type} (message : String) : Parse α := do
  throw (.malformed message (← get).lex.line)

/-- Runs a reader of the lexer. -/
def lexing {α : Type} (l : Lex α) : Parse α := do
  let s ← get
  match l (← read) s.lex with
  | .ok (a, lex) =>
    set { s with lex := lex }
    pure a
  | .error m => throw (.malformed m s.lex.line)

/-- Reads the next token. -/
def next : Parse Unit := do
  let s ← get
  let stop := s.lex.pos
  let (tok, lf, start) ← lexing (Lex.token s.scope.strict !s.scope.isModule)
  modify fun s' =>
    { s' with
      prev := s.cur, prevStop := stop
      cur := ⟨tok, lf, start, s'.lex.line, s'.lex.mark, s'.lex.lineStart⟩ }

/-- The current token. -/
def tok : Parse Token := do pure (← get).cur.tok

/-- How many bytes a unit takes in a file. -/
def unitBytes (u : UInt16) : Nat := if u < 0x80 then 1 else if u < 0x800 then 2
  else if 0xD800 ≤ u && u < 0xE000 then 2 else 3

/-- The place of the token before the current one. -/
def place : Parse Place := do
  let t ← read
  let h := (← get).prev
  let column :=
    if h.mark ≤ h.lineStart then 0
    else (t.slice h.lineStart h.mark).units.foldl (fun n u => n + unitBytes u) 0
  pure ⟨h.line, max 1 column⟩

/-- Whether the current token is a mark. -/
def isMark (m : String) : Parse Bool := do
  match ← tok with
  | .punct p => pure (p == m)
  | _ => pure false

/-- Whether the current token is a word, written without escapes. -/
def isWord (w : String) : Parse Bool := do
  match ← tok with
  | .ident n esc => pure (!esc && n == Text.ofString w)
  | _ => pure false

/-- Takes a mark if it is the current token. -/
def takeMark (m : String) : Parse Bool := do
  if ← isMark m then
    next
    pure true
  else pure false

/-- Takes a word if it is the current token. -/
def takeWord (w : String) : Parse Bool := do
  if ← isWord w then
    next
    pure true
  else pure false

/-- The current token as it is written. -/
def tokenText : Parse String := do
  let t ← read
  let s ← get
  match s.cur.tok with
  | .eof => pure ""
  | _ => pure (t.slice s.cur.start s.lex.pos).toHostString

/-! ## Words -/

/-- Words that are never names. -/
def alwaysReserved : List Text :=
  ["break", "case", "catch", "class", "const", "continue", "debugger", "default", "delete", "do",
    "else", "enum", "export", "extends", "false", "finally", "for", "function", "if", "import",
    "in", "instanceof", "new", "null", "return", "super", "switch", "this", "throw", "true", "try",
    "typeof", "var", "void", "while", "with"].map Text.ofString

/-- Words that are no names under strict rules. -/
def strictReserved : List Text :=
  ["implements", "interface", "let", "package", "private", "protected", "public", "static",
    "yield"].map Text.ofString

/-- The word `await`. -/
def awaitWord : Text := txt "await"
/-- The word `yield`. -/
def yieldWord : Text := txt "yield"
/-- The word `arguments`. -/
def argumentsWord : Text := txt "arguments"
/-- The word `eval`. -/
def evalWord : Text := txt "eval"

/-- Whether a word may be used as a name here. -/
def isName (n : Text) : Parse Bool := do
  let c := (← get).scope
  if alwaysReserved.contains n then pure false
  else if c.strict && strictReserved.contains n then pure false
  else if n == yieldWord && c.generator then pure false
  else if n == awaitWord && (c.async || c.isModule || c.staticBlock) then pure false
  else pure true

/-- Fails at a word that escapes do not make a name. -/
def reservedWord {α : Type} (n : Text) : Parse α :=
  fail ("'" ++ n.toHostString ++ "' is a reserved identifier")

/-- The current token if it is a name; words of the grammar are none. -/
def nameHere : Parse (Option Text) := do
  match ← tok with
  | .ident n esc =>
    if ← isName n then pure (some n)
    else if esc then reservedWord n
    else pure none
  | _ => pure none

/-- Fails at a token that does not fit. -/
def unexpected {α : Type} : Parse α := do
  match ← tok with
  | .eof => fail "Unexpected end of input"
  | .number _ => fail "Unexpected number"
  | .string _ _ => fail "Unexpected string"
  | .template _ _ _ => fail "Unexpected string template"
  | .regexp _ _ => fail "Unexpected regexp"
  | .ident n esc =>
    let what := if esc || (← isName n) then "identifier" else "token"
    fail ("Unexpected " ++ what ++ " '" ++ n.toHostString ++ "'")
  | _ => fail ("Unexpected token '" ++ (← tokenText) ++ "'")

/-- Takes a mark that has to stand here. -/
def expect (m : String) : Parse Unit := do
  if ← isMark m then next else unexpected

/-- The end of a statement: a semicolon, or a place where it may be left out. -/
def endStatement : Parse Unit := do
  let s ← get
  match s.cur.tok with
  | .punct ";" => next
  | .punct "\x7d" => pure ()
  | .eof => pure ()
  | _ => if s.cur.lf then pure () else fail "expecting ';'"

/-- Runs a parser and goes back to where it began. -/
def lookahead {α : Type} (p : Parse α) : Parse α := do
  let s ← get
  let a ← p
  set s
  pure a

/-- The token after the current one, and whether a line ends before it. -/
def peek : Parse (Token × Bool) := lookahead do
  next
  let s ← get
  pure (s.cur.tok, s.cur.lf)

/-- Runs a parser inside another scope. -/
def within {α : Type} (change : Scope → Scope) (p : Parse α) : Parse α := do
  let old := (← get).scope
  modify fun s => { s with scope := change s.scope }
  let a ← p
  modify fun s => { s with scope := old }
  pure a

/-- Reads a function, and says whether `eval` is called by name in it. -/
def notingEval {α : Type} (p : Parse α) : Parse (α × Bool) := do
  let outer := (← get).callsEval
  modify fun s => { s with callsEval := false }
  let a ← p
  let own := (← get).callsEval
  modify fun s => { s with callsEval := outer }
  pure (a, own)

/-- Checks a name that is declared. -/
def checkDeclared (n : Text) : Parse Unit := do
  if (← get).scope.strict && (n == evalWord || n == argumentsWord) then
    fail "invalid variable name in strict mode"

/-- A name that is declared; fails with a message where none stands. -/
def bindingName (missing : String) : Parse Text := do
  match ← nameHere with
  | some n =>
    checkDeclared n
    next
    pure n
  | none => fail missing

/-- What a pair of brackets holds and what stands after it. -/
structure Brackets where
  /-- The token after the closing bracket; none if the brackets do not match. -/
  after : Option Token := none
  /-- Whether a line ends before that token. -/
  lf : Bool := false
  /-- Whether a semicolon stands directly inside. -/
  semicolon : Bool := false

/-- Looks over the brackets that open at the current token. -/
def brackets : Parse Brackets := lookahead do
  let t ← read
  let rec go : Nat → List String → Bool → Bool → Parse Brackets
    | 0, _, _, _ => pure {}
    | fuel + 1, closers, operand, semicolon => do
      let unmatched : Brackets := { semicolon }
      match ← tok with
      | .eof => pure unmatched
      | .punct p =>
        if p == "(" then do next; go fuel (")" :: closers) true semicolon
        else if p == "[" then do next; go fuel ("]" :: closers) true semicolon
        else if p == "\x7b" then do next; go fuel ("\x7d" :: closers) true semicolon
        else if p == ")" || p == "]" || p == "\x7d" then
          match closers with
          | [c] =>
            if c == p then do
              next
              let s ← get
              pure { after := some s.cur.tok, lf := s.cur.lf, semicolon }
            else pure unmatched
          | c :: cs => if c == p then do next; go fuel cs false semicolon else pure unmatched
          | [] => pure unmatched
        -- Where an operand is expected, a slash begins a regular expression, whose brackets do not
        -- count.
        else if (p == "/" || p == "/=") && operand then do
          modify fun s => { s with lex := { s.lex with pos := s.cur.start + 1 } }
          let r ← lexing Lex.regexp
          modify fun s => { s with cur := { s.cur with tok := r } }
          next
          go fuel closers false semicolon
        else do
          let direct := p == ";" && closers.length == 1
          next
          go fuel closers true (semicolon || direct)
      | .template _ _ last =>
        if last then do next; go fuel closers false semicolon
        else do
          let inner ← templateInner fuel
          if inner then do next; go fuel closers false semicolon else pure unmatched
      | .ident n _ =>
        next
        go fuel closers (alwaysReserved.contains n && n != txt "this" && n != txt "super"
          && n != txt "null" && n != txt "true" && n != txt "false") semicolon
      | _ => do next; go fuel closers false semicolon
  go (t.size + 2) [] true false
where
  /-- Goes over the expressions inside a template, up to its last piece. -/
  templateInner (fuel : Nat) : Parse Bool := do
    let rec pieces : Nat → Nat → Parse Bool
      | 0, _ => pure false
      | n + 1, depth => do
        next
        match ← tok with
        | .eof => pure false
        | .punct p =>
          if p == "\x7b" then pieces n (depth + 1)
          else if p == "\x7d" then
            if depth == 0 then
              let r ← lexing Lex.templatePart
              modify fun s => { s with cur := { s.cur with tok := r } }
              match r with
              | .template _ _ true => pure true
              | _ => pieces n 0
            else pieces n (depth - 1)
          else pieces n depth
        | _ => pieces n depth
    pieces fuel 0

/-- Looks over the brackets that open at the current token; those with broken tokens in them match
nothing. -/
def bracketsHere : Parse Brackets := fun t s =>
  match brackets t s with
  | .error (.malformed _ _) => .ok ({}, s)
  | r => r

/-- Whether the brackets that open here are followed by an arrow on the same line. -/
def arrowFollows : Parse Bool := do
  let b ← bracketsHere
  pure (b.after == some (.punct "=>") && !b.lf)

/-- Whether a pattern or literal opens here. -/
def opensBracket : Parse Bool := do pure ((← isMark "[") || (← isMark "\x7b"))

/-- Whether a pattern or literal opens here whose brackets are followed by one of some marks. -/
def bracketsBefore (marks : List String) : Parse Bool := do
  if ← opensBracket then
    match (← bracketsHere).after with
    | some (.punct p) => pure (marks.contains p)
    | _ => pure false
  else pure false

end Parse

end Script

end ScriptHost
