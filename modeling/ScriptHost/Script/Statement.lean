import ScriptHost.Script.Expression
/-!
# Statements of the grammar, and whole scripts
-/

namespace ScriptHost

namespace Script

namespace Grammar

open Parse

/-! ## Declarations -/

/-- Declared names and patterns with their initial values. -/
def declarators (R : Rules) (kind : DeclKind) (allowIn : Bool) : Parse (List Target) := do
  looping ([] : List Target) fun acc => do
    let item ←
      if ← bracketsBefore ["="] then do
        withDefault R (← R.pattern true)
      else do
        if kind != .var && (← nameHere) == some (txt "let") then
          fail "'let' is not a valid lexical identifier"
        let n ← bindingName "variable name expected"
        if ← takeMark "=" then do
          let e ← R.assign allowIn
          pure (.withDefault (.name n) e)
        else
          if kind == .const then fail "missing initializer for const variable"
          pure (.name n)
    if ← takeMark "," then pure (.inl (item :: acc)) else pure (.inr (item :: acc).reverse)

/-- Whether the word `let` here starts a declaration. -/
def startsLet (asDeclaration : Bool) : Parse Bool := do
  if ← isWord "let" then
    if (← get).scope.strict then pure true
    else
      let (t, lf) ← peek
      match t with
      | .punct "[" => pure true
      | .punct "\x7b" => pure (!lf || asDeclaration)
      | .ident n _ => pure (!alwaysReserved.contains n && (!lf || asDeclaration))
      | _ => pure false
  else pure false

/-! ## Statements -/

/-- A block after its opening brace. -/
def blockRest (R : Rules) : Parse Stmt := do pure (.block (← statementsUntilBrace R))

/-- A statement inside a loop. -/
def loopBody (R : Rules) : Parse Stmt := within (fun c => { c with inLoop := true }) (R.stmt false)

/-- The branch of an `if`, where loose rules let a function be declared. -/
def branch (R : Rules) : Parse Stmt := do
  if (← isWord "function") && !(← get).scope.strict then
    let s ← R.stmt true
    pure (.block [s])
  else R.stmt false

/-- How the names in the head of a loop are declared, if they are. -/
def declKind? (declaration : Bool) : Parse (Option DeclKind) := do
  if ← isWord "var" then pure (some .var)
  else if ← isWord "const" then pure (some .const)
  else if ← startsLet declaration then pure (some .lexical)
  else pure none

/-- The rest of a loop with a test, after its opening parenthesis. -/
def testLoop (R : Rules) : Parse Stmt := do
  let init : Stmt ←
    if ← isMark ";" then pure .empty
    else
      match ← declKind? true with
      | some kind => do
        next
        let items ← declarators R kind false
        pure (.declare kind items)
      | none => do
        let e ← expression R false
        pure (.expr e)
  expect ";"
  let test ← if ← isMark ";" then pure .absent else expression R true
  expect ";"
  let update ← if ← isMark ")" then pure .absent else expression R true
  expect ")"
  let body ← loopBody R
  pure (.loop init test update body)

/-- What a loop over items assigns to or declares. -/
def loopTarget (R : Rules) (isAwait : Bool) : Parse (Option DeclKind × Target) := do
  match ← declKind? true with
  | some kind =>
    next
    let p ←
      if ← opensBracket then R.pattern true
      else do
        let n ← bindingName "variable name expected"
        pure (.name n)
    pure (some kind, p)
  | none =>
    let afterWord ← if ← isWord "async" then do pure (some (← peek).1) else pure none
    if !isAwait && afterWord == some (.ident (txt "of") false) then
      fail "'for of' expression cannot start with 'async'"
    let isPattern ← if ← opensBracket then do
        match (← bracketsHere).after with
        | some (.ident n false) => pure (n == txt "of" || n == txt "in")
        | _ => pure false
      else pure false
    if isPattern then
      let p ← withDefault R (← R.pattern false)
      pure (none, p)
    else
      let e ← R.callee true
      let p ← assignTarget e "invalid for in/of left hand-side"
      pure (none, p)

/-- The rest of a loop over items or keys, after its opening parenthesis. -/
def itemLoop (R : Rules) (isAwait : Bool) : Parse Stmt := do
  let (kind, p) ← loopTarget R isAwait
  let init ← if ← takeMark "=" then R.assign false else pure .absent
  let hasInit := !init.isAbsent
  if ← takeWord "of" then
    if hasInit then fail "a declaration in the head of a for-of loop can't have an initializer"
    let e ← R.assign true
    expect ")"
    let body ← loopBody R
    pure (.forOf isAwait kind p e body)
  else if ← isWord "in" then
    if isAwait then fail "'for await' loop should be used with 'of'"
    let mayInit := kind == some .var && p.isName && !(← get).scope.strict
    if hasInit && !mayInit then
      fail "a declaration in the head of a for-in loop can't have an initializer"
    next
    let e ← expression R true
    expect ")"
    let body ← loopBody R
    let s := Stmt.forIn kind p e body
    pure (if hasInit then .block [.declare .var [.withDefault p init], s] else s)
  else fail "expected 'of' or 'in' in for control expression"

/-- The rest of a `for` statement. -/
def forRest (R : Rules) : Parse Stmt := do
  if ← isMark "(" then
    let b ← bracketsHere
    next
    if b.semicolon then testLoop R else itemLoop R false
  else
    let isAwait ← if ← isWord "await" then do
        let c := (← get).scope
        pure (c.async || !(← isName awaitWord))
      else pure false
    if isAwait then
      let c := (← get).scope
      if !mayWait c then fail "for await is only valid in asynchronous functions"
      next
      if !c.returns then modify fun s => { s with topAwait := true }
    expect "("
    itemLoop R isAwait

/-- The rest of a `switch` statement. -/
def switchRest (R : Rules) : Parse Stmt := do
  expect "("
  let e ← expression R true
  expect ")"
  expect "\x7b"
  within (fun c => { c with inSwitch := true }) do
    let cases ← looping (([] : List Stmt), false) fun (acc, hasDefault) => do
      if ← takeMark "\x7d" then pure (.inr acc.reverse)
      else
        let isDefault ← isWord "default"
        let test ←
          if ← takeWord "case" then expression R true
          else if ← takeWord "default" then pure .absent
          else fail "invalid switch statement"
        expect ":"
        if isDefault && hasDefault then fail "duplicate default"
        let body ← looping ([] : List Stmt) fun acc => do
          if (← isMark "\x7d") || (← isWord "case") || (← isWord "default") then
            pure (.inr acc.reverse)
          else do
            let s ← R.stmt true
            pure (.inl (s :: acc))
        pure (.inl (.choice test body :: acc, hasDefault || isDefault))
    pure (.choose e cases)

/-- The rest of a `try` statement. -/
def tryRest (R : Rules) : Parse Stmt := do
  expect "\x7b"
  let body ← statementsUntilBrace R
  let (hasHandler, param, handler) ←
    if ← takeWord "catch" then do
      let param ←
        if ← takeMark "(" then do
          let p ← if ← opensBracket then do withDefault R (← R.pattern true) else do
              let n ← bindingName "identifier expected"
              pure (Target.name n)
          expect ")"
          pure p
        else if !(← isMark "\x7b") then unexpected
        else pure .hole
      expect "\x7b"
      let h ← statementsUntilBrace R
      pure (true, param, h)
    else pure (false, .hole, [])
  let (hasFinalizer, finalizer) ←
    if ← takeWord "finally" then do
      expect "\x7b"
      let f ← statementsUntilBrace R
      pure (true, f)
    else pure (false, [])
  if !hasHandler && !hasFinalizer then fail "expecting catch or finally"
  pure (.attempt body hasHandler param handler hasFinalizer finalizer)

/-- The label after `break` or `continue`, if it stands on the same line. -/
def jumpLabel : Parse (Option Text) := do
  if (← get).cur.lf then pure none
  else
    match ← tok with
    | .ident n _ => do
      let named ← isName n
      if named then next
      pure (if named then some n else none)
    | _ => pure none

/-- The module that the rest of an import or export comes from. -/
def fromClause : Parse Text := do
  if !(← takeWord "from") then fail "from clause expected"
  match ← tok with
  | .string t _ => do next; pure t
  | _ => fail "string expected"

/-- Any word, such as may stand for a name that is exported. -/
def anyWord : Parse Text := do
  match ← tok with
  | .ident n _ => do next; pure n
  | _ => fail "identifier expected"

/-- The name of an exported thing: any word, or a string. -/
def exportedName : Parse (Text × Bool) := do
  match ← tok with
  | .string t _ => do next; pure (t, true)
  | _ => do pure (← anyWord, false)

/-- A name that an import binds. -/
def importBinding (n : Text) : Parse Text := do
  if isGuardedName n then fail "invalid import binding"
  pure n

/-- The rest of an `import` declaration of a module. -/
def importRest : Parse Stmt := do
  match ← tok with
  | .string t _ => do
    next
    endStatement
    pure (.importFrom t [] none)
  | _ =>
    let (names, more) ← match ← nameHere with
      | some n => do
        next
        let n ← importBinding n
        let more ← takeMark ","
        pure ([(txt "default", n)], more)
      | none => pure ([], true)
    let (names, whole) ←
      if !more then pure (names, none)
      else if ← takeMark "*" then do
        if !(← takeWord "as") then fail "expecting 'as'"
        let n ← importBinding (← anyWord)
        pure (names, some n)
      else if ← takeMark "\x7b" then do
        let items ← looping ([] : List (Text × Text)) fun acc => do
          if ← takeMark "\x7d" then pure (.inr acc.reverse)
          else
            let (name, quoted) ← exportedName
            let loc ←
              if ← takeWord "as" then anyWord
              else if quoted then fail "expecting 'as'"
              else pure name
            let loc ← importBinding loc
            if !(← takeMark ",") && !(← isMark "\x7d") then unexpected
            pure (.inl ((name, loc) :: acc))
        pure (names ++ items, none)
      else pure (names, none)
    let spec ← fromClause
    endStatement
    pure (.importFrom spec names whole)

/-- The rest of an `export` declaration of a module. -/
def exportRest (R : Rules) : Parse Stmt := do
  let start := (← get).cur.start
  let isAsyncFunction ← if ← isWord "async" then do
      let (t, lf) ← peek
      pure (t == .ident (txt "function") false && !lf)
    else pure false
  if ← takeMark "*" then
    let name ← if ← takeWord "as" then do pure (some (← anyWord)) else pure none
    let spec ← fromClause
    endStatement
    match name with
    | some n => pure (.exportFrom spec [(txt "*", n)] false)
    | none => pure (.exportFrom spec [] true)
  else if ← takeMark "\x7b" then
    let (names, quoted) ← looping (([] : List (Text × Text)), false) fun (acc, quoted) => do
      if ← takeMark "\x7d" then pure (.inr (acc.reverse, quoted))
      else
        let (loc, q) ← exportedName
        let name ← if ← takeWord "as" then do pure (← exportedName).1 else pure loc
        if !(← takeMark ",") && !(← isMark "\x7d") then unexpected
        pure (.inl ((loc, name) :: acc, quoted || q))
    if ← isWord "from" then
      let spec ← fromClause
      endStatement
      pure (.exportFrom spec names false)
    else
      if quoted then fail "string export name only allowed with 'from' clause"
      endStatement
      pure (.exportNames names)
  else if ← takeWord "default" then
    let start := (← get).cur.start
    let isAsync ← if ← isWord "async" then do
        let (t, lf) ← peek
        pure (t == .ident (txt "function") false && !lf)
      else pure false
    if isAsync || (← isWord "function") then
      if isAsync then next
      let f ← functionExpression R false isAsync start
      pure (.exportDefault f)
    else if ← takeWord "class" then
      let c ← classRest R false start
      pure (.exportDefault c)
    else
      let e ← R.assign true
      endStatement
      pure (.exportDefault e)
  else if isAsyncFunction || (← isWord "function") then
    if isAsyncFunction then next
    let f ← functionExpression R true isAsyncFunction start
    pure (.exportDecl (.func f))
  else if ← takeWord "class" then
    let c ← classRest R true start
    pure (.exportDecl (.cls c))
  else
    let kind? : Option DeclKind ←
      if ← isWord "var" then pure (some .var)
      else if ← isWord "let" then pure (some .lexical)
      else if ← isWord "const" then pure (some .const)
      else pure none
    next
    match kind? with
    | some kind =>
      -- the semicolon after it is a statement of its own
      let items ← declarators R kind true
      pure (.exportDecl (.declare kind items))
    | none => fail "invalid export syntax"

/-- A statement that starts with an expression. -/
def expressionStatement (R : Rules) : Parse Stmt := do
  let e ← expression R true
  endStatement
  pure (.expr e)

/-- A statement. -/
def stmtRule (R : Rules) (declaration : Bool) : Parse Stmt := do
  let s ← get
  let c := s.scope
  let start := s.cur.start
  match s.cur.tok with
  | .punct "\x7b" => do next; blockRest R
  | .punct ";" => do next; pure .empty
  | .ident n false =>
    match n.toHostString with
    | "var" => do
      next
      let items ← declarators R .var true
      endStatement
      pure (.declare .var items)
    | "const" => do
      if !declaration then fail "lexical declarations can't appear in single-statement context"
      next
      let items ← declarators R .const true
      endStatement
      pure (.declare .const items)
    | "if" => do
      next
      expect "("
      let e ← expression R true
      expect ")"
      let a ← branch R
      let b ← if ← takeWord "else" then branch R else pure .empty
      pure (.ifElse e a b)
    | "for" => do next; forRest R
    | "while" => do
      next
      expect "("
      let e ← expression R true
      expect ")"
      let body ← loopBody R
      pure (.whileLoop e body)
    | "do" => do
      next
      let body ← loopBody R
      if !(← takeWord "while") then unexpected
      expect "("
      let e ← expression R true
      expect ")"
      let _ ← takeMark ";"
      pure (.doWhile body e)
    | "return" => do
      if !c.returns then
        fail (if c.staticBlock then "return in a static initializer block"
          else "return not in a function")
      next
      let s ← get
      let bare := s.cur.lf || (match s.cur.tok with
        | .punct p => p == ";" || p == "\x7d"
        | .eof => true
        | _ => false)
      let e ← if bare then pure .absent else expression R true
      endStatement
      pure (.ret e)
    | "break" => do
      next
      match ← jumpLabel with
      | some l =>
        if !(c.labels.any (·.1 == l)) then fail "break/continue label not found"
        endStatement
        pure (.brk (some l))
      | none =>
        if !c.inLoop && !c.inSwitch then fail "break must be inside loop or switch"
        endStatement
        pure (.brk none)
    | "continue" => do
      next
      match ← jumpLabel with
      | some l =>
        if !(c.labels.any fun (m, isLoop) => m == l && isLoop) then
          fail "break/continue label not found"
        endStatement
        pure (.cont (some l))
      | none =>
        if !c.inLoop then fail "continue must be inside loop"
        endStatement
        pure (.cont none)
    | "throw" => do
      next
      if (← get).cur.lf then fail "line terminator not allowed after throw"
      let e ← expression R true
      endStatement
      pure (.throw e)
    | "try" => do next; tryRest R
    | "switch" => do next; switchRest R
    | "with" => do
      if c.strict then fail "invalid keyword: with"
      next
      expect "("
      let e ← expression R true
      expect ")"
      let body ← R.stmt false
      pure (.within e body)
    | "function" => do
      if !declaration then fail "function declarations can't appear in single-statement context"
      let f ← functionExpression R true false start
      pure (.func f)
    | "class" => do
      if !declaration then fail "class declarations can't appear in single-statement context"
      next
      let e ← classRest R true start
      pure (.cls e)
    | "debugger" => do next; endStatement; pure .empty
    | "export" => fail "unsupported keyword: export"
    | "enum" => fail "unsupported keyword: enum"
    | "extends" => fail "unsupported keyword: extends"
    | "async" => do
      let (t, lf) ← peek
      if t == .ident (txt "function") false && !lf then
        if !declaration then fail "function declarations can't appear in single-statement context"
        next
        let f ← functionExpression R true true start
        pure (.func f)
      else other R c n
    | "let" => do
      if ← startsLet declaration then
        if !declaration then fail "lexical declarations can't appear in single-statement context"
        next
        let items ← declarators R .lexical true
        endStatement
        pure (.declare .lexical items)
      else other R c n
    | _ => other R c n
  | _ => expressionStatement R
where
  /-- A labelled statement or one that starts with a name. -/
  other (R : Rules) (c : Scope) (n : Text) : Parse Stmt := do
    let (t, _) ← peek
    if t == .punct ":" && (← isName n) then
      if c.labels.any (·.1 == n) then fail "duplicate label name"
      next
      next
      -- a label of a loop also stands before further labels of it
      let isLoop ← lookahead do
        looping () fun _ => do
          if (← isWord "for") || (← isWord "while") || (← isWord "do") then pure (.inr true)
          else
            match ← tok with
            | .ident _ _ =>
              next
              if ← takeMark ":" then pure (.inl ()) else pure (.inr false)
            | _ => pure (.inr false)
      let body ← within (fun c => { c with labels := (n, isLoop) :: c.labels }) do
        if (← isWord "function") && !(← get).scope.strict then R.stmt true else R.stmt false
      pure (.labelled n body)
    else expressionStatement R

/-! ## The whole grammar -/

/-- The rules, for texts nested at most `depth` deep. -/
def rules : Nat → Rules
  | 0 =>
    { assign := fun _ => throw .tooDeep, unary := fun _ => throw .tooDeep
      callee := fun _ => throw .tooDeep, stmt := fun _ => throw .tooDeep
      pattern := fun _ => throw .tooDeep }
  | depth + 1 =>
    { assign := fun allowIn t s => assignRule (rules depth) allowIn t s
      unary := fun power t s => unaryRule (rules depth) power t s
      callee := fun calls t s => calleeRule (rules depth) calls t s
      stmt := fun declaration t s => stmtRule (rules depth) declaration t s
      pattern := fun declared t s => patternRule (rules depth) declared t s }

/-- How deep a text may be nested. -/
def depthLimit : Nat := 400

/-- A statement of a script, or of a module, which may also import and export names. -/
def outerStatement (R : Rules) (isModule : Bool) : Parse Stmt := do
  if !isModule then R.stmt true
  else if ← takeWord "export" then exportRest R
  else if ← isWord "import" then
    let (t, _) ← peek
    if t == .punct "(" || t == .punct "." then R.stmt true
    else do next; importRest
  else R.stmt true

/-- A whole script or module. -/
def program (scope : Scope) : Parse Program := do
  modify fun s => { s with scope := scope }
  let t ← read
  if t.at' 0 == 35 && t.at' 1 == 33 then
    lexing (Lex.skipLine (t.size + 1))
  next
  let R := rules depthLimit
  let declares ← strictDirective
  if declares then modify fun s => { s with scope := { s.scope with strict := true } }
  let body ← looping ([] : List Stmt) fun acc => do
    match ← tok with
    | .eof => pure (.inr acc.reverse)
    | _ => do
      let s ← outerStatement R scope.isModule
      pure (.inl (s :: acc))
  let s ← get
  pure { body := body, strict := s.scope.strict, isModule := scope.isModule,
         hasAwait := s.topAwait }

/-- Reads a script. -/
def parseProgram (scope : Scope) (text : Text) : Except ParseFault Program :=
  match program scope text {} with
  | .ok (p, _) => .ok p
  | .error e => .error e

/-- Reads the parameters and body of a function that is given as one function expression. -/
def parseFunction (scope : Scope) (text : Text) : Except ParseFault Expr :=
  let whole : Parse Expr := do
    modify fun s => { s with scope := scope }
    next
    let R := rules depthLimit
    let e ← R.assign true
    match ← tok with
    | .eof => pure e
    | _ => unexpected
  match whole text {} with
  | .ok (e, _) => .ok e
  | .error e => .error e

end Grammar

end Script

end ScriptHost
