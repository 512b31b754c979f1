import ScriptHost.Script.Parser
/-!
# Expressions of the grammar

Every rule takes the rules one level further in as an argument, so that no rule refers to itself;
the levels are tied together where the whole grammar is put together.
-/

namespace ScriptHost

namespace Script

/-- How `**` may follow an operand. -/
inductive PowerRule where
  /-- It may. -/
  | allowed
  /-- It may not, because of an operator in front of the operand. -/
  | forbidden
  /-- It is left for what stands around. -/
  | ignored
deriving DecidableEq

/-- The rules of the grammar one level further in. -/
structure Rules where
  /-- An assignment expression; the argument tells whether `in` is an operator there. -/
  assign : Bool → Parse Expr
  /-- An operand; the argument tells what holds for an exponent after it. -/
  unary : PowerRule → Parse Expr
  /-- An expression with its members, which may be called or, after `new`, not. -/
  callee : Bool → Parse Expr
  /-- A statement; the argument tells whether it may be a declaration. -/
  stmt : Bool → Parse Stmt
  /-- A pattern, whose names are declared or else assigned to. -/
  pattern : Bool → Parse Target

namespace Grammar

open Parse

/-- Repeats a step until it gives a result. -/
def repeatUntil {σ ρ : Type} (step : σ → Parse (σ ⊕ ρ)) : Nat → σ → Parse ρ
  | 0, _ => throw .tooDeep
  | fuel + 1, s => do
    match ← step s with
    | .inl s' => repeatUntil step fuel s'
    | .inr r => pure r

/-- How often a step can repeat in the text at hand. -/
def bound : Parse Nat := do pure ((← read).size + 2)

/-- Repeats a step as often as the text allows. -/
def looping {σ ρ : Type} (start : σ) (step : σ → Parse (σ ⊕ ρ)) : Parse ρ := do
  repeatUntil step (← bound) start

/-- Expressions with commas between them. -/
def expression (R : Rules) (allowIn : Bool) : Parse Expr := do
  let first ← R.assign allowIn
  looping first fun e => do
    if ← takeMark "," then
      let e' ← R.assign allowIn
      pure (.inl (.sequence e e'))
    else pure (.inr e)

/-! ## Patterns -/

/-- Names that strict rules do not let be assigned. -/
def isGuardedName (n : Text) : Bool := n == evalWord || n == argumentsWord

/-- Checks the operand of an operator that reads and writes it. -/
def simpleTarget (e : Expr) (message : String) : Parse Expr := do
  match e with
  | .ident n =>
    if (← get).scope.strict && isGuardedName n then fail "invalid lvalue in strict mode" else pure e
  | .paren inner =>
    match inner with
    | .ident _ | .member _ _ | .element _ _ | .privateMember _ _
    | .superMember _ | .superElement _ => pure inner
    | _ => fail message
  | .member _ _ | .element _ _ | .privateMember _ _ | .superMember _ | .superElement _ => pure e
  | _ => fail message

/-- What the left side of `=` assigns to. -/
def assignTarget (e : Expr) (message : String) : Parse Target := do
  match e, ← simpleTarget e message with
  | .ident n, _ => pure (.name n)
  | _, e => pure (.expr e)

/-- The names that a pattern binds. -/
def boundNames : Nat → Target → List Text
  | 0, _ => []
  | fuel + 1, p =>
    match p with
    | .name n => [n]
    | .expr _ => []
    | .array items => items.flatMap (boundNames fuel)
    | .object members => members.flatMap (boundNames fuel)
    | .hole => []
    | .withDefault p _ => boundNames fuel p
    | .rest p => boundNames fuel p
    | .keyed _ p => boundNames fuel p

/-! ## Names of members -/

/-- The name of a member, as the key of an expression: a literal, a private name, or an expression
in parentheses. -/
def memberName (R : Rules) (allowPrivate : Bool) : Parse Expr := do
  match ← tok with
  | .ident n _ => do next; pure (.value (.string n))
  | .string t _ => do next; pure (.value (.string t))
  | .number v => do next; pure (.value v)
  | .privateName n =>
    if allowPrivate then do
      next
      pure (.privateName n)
    else fail "invalid property name"
  | .punct "[" => do
    next
    let e ← expression R true
    expect "]"
    pure (.paren e)
  | _ => fail "invalid property name"

/-! ## Functions -/

/-- The text from a position to the end of the token before the current one. -/
def sourceFrom (start : Nat) : Parse Text := do
  pure ((← read).slice start (← get).prevStop)

/-- Whether a "use strict" stands among the strings at the front of a body. -/
def strictDirective : Parse Bool := lookahead do
  let t ← read
  looping () fun _ => do
    let s ← get
    match s.cur.tok with
    | .string _ _ =>
      -- It counts as it is written: a string that means the same by escapes is no directive.
      let written := t.slice (s.cur.start + 1) (s.lex.pos - 1)
      next
      let s ← get
      let ended := match s.cur.tok with
        | .punct ";" => true
        | .punct "\x7d" | .eof => true
        | .number _ | .string _ _ | .template _ _ _ | .ident _ _ | .regexp _ _ | .privateName _ =>
          s.cur.lf
        | .punct p => (p == "++" || p == "--") && s.cur.lf
      if !ended then pure (.inr false)
      else if written == txt "use strict" then pure (.inr true)
      else do
        let _ ← takeMark ";"
        pure (.inl ())
    | _ => pure (.inr false)

/-- Statements up to a closing brace, which is taken. -/
def statementsUntilBrace (R : Rules) : Parse (List Stmt) := do
  looping [] fun acc => do
    if ← takeMark "\x7d" then pure (.inr acc.reverse)
    else do
      let s ← R.stmt true
      pure (.inl (s :: acc))

/-- A default value, if one stands here. -/
def withDefault (R : Rules) (p : Target) : Parse Target := do
  if ← takeMark "=" then
    let e ← R.assign true
    pure (.withDefault p e)
  else pure p

/-- A parameter without its default value. -/
def parameter (R : Rules) : Parse Target := do
  if ← opensBracket then R.pattern true
  else
    match ← nameHere with
    | some n => do
      next
      pure (.name n)
    | none => fail "missing formal parameter"

/-- The parameters of a function, after the opening parenthesis and through the closing one. -/
def parameters (R : Rules) : Parse (List Target) :=
  within (fun c => { c with inParameters := true }) do
    looping ([] : List Target) fun acc => do
      if ← takeMark ")" then pure (.inr acc.reverse)
      else if ← takeMark "..." then
        let p ← parameter R
        expect ")"
        pure (.inr (.rest p :: acc).reverse)
      else do
        let p ← withDefault R (← parameter R)
        if !(← isMark ")") then expect ","
        pure (.inl (p :: acc))

/-- Whether every parameter is a plain name. -/
def areSimple (ps : List Target) : Bool :=
  ps.all Target.isName

/-- Whether a name occurs twice. -/
def hasDuplicate : List Text → Bool
  | [] => false
  | n :: ns => ns.contains n || hasDuplicate ns

/-- Whether a value of some default is computed in a target. -/
def hasDefault : Nat → Target → Bool
  | 0, _ => false
  | fuel + 1, p =>
    match p with
    | .name _ | .expr _ | .hole => false
    | .array items | .object items => items.any (hasDefault fuel)
    | .withDefault _ _ => true
    | .rest p | .keyed _ p => hasDefault fuel p

/-- Whether a name of a parameter stands before it already, where that is never allowed: in a
pattern, or when some parameter has a default. -/
def repeatsName (computed : Bool) : List Text → List Target → Bool
  | _, [] => false
  | seen, p :: ps =>
    let names := boundNames 1000 p
    let plain := match p with
      | .name _ | .rest (.name _) | .withDefault (.name _) _ => true
      | _ => false
    let again := hasDuplicate names || names.any seen.contains
    ((computed || !plain) && again) || repeatsName computed (names ++ seen) ps

/-- Checks the parameters against the rules that hold in the body. -/
def checkParameters (info : FuncInfo) (ps : List Target) : Parse Unit := do
  let names := ps.flatMap (boundNames 1000)
  let reserved := fun n => isGuardedName n || strictReserved.contains n
  if info.strict && reserved info.name then fail "invalid function name in strict code"
  if info.strict && names.any reserved then fail "invalid argument name in strict code"
  let distinct := info.strict || !info.simpleParams || info.role == .arrow || info.role == .method
  if distinct && hasDuplicate names then
    fail "duplicate argument names not allowed in this context"

/-- Checks that no parameter repeats a name where that is never allowed. -/
def checkRepeats (ps : List Target) : Parse Unit := do
  if repeatsName (ps.any (hasDefault 1000)) [] ps then
    fail "duplicate parameter names not allowed in this context"

/-- The scope inside a function. -/
def innerScope (info : FuncInfo) (c : Scope) : Scope :=
  let async := info.body == .async || info.body == .asyncGenerator
  let generator := info.body == .generator || info.body == .asyncGenerator
  if info.role == .arrow then
    { c with
      async := async, generator := false, returns := true, inLoop := false
      inSwitch := false, labels := [], inParameters := false }
  else
    { strict := c.strict, async, generator, isModule := c.isModule, regexps := c.regexps
      returns := true, newTarget := true
      superCall := info.role == .derivedConstructor
      superMember := info.role != .ordinary }

/-- The body of a function after its opening brace, with the strictness it declares. -/
def functionBody (R : Rules) (info : FuncInfo) (ps : List Target) :
    Parse (FuncInfo × List Stmt) := do
  let declares ← strictDirective
  if declares && !areSimple ps then
    fail "\"use strict\" not allowed in function with default or destructuring parameter"
  if declares then
    modify fun s => { s with scope := { s.scope with strict := true } }
  let strict := (← get).scope.strict
  let info := { info with strict := strict, simpleParams := areSimple ps }
  checkParameters info ps
  let body ← statementsUntilBrace R
  pure (info, body)

/-- The parameters and body of a function, from its opening parenthesis on. -/
def functionRest (R : Rules) (info : FuncInfo) (start : Nat) : Parse Expr := do
  let pl ← place
  let ((info, ps, body), callsEval) ← notingEval <| within (innerScope info) do
    expect "("
    let ps ← parameters R
    checkRepeats ps
    if info.role == .getter && !ps.isEmpty then
      fail "invalid number of arguments for getter or setter"
    if info.role == .setter && ps.length != 1 then
      fail "invalid number of arguments for getter or setter"
    if !(← isMark "\x7b") then unexpected
    -- the directive is read under the rules of the body, so the brace is taken here
    next
    let (info, body) ← functionBody R info ps
    pure (info, ps, body)
  let source ← sourceFrom start
  pure (.func { info with source := source, place := pl, callsEval := callsEval } ps body)

/-- The parameters and body of an arrow function, from its parameters on. -/
def arrowFunction (R : Rules) (allowIn async : Bool) (start : Nat) : Parse Expr := do
  let info : FuncInfo := { role := .arrow, body := if async then .async else .plain }
  let pl ← place
  let ((info, ps, body), callsEval) ← notingEval <| within (innerScope info) do
    let ps ← match ← tok with
      | .ident _ _ => do
        let p ← parameter R
        pure [p]
      | _ => do
        expect "("
        let ps ← parameters R
        checkRepeats ps
        pure ps
    -- No line may end before the arrow.
    if (← get).cur.lf then fail "Unexpected token '=>'"
    expect "=>"
    if ← isMark "\x7b" then
      next
      let (info, body) ← functionBody R info ps
      pure (info, ps, body)
    else
      let info := { info with strict := (← get).scope.strict, simpleParams := areSimple ps }
      checkParameters info ps
      let e ← R.assign allowIn
      pure (info, ps, [Stmt.ret e])
  let source ← sourceFrom start
  pure (.func { info with source := source, place := pl, callsEval := callsEval } ps body)

/-- The name after the word `function`; a declared function has to have one. -/
def functionName (declared async generator : Bool) : Parse Text := do
  let c := (← get).scope
  let special := fun n => (n == yieldWord && !c.strict) || (n == awaitWord && !c.isModule)
  match ← nameHere, ← tok with
  | some n, _ =>
    if !declared && ((n == yieldWord && generator) || (n == awaitWord && async)) then reservedWord n
    next
    pure n
  | none, .ident n _ =>
    if !declared && special n then
      next
      pure n
    else if declared then fail "function name expected"
    else pure Text.empty
  | none, _ => if declared then fail "function name expected" else pure Text.empty

/-- A function from the word `function` on. -/
def functionExpression (R : Rules) (declared async : Bool) (start : Nat) : Parse Expr := do
  next
  let generator ← takeMark "*"
  let body : BodyKind :=
    if async then (if generator then .asyncGenerator else .async)
    else if generator then .generator else .plain
  let name ← functionName declared async generator
  functionRest R { body := body, name := name } start

/-- A method from its parameters on. -/
def method (R : Rules) (body : BodyKind) (role : FuncRole) (start : Nat) : Parse Expr :=
  functionRest R { body := body, role := role } start

/-! ## Objects and classes -/

/-- Whether the current token ends the name of a member, so that a word such as `get` before it is
the name itself. -/
def endsName : Parse Bool := do
  match ← tok with
  | .punct p =>
    pure (p == "(" || p == ":" || p == "," || p == "\x7d" || p == "=" || p == ";" )
  | .eof => pure true
  | _ => pure false

/-- The start of a member: words such as `get` or `async`, a star, and its name. -/
structure MemberHead where
  kind : MemberKind := .property
  body : BodyKind := .plain
  key : Expr := .absent
  /-- The name, if it is a word that may stand for itself. -/
  word : Option Text := none
deriving Inhabited

/-- Reads the start of a member. -/
def memberHead (R : Rules) (allowPrivate : Bool) : Parse MemberHead := do
  let method := fun (kind : MemberKind) (body : BodyKind) => do
    let key ← memberName R allowPrivate
    if !(← isMark "(") then fail "invalid property name"
    pure { kind := kind, body := body, key := key : MemberHead }
  if ← takeMark "*" then return (← method .method .generator)
  match ← tok with
  | .ident n esc =>
    let named ← isName n
    let word := if named then some n else none
    let isAccessor := !esc && (n == txt "get" || n == txt "set")
    let isAsync := !esc && n == txt "async"
    next
    -- The words mark a kind of method only if a name follows; else they are the name.
    if isAsync && !(← get).cur.lf && !(← endsName) then
      let star ← takeMark "*"
      method .method (if star then .asyncGenerator else .async)
    else if isAccessor && !(← endsName) then
      method (if n == txt "get" then .getter else .setter) .plain
    else pure { key := .value (.string n), word := word }
  | _ =>
    let key ← memberName R allowPrivate
    pure { key := key }

/-- The function role of a member kind. -/
def roleOf : MemberKind → FuncRole
  | .getter => .getter
  | .setter => .setter
  | _ => .method

/-- The member that names the prototype of an object. -/
def protoWord : Text := txt "__proto__"

/-- An object expression after its opening brace. -/
def objectRest (R : Rules) : Parse Expr := do
  let members ← looping (([] : List Member), false) fun (acc, hasProto) => do
    if ← takeMark "\x7d" then pure (.inr acc.reverse)
    else
      let start := (← get).cur.start
      let (m, hasProto) ←
        if ← takeMark "..." then do
          let e ← R.assign true
          pure (Member.mk .spread false .absent e, hasProto)
        else do
          let h ← memberHead R false
          if h.kind != .property then
            let f ← method R h.body (roleOf h.kind) start
            pure (Member.mk h.kind false h.key f, hasProto)
          else if ← isMark "(" then do
            let f ← method R .plain .method start
            pure (Member.mk .method false h.key f, hasProto)
          else if ← takeMark ":" then do
            let e ← R.assign true
            match h.key with
            | .value (.string n) =>
              -- Written with a colon, this name gives the prototype; by any other form it is a
              -- member like others.
              if n == protoWord then do
                if hasProto then fail "duplicate __proto__ property name"
                pure (Member.mk .proto false .absent e, true)
              else pure (Member.mk .property false h.key e, hasProto)
            | _ => pure (Member.mk .property false h.key e, hasProto)
          else
            match h.word with
            | some n => pure (Member.mk .shorthand false h.key (.ident n), hasProto)
            | none => unexpected
      if !(← isMark "\x7d") then expect ","
      pure (.inl (m :: acc, hasProto))
  pure (.object members)

/-- A class after the word `class`; `start` is where that word stands.  A declared class has to
have a name. -/
def classRest (R : Rules) (declared : Bool) (start : Nat) : Parse Expr := do
  within (fun c => { c with strict := true }) do
    let name ← match ← nameHere with
      | some n => do next; pure n
      | none => if declared then fail "class statement requires a name" else pure Text.empty
    let heritage ← if ← takeWord "extends" then R.callee true else pure .absent
    let derived := !heritage.isAbsent
    if !(← isMark "\x7b") then unexpected
    next
    let (ctor, members) ← looping (Expr.absent, ([] : List Member)) fun (ctor, acc) => do
      if ← takeMark "\x7d" then pure (.inr (ctor, acc.reverse))
      else if ← takeMark ";" then pure (.inl (ctor, acc))
      else
        -- What follows tells whether the word is itself the name of a member.
        let isStatic ← if ← isWord "static" then do
            let (t, _) ← peek
            match t with
            | .punct p =>
              if p == "(" || p == "=" || p == ";" || p == "\x7d" then pure false
              else do next; pure true
            | .eof => pure false
            | _ => do next; pure true
          else pure false
        let start := (← get).cur.start
        if isStatic && (← isMark "\x7b") then
          next
          let info : FuncInfo := { role := .initializer }
          let body ← within (fun c =>
            { innerScope info c with returns := false, initializer := true, staticBlock := true })
            (statementsUntilBrace R)
          let f := Expr.func { info with strict := true } [] body
          pure (.inl (ctor, .mk .staticBlock true .absent f :: acc))
        else
          let h ← memberHead R true
          let isCtorName := match h.key with
            | .value (.string n) => n == txt "constructor"
            | _ => false
          let isPrototypeName := match h.key with
            | .value (.string n) => n == txt "prototype"
            | .privateName n => n == txt "#constructor"
            | _ => false
          match h.key with
          | .privateName n => if n == txt "#constructor" then fail "invalid method name"
          | _ => if isStatic && isPrototypeName then fail "invalid method name"
          if h.kind != .property || (← isMark "(") then
            if isCtorName && !isStatic then
              if h.kind != .property then fail "invalid method name"
              if !ctor.isAbsent then fail "property constructor appears more than once"
              let role : FuncRole := if derived then .derivedConstructor else .baseConstructor
              let f ← method R .plain role start
              pure (.inl (f, acc))
            else
              let kind := if h.kind == .property then .method else h.kind
              let f ← method R h.body (roleOf kind) start
              pure (.inl (ctor, .mk kind isStatic h.key f :: acc))
          else
            if isCtorName || isPrototypeName then fail "invalid field name"
            let init ← if ← takeMark "=" then
                within (fun c =>
                  { innerScope { role := .initializer } c with
                    returns := false, initializer := true })
                  (R.assign true)
              else pure .absent
            endStatement
            pure (.inl (ctor, .mk .property isStatic h.key init :: acc))
    let source ← sourceFrom start
    pure (.cls name heritage ctor members source)

/-! ## Primary expressions -/

/-- The items of an array expression after its opening bracket. -/
def arrayRest (R : Rules) : Parse Expr := do
  let items ← looping ([] : List Expr) fun acc => do
    if ← takeMark "]" then pure (.inr acc.reverse)
    else if ← takeMark "," then pure (.inl (.absent :: acc))
    else
      let e ← if ← takeMark "..." then do
          let e ← R.assign true
          pure (.spread e)
        else R.assign true
      if !(← isMark "]") then expect ","
      pure (.inl (e :: acc))
  pure (.array items)

/-- The arguments of a call after the opening parenthesis. -/
def arguments (R : Rules) : Parse (List Expr) := do
  looping ([] : List Expr) fun acc => do
    if ← takeMark ")" then pure (.inr acc.reverse)
    else
      let e ← if ← takeMark "..." then do
          let e ← R.assign true
          pure (.spread e)
        else R.assign true
      if !(← isMark ")") then expect ","
      pure (.inl (e :: acc))

/-- The pieces of a template, from its first on. -/
def templatePieces (R : Rules) : Parse (List (Option Text) × List Text × List Expr) := do
  let (cs, rs, es) ← looping (([] : List (Option Text)), ([] : List Text), ([] : List Expr))
    fun (cs, rs, es) => do
      match ← tok with
      | .template c r last =>
        if last then do
          next
          pure (.inr (c :: cs, r :: rs, es))
        else
          next
          let e ← expression R true
          if !(← isMark "\x7d") then fail "expected '\x7d' after template expression"
          -- the closing brace was read as a token of its own: go on right after it
          modify fun s => { s with lex := { s.lex with pos := s.cur.start + 1 } }
          let piece ← lexing Lex.templatePart
          modify fun s => { s with cur := { s.cur with tok := piece } }
          pure (.inl (c :: cs, r :: rs, e :: es))
      | _ => unexpected
  pure (cs.reverse, rs.reverse, es.reverse)

/-- A regular expression whose opening slash is the current token. -/
def regexpLiteral : Parse Expr := do
  if !(← get).scope.regexps then fail "RegExp are not supported"
  modify fun s => { s with lex := { s.lex with pos := s.cur.start + 1 } }
  let r ← lexing Lex.regexp
  modify fun s => { s with cur := { s.cur with tok := r } }
  match r with
  | .regexp body flags => do
    match Pattern.parse body flags with
    | .error m => fail m
    | .ok p => do
      next
      pure (.regexp body p)
  | _ => unexpected

/-- Fails at a token that starts no expression. -/
def badExpression {α : Type} : Parse α := do
  fail ("unexpected token in expression: '" ++ (← tokenText) ++ "'")

/-- What follows the word `super`. -/
def superRest (R : Rules) : Parse Expr := do
  let c := (← get).scope
  if ← isMark "(" then
    if !c.superCall then fail "super() is only valid in a derived class constructor"
    next
    let args ← arguments R
    pure (.superCall args (← place))
  else if ← takeMark "." then
    if !c.superMember then fail "'super' is only valid in a method"
    match ← tok with
    | .ident n _ => do next; pure (.superMember n)
    | .privateName _ => fail "private class field forbidden after super"
    | _ => fail "expecting field name"
  else if ← takeMark "[" then
    if !c.superMember then fail "'super' is only valid in a method"
    let e ← expression R true
    expect "]"
    pure (.superElement e)
  else fail "invalid use of 'super'"

/-- What follows the word `new`. -/
def newRest (R : Rules) : Parse Expr := do
  if ← takeMark "." then
    if ← isWord "target" then
      if !(← get).scope.newTarget then fail "new.target only allowed within functions"
      next
      pure .newTarget
    else fail "expecting target"
  else
    let f ← R.callee false
    if ← isMark "?." then fail "new keyword cannot be used with an optional chain"
    if ← takeMark "(" then
      let args ← arguments R
      pure (.construct f args (← place))
    else pure (.construct f [] (← place))

/-- A primary expression. -/
def primary (R : Rules) : Parse Expr := do
  let s ← get
  let start := s.cur.start
  match s.cur.tok with
  | .number v => do next; pure (.value v)
  | .string t _ => do next; pure (.value (.string t))
  | .template _ _ _ => do
    let (cs, _, es) ← templatePieces R
    if cs.any Option.isNone then fail "malformed escape sequence in string literal"
    pure (.template (cs.map (·.getD Text.empty)) es)
  | .regexp _ _ => badExpression
  | .privateName n => do
    let (t, _) ← peek
    if t == .ident (txt "in") false then do next; pure (.privateName n) else badExpression
  | .punct p =>
    if p == "(" then do
      next
      let e ← expression R true
      expect ")"
      pure (.paren e)
    else if ← opensBracket then
      -- Only behind the closing bracket can be seen whether this is a pattern.
      if ← bracketsBefore ["="] then
        let target ← R.pattern false
        expect "="
        let e ← R.assign true
        pure (.assign target e)
      else if p == "[" then do next; arrayRest R
      else do next; objectRest R
    else if p == "/" || p == "/=" then regexpLiteral
    else badExpression
  | .eof => badExpression
  | .ident n esc =>
    let w := n.toHostString
    if esc then
      if ← isName n then do next; pure (.ident n) else reservedWord n
    else match w with
      | "this" => do next; pure .this
      | "null" => do next; pure (.value .null)
      | "true" => do next; pure (.value (.bool true))
      | "false" => do next; pure (.value (.bool false))
      | "function" => functionExpression R false false start
      | "class" => do next; classRest R false start
      | "new" => do next; newRest R
      | "super" => do next; superRest R
      | "import" => do
        next
        if ← takeMark "." then
          if ← isWord "meta" then
            if !(← get).scope.isModule then fail "import.meta only valid in module code"
            next
            pure .importMeta
          else fail "meta expected"
        else
          expect "("
          let e ← R.assign true
          let _ ← takeMark ","
          expect ")"
          pure (.importCall e)
      | "async" =>
        let (t, lf) ← peek
        if t == .ident (txt "function") false && !lf then do
          next
          functionExpression R false true start
        else do next; pure (.ident n)
      | _ =>
        if n == argumentsWord && s.scope.initializer then
          fail "'arguments' identifier is not allowed in class field initializer"
        if ← isName n then do next; pure (.ident n)
        else badExpression

/-- The members, calls and templates that follow an expression. -/
def postfixRest (R : Rules) (calls : Bool) (e : Expr) : Parse Expr := do
  let (e, chained) ← looping (e, false) fun (e, chained) => do
    match ← tok with
    | .template _ _ _ =>
      if chained then fail "template literal cannot appear in an optional chain"
      let (cs, rs, es) ← templatePieces R
      pure (.inl (.tagged e cs rs es (← place), chained))
    | .punct p =>
      if p == "(" && calls then do
        match e with
        -- A call by this name may be a direct one, which sees the variables around it.
        | .ident n => if n == evalWord then modify fun s => { s with callsEval := true }
        | _ => pure ()
        next
        let args ← arguments R
        pure (.inl (.call e args (← place), chained))
      else if p == "." then do
        next
        match ← tok with
        | .ident n _ => do next; pure (.inl (.member e n, chained))
        | .privateName n => do next; pure (.inl (.privateMember e n, chained))
        | _ => fail "expecting field name"
      else if p == "[" then do
        next
        let k ← expression R true
        expect "]"
        pure (.inl (.element e k, chained))
      else if p == "?." && calls then do
        next
        match ← tok with
        | .punct "(" => do
          next
          let args ← arguments R
          pure (.inl (.call (.maybe e) args (← place), true))
        | .punct "[" => do
          next
          let k ← expression R true
          expect "]"
          pure (.inl (.element (.maybe e) k, true))
        | .ident n _ => do next; pure (.inl (.member (.maybe e) n, true))
        | .privateName n => do next; pure (.inl (.privateMember (.maybe e) n, true))
        | .template _ _ _ => fail "template literal cannot appear in an optional chain"
        | _ => fail "expecting field name"
      else pure (.inr (e, chained))
    | _ => pure (.inr (e, chained))
  pure (if chained then .chain e else e)

/-- An expression with what follows it, and `++` or `--` after that. -/
def postfixed (R : Rules) : Parse Expr := do
  let e ← primary R
  let e ← postfixRest R true e
  let s ← get
  match s.cur.tok with
  | .punct p =>
    if (p == "++" || p == "--") && !s.cur.lf then
      let t ← simpleTarget e "invalid increment/decrement operand"
      next
      pure (.update (p == "++") false t)
    else pure e
  | _ => pure e

/-- An expression with its members, and with calls of it if they are allowed. -/
def calleeRule (R : Rules) (calls : Bool) : Parse Expr := do
  let e ← primary R
  postfixRest R calls e

/-! ## Patterns -/

/-- What stands inside a pattern where a name may: a name that is declared, or any place that can be
assigned to. -/
def patternTarget (R : Rules) (declared : Bool) : Parse Target := do
  if declared then
    match ← tok with
    | .ident n _ =>
      if !(← isName n) || ((← get).scope.strict && isGuardedName n) then
        fail "invalid destructuring target"
      next
      pure (.name n)
    | _ => fail "invalid destructuring target"
  else
    let e ← R.callee true
    assignTarget e "invalid destructuring target"

/-- A pattern inside another one, if the token after its brackets is among some marks, or else a
place; with its default value. -/
def patternItem (R : Rules) (declared : Bool) (marks : List String) : Parse Target := do
  let p ←
    if ← bracketsBefore marks then R.pattern declared
    else patternTarget R declared
  withDefault R p

/-- The items of an array pattern after its opening bracket. -/
def arrayPattern (R : Rules) (declared : Bool) : Parse Target := do
  let items ← looping ([] : List Target) fun acc => do
    if ← takeMark "]" then pure (.inr acc.reverse)
    else if ← takeMark "," then pure (.inl (.hole :: acc))
    else if ← takeMark "..." then
      if (← isMark ",") || (← isMark "]") then fail "missing binding pattern"
      let p ←
        if !(← opensBracket) then patternTarget R declared
        else if ← bracketsBefore ["="] then fail "rest element cannot have a default value"
        else if ← bracketsBefore [",", "]"] then R.pattern declared
        else patternTarget R declared
      if !(← takeMark "]") then fail "rest element must be the last one"
      pure (.inr (.rest p :: acc).reverse)
    else
      let p ← patternItem R declared [",", "=", "]"]
      if !(← isMark "]") then expect ","
      pure (.inl (p :: acc))
  pure (.array items)

/-- The members of an object pattern after its opening brace. -/
def objectPattern (R : Rules) (declared : Bool) : Parse Target := do
  let members ← looping ([] : List Target) fun acc => do
    if ← takeMark "\x7d" then pure (.inr acc.reverse)
    else if ← takeMark "..." then
      let p ← patternTarget R declared
      if !(← takeMark "\x7d") then fail "assignment rest property must be last"
      pure (.inr (.rest p :: acc).reverse)
    else
      let word ← match ← tok with
        | .ident n _ => do
          let named ← isName n
          pure (if named then some n else none)
        | _ => pure none
      let key ← memberName R false
      let m ←
        match word, ← isMark ":" with
        | some n, false => do
          if (← get).scope.strict && isGuardedName n then fail "invalid destructuring target"
          let p ← withDefault R (.name n)
          pure (Target.keyed key p)
        | _, _ => do
          next
          let p ← patternItem R declared [",", "=", "\x7d"]
          pure (.keyed key p)
      if !(← isMark "\x7d") then expect ","
      pure (.inl (m :: acc))
  pure (.object members)

/-- A pattern from its opening bracket on. -/
def patternRule (R : Rules) (declared : Bool) : Parse Target := do
  if ← takeMark "[" then arrayPattern R declared
  else if ← takeMark "\x7b" then objectPattern R declared
  else fail "invalid assignment syntax"

/-! ## Operators -/

/-- The operator that a mark or word before an operand means. -/
def unaryOp? : Token → Option UnaryOp
  | .punct "+" => some .plus
  | .punct "-" => some .minus
  | .punct "!" => some .not
  | .punct "~" => some .bitNot
  | .ident n false =>
    if n == txt "void" then some .void
    else if n == txt "typeof" then some .typeOf
    else none
  | _ => none

/-- Whether `await` waits here. -/
def mayWait (c : Scope) : Bool :=
  c.async || (c.isModule && !c.returns && !c.initializer)

/-- An operand with the operators before it, and with an exponent after it. -/
def unaryRule (R : Rules) (power : PowerRule) : Parse Expr := do
  let t ← tok
  match unaryOp? t with
  | some op => do
    next
    let e ← R.unary .forbidden
    pure (.unary op e)
  | none =>
    match t with
    | .punct "++" => do next; exponent (← updated true)
    | .punct "--" => do next; exponent (← updated false)
    | .ident n false =>
      if n == txt "delete" then do
        next
        let e ← R.unary .forbidden
        match e with
        | .ident _ =>
          if (← get).scope.strict then fail "cannot delete a direct reference in strict mode"
        | .privateMember _ _ => fail "cannot delete a private class field"
        | _ => pure ()
        pure (.delete e)
      else if n == awaitWord && ((← get).scope.async || !(← isName n)) then do
        let c := (← get).scope
        if !mayWait c then fail "unexpected 'await' keyword"
        if c.inParameters then fail "await in default expression"
        next
        let e ← R.unary .forbidden
        -- A script with this outside of functions has to be run as one that may wait.
        if !c.returns then modify fun s => { s with topAwait := true }
        pure (.await e)
      else exponent (← postfixed R)
    | _ => exponent (← postfixed R)
where
  /-- An operand after `++` or `--`. -/
  updated (increment : Bool) : Parse Expr := do
    let e ← R.unary .ignored
    let t ← simpleTarget e "invalid increment/decrement operand"
    pure (.update increment true t)
  /-- An operand with its exponent. -/
  exponent (e : Expr) : Parse Expr := do
    if power == .ignored then pure e
    else if ← isMark "**" then
      if power == .forbidden then
        fail "unparenthesized unary expression can't appear on the left-hand side of '**'"
      next
      let x ← R.unary .allowed
      pure (.binary .pow e x)
    else pure e

/-- Operators with two operands, from the loosest to the tightest level. -/
def levels : List (List (String × BinaryOp)) :=
  [[("|", .bitOr)], [("^", .bitXor)], [("&", .bitAnd)],
    [("==", .eq), ("!=", .ne), ("===", .strictEq), ("!==", .strictNe)],
    [("<", .lt), (">", .gt), ("<=", .le), (">=", .ge), ("instanceof", .instanceOf), ("in", .isIn)],
    [("<<", .shl), (">>", .sar), (">>>", .shr)],
    [("+", .add), ("-", .sub)],
    [("*", .mul), ("/", .div), ("%", .mod)]]

/-- The operator of a level that the current token means. -/
def binaryOp? (level : List (String × BinaryOp)) (allowIn : Bool) (t : Token) : Option BinaryOp :=
  let named := match t with
    | .punct p => some p
    | .ident n false =>
      if n == txt "instanceof" then some "instanceof"
      else if n == txt "in" && allowIn then some "in"
      else none
    | _ => none
  match named with
  | some p => (level.find? (·.1 == p)).map (·.2)
  | none => none

/-- Operands of one level and all tighter ones. -/
def binaryLevel (R : Rules) (allowIn : Bool) : List (List (String × BinaryOp)) → Parse Expr
  | [] => unaryRule R .allowed
  | level :: tighter => do
    let first ← binaryLevel R allowIn tighter
    looping first fun e => do
      match binaryOp? level allowIn (← tok) with
      | some op => do
        next
        let e' ← binaryLevel R allowIn tighter
        match op, e with
        | .isIn, .privateName n => pure (.inl (.privateIn n e'))
        | _, _ => pure (.inl (.binary op e e'))
      | none => pure (.inr e)

/-- `&&`. -/
def andLevel (R : Rules) (allowIn : Bool) : Parse Expr := do
  let first ← binaryLevel R allowIn levels
  looping first fun e => do
    if ← takeMark "&&" then
      let e' ← binaryLevel R allowIn levels
      pure (.inl (.logical .and e e'))
    else pure (.inr e)

/-- `||`. -/
def orLevel (R : Rules) (allowIn : Bool) : Parse Expr := do
  let first ← andLevel R allowIn
  looping first fun e => do
    if ← takeMark "||" then
      let e' ← andLevel R allowIn
      pure (.inl (.logical .or e e'))
    else pure (.inr e)

/-- `??`, which does not mix with the other two. -/
def coalesceLevel (R : Rules) (allowIn : Bool) : Parse Expr := do
  let first ← orLevel R allowIn
  if ← isMark "??" then
    match first with
    | .logical _ _ _ => fail "cannot mix ?? with && or ||"
    | _ => pure ()
  looping first fun e => do
    if ← takeMark "??" then
      let e' ← binaryLevel R allowIn levels
      pure (.inl (.logical .coalesce e e'))
    else pure (.inr e)

/-- `c ? a : b`. -/
def condLevel (R : Rules) (allowIn : Bool) : Parse Expr := do
  let c ← coalesceLevel R allowIn
  if ← takeMark "?" then
    let a ← R.assign true
    expect ":"
    let b ← R.assign allowIn
    pure (.cond c a b)
  else pure c

/-- The operator of an assignment that computes. -/
def compoundOp? : String → Option BinaryOp
  | "+=" => some .add | "-=" => some .sub | "*=" => some .mul | "/=" => some .div
  | "%=" => some .mod | "**=" => some .pow | "<<=" => some .shl | ">>=" => some .sar
  | ">>>=" => some .shr | "&=" => some .bitAnd | "|=" => some .bitOr | "^=" => some .bitXor
  | _ => none

/-- The operator of an assignment that may not take place. -/
def logicalAssignOp? : String → Option LogicalOp
  | "&&=" => some .and | "||=" => some .or | "??=" => some .coalesce
  | _ => none

/-- A `yield` expression. -/
def yieldRule (R : Rules) (allowIn : Bool) : Parse Expr := do
  next
  let s ← get
  let bare := s.cur.lf || (match s.cur.tok with
    | .eof => true
    | .punct p => p == ";" || p == ")" || p == "]" || p == "\x7d" || p == "," || p == ":"
    | .ident n _ => n == txt "in" || n == txt "of"
    | _ => false)
  if bare then pure (.yield .absent)
  else if ← takeMark "*" then
    let e ← R.assign allowIn
    pure (.yieldAll e)
  else
    let e ← R.assign allowIn
    pure (.yield e)

/-- An assignment expression. -/
def assignRule (R : Rules) (allowIn : Bool) : Parse Expr := do
  let s ← get
  let start := s.cur.start
  match s.cur.tok with
  | .ident n false =>
    if n == yieldWord && !(← isName n) then
      if !s.scope.generator then fail "unexpected 'yield' keyword"
      if s.scope.inParameters then fail "yield in default expression"
      return (← yieldRule R allowIn)
    if n == txt "async" then
      let (t, lf) ← peek
      if !lf then
        match t with
        | .ident m _ =>
          let isArrow ← lookahead do
            next
            next
            pure ((← isMark "=>") && !alwaysReserved.contains m)
          if isArrow then
            next
            return (← arrowFunction R allowIn true start)
        | .punct "(" =>
          let isArrow ← lookahead do
            next
            arrowFollows
          if isArrow then
            next
            return (← arrowFunction R allowIn true start)
        | _ => pure ()
    let (t, lf) ← peek
    if t == .punct "=>" && !lf && (← isName n) then
      return (← arrowFunction R allowIn false start)
  | .punct "(" =>
    if ← arrowFollows then return (← arrowFunction R allowIn false start)
  | _ => pure ()
  -- No arrow follows, so this is an expression, and perhaps what stands left of an assignment.
  let e ← condLevel R allowIn
  match ← tok with
  | .punct "=" => do
    let target ← assignTarget e "invalid assignment left-hand side"
    next
    let v ← R.assign allowIn
    pure (.assign target v)
  | .punct p =>
    match compoundOp? p with
    | some op => do
      let t ← simpleTarget e "invalid assignment left-hand side"
      next
      let v ← R.assign allowIn
      pure (.compound op t v)
    | none =>
      match logicalAssignOp? p with
      | some op => do
        let t ← simpleTarget e "invalid assignment left-hand side"
        next
        let v ← R.assign allowIn
        pure (.logicalAssign op t v)
      | none => pure e
  | _ => pure e

end Grammar

end Script

end ScriptHost
