import ScriptHost.Code.Compiler
import ScriptHost.Script.Statement
/-!
# Code of statements and whole scripts
-/

namespace ScriptHost

namespace Compile

open Script

/-- Pops the value of a statement, keeping it if it may be the value of the script. -/
def keepValue : C Unit := do
  match (← fn).completion with
  | some r => emit (.setReg r)
  | none => emit .pop

/-- From here on the script has no value, unless a statement gives it one. -/
def clearValue : C Unit := do
  match (← fn).completion with
  | some r => emitAll [.push .undefined, .setReg r]
  | none => pure ()

/-- The labels of the statement that comes next. -/
def takeLabels : C (List Text) := do
  let ls := (← fn).pendingLabels
  modifyFn fun f => { f with pendingLabels := [] }
  pure ls

/-- A condition that may be left out. -/
def testOr (I : Inner) (e : Expr) (no : Nat) : C Unit := do
  match e with
  | .absent => pure ()
  | e => do
    I.expr e
    emit (.jumpIfFalse no)

/-- Declared names with their initial values. -/
def declare (I : Inner) (kind : DeclKind) (items : List Target) : C Unit :=
  items.forM fun item =>
    match item with
    | .withDefault p e => do
      match p with
      | .name n => I.named n e
      | _ => I.expr e
      I.target (kind != .var) p
    | p => do
      if kind != .var then
        emit (.push .undefined)
        I.target true p

/-- A loop whose head declares names: they get new cells in each round. -/
def loopNames (s : Stmt) : List (Text × VarKind) := lexicalOf s

/-- A statement. -/
def stmtRule (I : Inner) (s : Stmt) : C Unit := do
  match s with
  | .empty => pure ()
  | .expr e => do
    I.expr e
    keepValue
  | .declare kind items => declare I kind items
  | .func f => blockFunction f
  | .cls c => do
    I.expr c
    match c with
    | .cls n _ _ _ _ => initName n
    | _ => emit .pop
  | .block body => blockOf I body [] (pure ())
  | .ifElse c a b => do
    clearValue
    let no ← newLabel
    let stop ← newLabel
    I.expr c
    emit (.jumpIfFalse no)
    I.stmt a
    emit (.jump stop)
    place no
    I.stmt b
    place stop
  | .whileLoop test body => do
    let labels ← takeLabels
    clearValue
    let stop ← newLabel
    let again ← here
    I.expr test
    emit (.jumpIfFalse stop)
    inFrame (.loop labels stop again) (I.stmt body)
    emit (.jump again)
    place stop
  | .doWhile body test => do
    let labels ← takeLabels
    clearValue
    let stop ← newLabel
    let next ← newLabel
    let again ← here
    inFrame (.loop labels stop next) (I.stmt body)
    place next
    I.expr test
    emit (.jumpIfTrue again)
    place stop
  | .loop init test update body => do
    let labels ← takeLabels
    clearValue
    let slots ← openBlock (loopNames init)
    match init with
    | .declare kind items => declare I kind items
    | .expr e => do
      I.expr e
      emit .pop
    | _ => pure ()
    let stop ← newLabel
    let next ← newLabel
    let again ← here
    testOr I test stop
    inFrame (.loop labels stop next) (I.stmt body)
    place next
    if !slots.isEmpty then emit (.renew slots)
    match update with
    | .absent => pure ()
    | e => do
      I.expr e
      emit .pop
    emit (.jump again)
    place stop
    closeBlock
  | .forIn kind p e body => do
    let labels ← takeLabels
    clearValue
    let reg ← newReg
    headValue kind p e
    emit (.namesStart reg)
    let stop ← newLabel
    let again ← here
    let done ← newLabel
    emitAll [.namesStep reg, .jumpIfTrue done]
    let _ ← openBlock (headNames kind p)
    I.target (isLexical kind) p
    inFrame (.loop labels stop again) (I.stmt body)
    closeBlock
    emit (.jump again)
    place done
    emit .pop
    place stop
  | .forOf isAwait kind p e body => do
    let labels ← takeLabels
    clearValue
    let reg ← newRegs3
    let item ← newReg
    headValue kind p e
    emit (.iterStart reg isAwait)
    let stop ← newLabel
    let again ← here
    let done ← newLabel
    let err ← newLabel
    if isAwait then emitAll [.iterNext reg, .await, .iterUnpack reg] else emit (.iterStep reg)
    emitAll [.jumpIfTrue done, .setReg item, .enterTry err]
    inFrame (.items labels stop again reg isAwait) do
      let _ ← openBlock (headNames kind p)
      emit (.getReg item)
      I.target (isLexical kind) p
      I.stmt body
      closeBlock
    emitAll [.leaveTry, .jump again]
    place err
    if isAwait then
      let quiet ← newLabel
      let skip ← newLabel
      let go ← newLabel
      emitAll [.setReg item, .enterTry quiet, .iterCloseAsync reg, .jumpIfFalse skip, .await]
      place skip
      emitAll [.pop, .leaveTry, .jump go]
      place quiet
      emit .pop
      place go
      emitAll [.getReg item, .throw]
    else emitAll [.iterCloseQuiet reg, .throw]
    place done
    emit .pop
    place stop
  | .ret e => do
    I.expr e
    emitReturn
  | .brk l => emitJump l false
  | .cont l => emitJump l true
  | .throw e => do
    I.expr e
    emit .throw
  | .attempt body hasHandler param handler hasFinalizer finalizer => do
    clearValue
    if hasFinalizer then withFinalizer (catching body hasHandler param handler) finalizer
    else catching body hasHandler param handler
  | .choose e cases => do
    let labels ← takeLabels
    clearValue
    let reg ← newReg
    I.expr e
    emit (.setReg reg)
    let bodies := cases.map fun
      | .choice _ body => body
      | _ => []
    let all := bodies.flatten
    let lexical := all.flatMap lexicalOf
    let functions := all.flatMap (functionOf 100)
    let fnames := functions.map (·.funcInfo.name)
    let strict ← isStrict
    checkBlock strict (lexical.map (·.1)) fnames (I.varNames all)
      "invalid redefinition of lexical identifier"
    let distinct := fnames.foldl (fun acc n => if acc.contains n then acc else acc ++ [n]) []
    let _ ← openBlock (lexical ++ distinct.map (·, .lexical))
    instantiate I functions
    let stop ← newLabel
    let starts ← cases.mapM fun _ => newLabel
    let mut fallback := stop
    for (c, l) in cases.zip starts do
      match c with
      | .choice .absent _ => fallback := l
      | .choice test _ => do
        emit (.getReg reg)
        I.expr test
        emitAll [.binary .strictEq, .jumpIfTrue l]
      | _ => pure ()
    emit (.jump fallback)
    inFrame (.block labels stop true) do
      for (body, l) in bodies.zip starts do
        place l
        body.forM I.stmt
    closeBlock
    place stop
  | .choice _ _ => pure ()
  | .labelled l body =>
    match body with
    | .loop _ _ _ _ | .whileLoop _ _ | .doWhile _ _ | .forIn _ _ _ _ | .forOf _ _ _ _ _
    | .labelled _ _ => do
      let pending := (← fn).pendingLabels
      modifyFn fun f => { f with pendingLabels := l :: pending }
      I.stmt body
      modifyFn fun f => { f with pendingLabels := [] }
    | _ => do
      let labels ← takeLabels
      let stop ← newLabel
      inFrame (.block (l :: labels) stop false) (I.stmt body)
      place stop
  | .within e body => do
    clearValue
    let hidden ← newWithName
    I.expr e
    emit .checkObject
    let _ ← openBlock [(hidden, .lexical)]
    initName hidden
    I.stmt body
    closeBlock
  | .importFrom _ _ _ => pure ()
  | .exportNames _ => pure ()
  | .exportFrom _ _ _ => pure ()
  | .exportDecl s => I.stmt s
  | .exportDefault e => do
    match e with
    | .func info _ _ =>
      if info.name.isEmpty || info.role == .arrow then do
        I.named (txt "default") e
        emit .pop
    | .cls n _ _ _ _ => do
      I.named (txt "default") e
      if n.isEmpty then emit .pop else initName n
    | e => do
      I.named (txt "default") e
      emit .pop
where
  /-- Whether the head of a loop declares lexical names. -/
  isLexical (kind : Option DeclKind) : Bool := kind == some .lexical || kind == some .const
  /-- The names that the head of a loop declares. -/
  headNames (kind : Option DeclKind) (p : Target) : List (Text × VarKind) :=
    match kind with
    | some .lexical => (names p).map (·, .lexical)
    | some .const => (names p).map (·, .const)
    | _ => []
  /-- What a loop goes over; the names of its head are in reach, but not initialized. -/
  headValue (kind : Option DeclKind) (p : Target) (e : Expr) : C Unit := do
    let _ ← openBlock (headNames kind p)
    I.expr e
    closeBlock
  /-- A function declared in a block also sets the variable of its name in the whole function. -/
  blockFunction (f : Expr) : C Unit := do
    let name := f.funcInfo.name
    let state ← fn
    if !state.info.strict && f.funcInfo.body == .plain then
      let inner := state.blocks.dropWhile fun vars => !(vars.any (·.name == name))
      match inner with
      | vars :: outer =>
        match vars.find? (·.name == name), findVar name outer with
        | some v, some w =>
          if w.kind == .var then emitAll [.getVar (.slot v.slot) name, .setVar (.slot w.slot) name]
        | some v, none =>
          if state.globalNames && state.blocks.length > 1 then
            emitAll [.getVar (.slot v.slot) name, .setGlobal name false]
        | _, _ => pure ()
      | [] => pure ()
  /-- A body with a handler. -/
  catching (body : List Stmt) (hasHandler : Bool) (param : Target) (handler : List Stmt) :
      C Unit := do
    if hasHandler then
      let caught ← newLabel
      let stop ← newLabel
      emit (.enterTry caught)
      inFrame .guarded (blockOf I body [] (pure ()))
      emitAll [.leaveTry, .jump stop]
      place caught
      match param with
      | .hole => do
        emit .pop
        blockOf I handler [] (pure ())
      | p => blockOf I handler ((names p).map (·, .lexical)) (I.target true p)
      place stop
    else blockOf I body [] (pure ())
  /-- A statement with a finalizer. -/
  withFinalizer (body : C Unit) (finalizer : List Stmt) : C Unit := do
    -- one register says where to go on, the next holds what was thrown
    let reg ← newReg
    let thrown ← newReg
    let saved ← newReg
    let start ← newLabel
    let err ← newLabel
    let stop ← newLabel
    let id := (← fn).finalizers.size
    modifyFn fun f => { f with finalizers := f.finalizers.push ⟨start, reg, #[]⟩ }
    emit (.enterTry err)
    inFrame (.finalized id) body
    emit .leaveTry
    callFinalizer id
    emit (.jump stop)
    place err
    emitAll [.setReg thrown, .push (.int (-1)), .setReg reg]
    place start
    -- the value of the script is what the body gave, not what the finalizer gives
    match (← fn).completion with
    | some r => do
      emitAll [.getReg r, .setReg saved]
      blockOf I finalizer [] (pure ())
      emitAll [.getReg saved, .setReg r]
    | none => blockOf I finalizer [] (pure ())
    match (← fn).finalizers[id]? with
    | some fin => emit (.dispatch reg fin.returns.toList)
    | none => pure ()
    place stop

/-! ## The compilers together -/

/-- The compilers, for trees nested at most `depth` deep. -/
def inner : Nat → Inner
  | 0 =>
    { expr := fun _ => throw "stack overflow", named := fun _ _ => throw "stack overflow"
      target := fun _ _ => throw "stack overflow", stmt := fun _ => throw "stack overflow"
      func := fun _ _ _ => throw "stack overflow", varNames := fun _ => [] }
  | depth + 1 =>
    { expr := fun e s => exprRule (inner depth) e s
      named := fun n e s => namedRule (inner depth) n e s
      target := fun b p s => targetRule (inner depth) b p s
      stmt := fun t s => stmtRule (inner depth) t s
      func := fun n d e s => funcRule (inner depth) n d e s
      varNames := fun ss => ss.flatMap (varNamesOf 1000 false false) }

/-- How deep trees may be nested. -/
def depthLimit : Nat := 4000

/-- How a script is run. -/
inductive Mode where
  /-- A script of its own. -/
  | script
  /-- A script whose statements may wait; its value comes as a member of an object. -/
  | async
  /-- Text given to the evaluator, not from within a function. -/
  | indirect
  /-- Text given to the evaluator inside a function. -/
  | direct (scope : EvalScope)
deriving Inhabited

/-- Names that occur in a list once each. -/
def distinctNames (ns : List Text) : List Text :=
  ns.foldl (fun acc n => if acc.contains n then acc else acc ++ [n]) []

/-- Declares a name from inside a function: on the object there for such names, with a value,
unless the name stands for a variable within reach of that object. -/
def declareInside (captures : List (Text × VarRef × VarKind)) (name : Text) (value known : C Unit) :
    C Unit := do
  match captures.find? fun (n, _) => n == name || isWithName n with
  | some (n, _) =>
    if n == name then known
    else do
      pushName n false
      value
      emitAll [.defineField (Key.ofText name), .pop]
  | none => do
    value
    emit .pop

/-- The code of a script. -/
def scriptCode (mode : Mode) (p : Program) : C Unit := do
  let I := inner depthLimit
  let lexical := p.body.flatMap lexicalOf
  let functions := p.body.flatMap (functionOf 100)
  let fnames := distinctNames (functions.map (·.funcInfo.name))
  let vars := (distinctNames (I.varNames p.body)).filter fun n => !fnames.contains n
  if (duplicate? (lexical.map (·.1))).isSome then throw "invalid redefinition of lexical identifier"
  let position (n : Text) (ns : List (List Text)) : Nat := (ns.findIdx? (·.contains n)).getD 0
  let stmtLexical := p.body.map fun s => (lexicalOf s).map (·.1)
  let stmtVars := p.body.map fun s =>
    varNamesOf 1000 false false s ++ (functionOf 100 s).map (·.funcInfo.name)
  for (n, _) in lexical do
    if vars.contains n || fnames.contains n then
      if position n stmtLexical < position n stmtVars then
        throw "invalid redefinition of lexical identifier"
      else throw "invalid redefinition of global identifier"
  let f ← fn
  -- names declared here belong to the function around
  let insideLoose := !f.globalNames && f.insideFunction && !f.info.strict
  let completion ← newReg
  modifyFn fun f => { f with completion := some completion }
  emitAll [.push .undefined, .setReg completion]
  let isScript := match mode with
    | .script | .async => true
    | _ => false
  if f.globalNames then
    emit (.declareGlobals fnames vars
      (if isScript then lexical.map (fun (n, k) => (n, k == .const)) else []) (!isScript))
  else if insideLoose then
    for n in vars do
      declareInside f.captures.toList n (emit (.push .undefined)) (pure ())
  else
    for n in vars ++ fnames do
      let s ← declareOuter n .var
      emitAll [.push .undefined, .initVar (.slot s)]
  if !isScript then
    for (n, k) in lexical do
      let _ ← declareOuter n k
  for fe in functions do
    let n := fe.funcInfo.name
    let i ← I.func n true fe
    if insideLoose then
      declareInside f.captures.toList n (emit (.closure i)) (emitAll [.closure i] *> assignName n)
    else
      emit (.closure i)
      if f.globalNames then emit (.defineGlobalFunction n (!isScript)) else initName n
  p.body.forM I.stmt
  match mode with
  | .async => emitAll [.newObject, .getReg completion, .defineField (Key.str "value"), .ret]
  | _ => emitAll [.getReg completion, .ret]

/-- Compiles a script. -/
def compileScript (mode : Mode) (file : String) (p : Program) : Except String FunctionCode := do
  let captures : List (Text × VarRef × VarKind) := match mode with
    | .direct scope => scope.visible.map fun (v : Visible) => (v.name, v.ref, v.kind)
    | _ => []
  let (superCall, superMember, inFunction) := match mode with
    | .direct scope => (scope.superCall, scope.superMember, scope.inFunction)
    | _ => (false, false, false)
  -- Strict text that a script has evaluated keeps its variables to itself.
  let globalNames := match mode with
    | .script | .async => true
    | _ => !p.strict && !inFunction
  let info : FuncInfo :=
    { name := txt "<eval>", strict := p.strict
      body := match mode with
        | .async => .async
        | _ => .plain }
  let start : FnState :=
    { info := info, captures := captures.toArray, isTop := true, globalNames := globalNames
      insideFunction := inFunction, superCall := superCall, superMember := superMember }
  let ((), s) ← (scriptCode mode p).run { fns := [start], file := file }
  .ok ((s.fns.headD default).code file 0)

/-- A compiled module. -/
structure ModuleCode where
  code : FunctionCode := {}
  /-- The modules it asks for. -/
  requests : List Text := []
  /-- A name that it exports without declaring it. -/
  missing : Option Text := none
deriving Inhabited

/-- Compiles a module. -/
def compileModule (file : String) (p : Program) : Except String ModuleCode := do
  let I := inner depthLimit
  let lexical := p.body.flatMap lexicalOf
  let functions := p.body.flatMap (functionOf 100)
  let fnames := distinctNames (functions.map (·.funcInfo.name))
  let vars := (distinctNames (p.body.flatMap (varNamesOf 1000 true false))).filter fun n =>
    !fnames.contains n
  let imported := p.body.flatMap fun
    | .importFrom _ ns whole => ns.map (·.2) ++ whole.toList
    | _ => []
  let lexicalNames := lexical.map (·.1)
  if (duplicate? (lexicalNames ++ fnames ++ imported)).isSome then
    throw "invalid redefinition of global identifier"
  if vars.any lexicalNames.contains then throw "invalid redefinition of lexical identifier"
  let requests := p.body.filterMap fun
    | .importFrom spec _ _ => some spec
    | .exportFrom spec _ _ => some spec
    | _ => none
  let declared := lexicalNames ++ fnames ++ vars ++ imported
  let exported := p.body.flatMap fun
    | .exportNames ns => ns.map (·.1)
    | _ => []
  let exportedAs := p.body.flatMap fun
    | .exportNames ns => ns.map (·.2)
    | .exportFrom _ ns _ => ns.map (·.2)
    | .exportDefault _ => [txt "default"]
    | .exportDecl s => (lexicalOf s).map (·.1) ++ varNamesOf 1000 true false s ++
        (functionOf 100 s).map (·.funcInfo.name)
    | _ => []
  match duplicate? exportedAs with
  | some n => throw ("duplicate exported name '" ++ n.toHostString ++ "'")
  | none => pure ()
  let body : C Unit := do
    for n in vars ++ fnames do
      let s ← declareOuter n .var
      emitAll [.push .undefined, .initVar (.slot s)]
    for (n, k) in lexical do
      let _ ← declareOuter n k
    for n in imported do
      let _ ← declareOuter n .const
    instantiate I functions
    p.body.forM I.stmt
    emitAll [.push .undefined, .ret]
  let info : FuncInfo :=
    { name := txt "<eval>", strict := true, body := if p.hasAwait then .async else .plain }
  let start : FnState := { info := info, isTop := true }
  let ((), s) ← body.run { fns := [start], file := file }
  .ok
    { code := (s.fns.headD default).code file 0, requests := requests
      missing := exported.find? fun n => !declared.contains n }

end Compile

end ScriptHost
