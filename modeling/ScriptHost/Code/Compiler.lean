import ScriptHost.Code.Emit
/-!
# From trees to code

As in the grammar, every compiler takes the compilers one level further in as an argument.
-/

namespace ScriptHost

namespace Compile

open Script

/-- The compilers one level further in. -/
structure Inner where
  /-- `→ v` -/
  expr : Expr → C Unit
  /-- `→ v`, where a function or class without a name gets one. -/
  named : Text → Expr → C Unit
  /-- `v →`, putting a value into a target. -/
  target : Bool → Target → C Unit
  stmt : Stmt → C Unit
  /-- Compiles a function with a name, as a child. -/
  func : Text → Bool → Expr → C Nat
  /-- The names that statements declare with `var`. -/
  varNames : List Stmt → List Text

/-! ## Declared names -/

/-- The names that a pattern binds. -/
abbrev names (p : Target) : List Text := Grammar.boundNames 1000 p

/-- The names that a statement declares with `var`; functions inside blocks count under loose
rules. -/
def varNamesOf : Nat → Bool → Bool → Stmt → List Text
  | 0, _, _, _ => []
  | fuel + 1, strict, inBlock, s =>
    let all := fun (ss : List Stmt) => ss.flatMap (varNamesOf fuel strict true)
    let one := varNamesOf fuel strict true
    match s with
    | .declare .var items => items.flatMap names
    | .func f => if inBlock && !strict && f.funcInfo.body == .plain then [f.funcInfo.name] else []
    | .block body => all body
    | .ifElse _ a b => one a ++ one b
    | .loop init _ _ body => one init ++ one body
    | .whileLoop _ body => one body
    | .doWhile body _ => one body
    | .forIn kind p _ body => (if kind == some .var then names p else []) ++ one body
    | .forOf _ kind p _ body => (if kind == some .var then names p else []) ++ one body
    | .attempt body _ _ handler _ finalizer => all body ++ all handler ++ all finalizer
    | .choose _ cases => all cases
    | .choice _ body => all body
    | .labelled _ body => varNamesOf fuel strict inBlock body
    | .within _ body => one body
    | .exportDecl s => varNamesOf fuel strict inBlock s
    | _ => []

/-- The names that a statement of a block declares in it. -/
def lexicalOf (s : Stmt) : List (Text × VarKind) :=
  match s with
  | .declare .lexical items => (items.flatMap names).map (·, .lexical)
  | .declare .const items => (items.flatMap names).map (·, .const)
  | .cls (.cls name _ _ _ _) => [(name, .lexical)]
  | .exportDecl (.declare .lexical items) => (items.flatMap names).map (·, .lexical)
  | .exportDecl (.declare .const items) => (items.flatMap names).map (·, .const)
  | .exportDecl (.cls (.cls name _ _ _ _)) => [(name, .lexical)]
  | .exportDefault (.cls name _ _ _ _) => if name.isEmpty then [] else [(name, .lexical)]
  | _ => []

/-- The functions that a statement of a block declares in it. -/
def functionOf : Nat → Stmt → List Expr
  | 0, _ => []
  | fuel + 1, s =>
    match s with
    | .func f => [f]
    | .exportDecl (.func f) => [f]
    | .exportDefault f =>
      match f with
      | .func info _ _ => if info.name.isEmpty || info.role == .arrow then [] else [f]
      | _ => []
    | .labelled _ body => functionOf fuel body
    | _ => []

/-- Whether any name occurs twice. -/
def duplicate? : List Text → Option Text
  | [] => none
  | n :: ns => if ns.contains n then some n else duplicate? ns

/-- Checks what a block declares: no lexical name twice, none that is also declared with `var`
inside the block. -/
def checkBlock (strict : Bool) (lexical : List Text) (functions : List Text) (vars : List Text)
    (message : String) : C Unit := do
  if (duplicate? lexical).isSome then throw message
  if strict && (duplicate? functions).isSome then throw message
  if functions.any lexical.contains then throw message
  if vars.any lexical.contains then throw "invalid redefinition of lexical identifier"

/-! ## Small pieces -/

/-- Whether an expression is a function or class without a name. -/
def isAnonymous : Expr → Bool
  | .func i _ _ => i.name.isEmpty
  | .cls name _ _ _ _ => name.isEmpty
  | .paren e =>
    match e with
    | .func i _ _ => i.name.isEmpty
    | .cls name _ _ _ _ => name.isEmpty
    | _ => false
  | _ => false

/-- Leaves the current chain with undefined if the top is nullish; `extra` values below it go
too. -/
def leaveChainIfNullish (extra : Nat) : C Unit := do
  match (← fn).chains with
  | stop :: _ => do
    let nullish ← newLabel
    let go ← newLabel
    emitAll [.jumpIfNullish nullish, .jump go]
    place nullish
    emit .pop
    for _ in [0:extra] do emit .pop
    emitAll [.push .undefined, .jump stop]
    place go
  | [] => pure ()

/-- A private name: how it is found and what it stands for. -/
def privateRef (name : Text) : C (VarRef × VarKind) := do
  match ← resolve name with
  | some r => pure r
  | none => throw ("undefined private field '" ++ name.toHostString ++ "'")

/-- The hidden name of the mark of a class, for its objects or for itself. -/
def brandName (isStatic : Bool) : Text := if isStatic then txt "%static brand" else txt "%brand"

/-- The hidden name of the setter of a private accessor. -/
def setterName (name : Text) : Text := txt "%set " ++ name

/-- The hidden name that says that a private member belongs to the class itself. -/
def staticName (name : Text) : Text := txt "%static " ++ name

/-- Pushes the mark that objects with a private method carry. -/
def pushBrand (name : Text) : C Unit := do
  let isStatic := (← resolve (staticName name)).isSome
  let (ref, _) ← privateRef (brandName isStatic)
  emit (.getVar ref name)

/-- `o → v`, reading a private member. -/
def readPrivate (name : Text) : C Unit := do
  let (ref, kind) ← privateRef name
  match kind with
  | .privateField => emitAll [.getVar ref name, .getPrivate]
  | .privateMethod => do
    pushBrand name
    emitAll [.checkBrand, .pop, .getVar ref name]
  | .privateGetter | .privateAccessor => do
    pushBrand name
    emitAll [.checkBrand, .getVar ref name, .swap, .call 0]
  | _ => do
    pushBrand name
    emitAll [.checkBrand, .pop, .raise .type "cannot read from private setter"]

/-- `o v → v`, writing a private member. -/
def writePrivate (name : Text) : C Unit := do
  let (ref, kind) ← privateRef name
  match kind with
  | .privateField => emitAll [.swap, .getVar ref name, .lift 2, .setPrivate]
  | .privateSetter | .privateAccessor => do
    let (sref, _) ← privateRef (setterName name)
    emit .swap
    pushBrand name
    -- v o → v f o v
    emitAll [.checkBrand, .getVar sref name, .swap, .lift 2, .dup, .sink 3, .call 1, .pop]
  | .privateMethod => emitAll [.constError name]
  | _ => emitAll [.raise .type "no setter for property"]

/-! ## References -/

/-- `→ f this`, the function and receiver of a call. -/
def callee (I : Inner) : Expr → C Unit
  | .member o n => do
    I.expr o
    match o with
    | .maybe _ => pure ()
    | _ => pure ()
    emitAll [.dup, .getField (Key.ofText n), .swap]
  | .element o k => do
    I.expr o
    emit .dup
    I.expr k
    emitAll [.getElement, .swap]
  | .privateMember o n => do
    I.expr o
    emit .dup
    readPrivate n
    emit .swap
  | .superMember n => do
    pushThis
    emit .dup
    pushImplicit .home
    emitAll [.push (.string n), .getSuper, .swap]
  | .superElement k => do
    pushThis
    emit .dup
    pushImplicit .home
    I.expr k
    emitAll [.getSuper, .swap]
  | .ident n => do
    match ← withs n with
    | [] => do
      pushName n false
      emit (.push .undefined)
    | ws => do
      -- Under `with` statements, only running the code tells which of them has the name.
      let rec go : List Text → C Unit
        | [] => do
          match ← resolve n with
          | some (ref, _) => emit (.getVar ref n)
          | none => emit (.getGlobal n)
          emit (.push .undefined)
        | w :: more => do
          let miss ← newLabel
          let stop ← newLabel
          match ← resolve w with
          | some (ref, _) =>
            emitAll [.getVar ref w, .withHas n, .jumpIfFalse miss, .getVar ref w, .dup,
              .getField (Key.ofText n), .swap, .jump stop]
          | none => pure ()
          place miss
          go more
          place stop
      go ws
  | .maybe e => do
    calleePlain e
    emit .swap
    leaveChainIfNullish 1
    emit .swap
  | .paren e =>
    match e with
    | .member _ _ | .element _ _ | .privateMember _ _ => calleePlain e
    | _ => do
      I.expr e
      emit (.push .undefined)
  | e => do
    I.expr e
    emit (.push .undefined)
where
  /-- The same for an expression that is no link of a chain. -/
  calleePlain : Expr → C Unit
    | .member o n => do
      I.expr o
      emitAll [.dup, .getField (Key.ofText n), .swap]
    | .element o k => do
      I.expr o
      emit .dup
      I.expr k
      emitAll [.getElement, .swap]
    | .privateMember o n => do
      I.expr o
      emit .dup
      readPrivate n
      emit .swap
    | .superMember n => do
      pushThis
      emit .dup
      pushImplicit .home
      emitAll [.push (.string n), .getSuper, .swap]
    | e => do
      I.expr e
      emit (.push .undefined)

/-- Items put at the end of an array on the stack. -/
def items (I : Inner) (es : List Expr) : C Unit :=
  es.forM fun e =>
    match e with
    | .absent => emit .appendHole
    | .spread e => do
      I.expr e
      emit .appendAll
    | e => do
      I.expr e
      emit .append

/-- Whether arguments hold one that stands for many. -/
def hasSpread (es : List Expr) : Bool :=
  es.any fun
    | .spread _ => true
    | _ => false

/-- The key of a member with a name that is known. -/
def fixedKey? : Expr → Option Key
  | .value (.string t) => some (Key.ofText t)
  | .value (.int n) => if n ≥ 0 then some (Key.ofNat n.toInt.toNat) else none
  | _ => none

/-- `→ k`, the key of a member. -/
def pushKey (I : Inner) (e : Expr) : C Unit := do
  I.expr e
  emit .toKey

/-- Whether a value is at hand without computing anything. -/
def isAtHand : Expr → Bool
  | .value _ | .ident _ => true
  | _ => false

/-- `→ o k`, an object and the key of a member that is written. -/
def pushPlace (I : Inner) (o k : Expr) : C Unit := do
  I.expr o
  I.expr k
  emit .toKeyOf

/-! ## Operators that read and write -/

/-- Reads a target, computes with `f`, writes the result; leaves what was written, or with `old`
what was read.  `f` has the shape `x → y`. -/
def modify (I : Inner) (target : Expr) (old : Bool) (f : C Unit) : C Unit := do
  let strict ← isStrict
  let keep (n : Nat) : C Unit := if old then emitAll [.toNumeric, .dup, .sink (n + 1)] else pure ()
  let drop : C Unit := if old then emit .pop else pure ()
  match target with
  | .ident n => do
    pushName n false
    if old then emitAll [.toNumeric, .dup]
    f
    if !old then emit .dup
    assignName n
  | .member o n => do
    I.expr o
    emitAll [.dup, .getField (Key.ofText n)]
    keep 1
    f
    emit (.setField (Key.ofText n) strict)
    drop
  | .element o k => do
    pushPlace I o k
    emitAll [.dup2, .getElement]
    keep 2
    f
    emit (.setElement strict)
    drop
  | .privateMember o n => do
    I.expr o
    emit .dup
    readPrivate n
    keep 1
    f
    writePrivate n
    drop
  | .superMember n => superCase strict (emit (.push (.string n)))
  | .superElement k => do
    -- The key is worked out once; the register holds it from reading to writing.
    let r ← newReg
    pushKey I k
    emit (.setReg r)
    superCase strict (emit (.getReg r))
  | _ => throw "invalid assignment left-hand side"
where
  /-- The same for a member of the parent. -/
  superCase (strict : Bool) (key : C Unit) : C Unit := do
    pushThis
    pushImplicit .home
    key
    emit .getSuper
    let r ← newReg
    if old then emitAll [.toNumeric, .dup]
    f
    emit (.setReg r)
    pushThis
    pushImplicit .home
    key
    emitAll [.getReg r, .setSuper strict]
    if old then emit .pop

/-- An assignment that takes place only if the old value asks for it. -/
def logicalAssign (I : Inner) (op : LogicalOp) (target e : Expr) : C Unit := do
  let strict ← isStrict
  -- x →, or jumping with x on the stack if nothing is to be written
  let test (skip : Nat) : C Unit :=
    match op with
    | .and => emitAll [.dup, .jumpIfFalse skip, .pop]
    | .or => emitAll [.dup, .jumpIfTrue skip, .pop]
    | .coalesce => do
      let go ← newLabel
      emitAll [.jumpIfNullish go, .jump skip]
      place go
      emit .pop
  let skip ← newLabel
  let stop ← newLabel
  match target with
  | .ident n => do
    pushName n false
    test skip
    I.named n e
    emit .dup
    assignName n
    place skip
  | .member o n => do
    I.expr o
    emitAll [.dup, .getField (Key.ofText n)]
    test skip
    I.expr e
    emitAll [.setField (Key.ofText n) strict, .jump stop]
    place skip
    emitAll [.swap, .pop]
    place stop
  | .element o k => do
    pushPlace I o k
    emitAll [.dup2, .getElement]
    test skip
    I.expr e
    emitAll [.setElement strict, .jump stop]
    place skip
    emitAll [.sink 2, .pop, .pop]
    place stop
  | .privateMember o n => do
    I.expr o
    emit .dup
    readPrivate n
    test skip
    I.expr e
    writePrivate n
    emit (.jump stop)
    place skip
    emitAll [.swap, .pop]
    place stop
  | _ => throw "invalid assignment left-hand side"

/-! ## Targets -/

/-- `v →`, putting a value into a target.  `init` says that names are declared here. -/
def targetRule (I : Inner) (init : Bool) (p : Target) : C Unit := do
  let strict ← isStrict
  match p with
  | .name n => if init then initName n else assignName n
  | .expr e =>
    match e with
    | .ident n => assignName n
    | .member o n => do
      I.expr o
      emitAll [.swap, .setField (Key.ofText n) strict, .pop]
    | .element o k => do
      pushPlace I o k
      emitAll [.lift 2, .setElement strict, .pop]
    | .privateMember o n => do
      I.expr o
      emit .swap
      writePrivate n
      emit .pop
    | .superMember n => do
      pushThis
      pushImplicit .home
      emitAll [.push (.string n), .lift 3, .setSuper strict, .pop]
    | .superElement k => do
      pushThis
      pushImplicit .home
      I.expr k
      emitAll [.lift 3, .setSuper strict, .pop]
    | _ => throw "invalid destructuring target"
  | .withDefault p e => do
    let l ← newLabel
    emitAll [.jumpIfDefined l, .pop]
    match p with
    | .name n => I.named n e
    | _ => I.expr e
    place l
    I.target init p
  | .hole => emit .pop
  | .rest p => I.target init p
  | .keyed _ p => I.target init p
  | .object members => do
    emit .checkObject
    let hasRest := members.any fun
      | .rest _ => true
      | _ => false
    -- keys that a rest leaves out, pushed again when it is reached
    let mut pushes : List (C Unit) := []
    for m in members do
      match m with
      | .keyed key p =>
        match fixedKey? key with
        | some k => do
          pushes := pushes ++ [emit (.push k.toValue)]
          emitAll [.dup, .getField k]
          I.target init p
        | none => do
          emit .dup
          pushKey I key
          if hasRest then
            let r ← newReg
            emitAll [.dup, .setReg r]
            pushes := pushes ++ [emit (.getReg r)]
          emit .getElement
          I.target init p
      | .rest p => do
        emit .dup
        pushes.forM id
        emit (.copyRest pushes.length)
        I.target init p
      | p => do
        emit .dup
        I.target init p
    emit .pop
  | .array items => do
    let reg ← newRegs3
    let err ← newLabel
    let stop ← newLabel
    emit (.iterStart reg false)
    emit (.enterTry err)
    inFrame (.taking reg) do
      for item in items do
        match item with
        | .rest p => do
          emit (.iterRest reg)
          I.target init p
        | .hole => emitAll [.iterStep reg, .pop, .pop]
        | p => do
          emitAll [.iterStep reg, .pop]
          I.target init p
    emitAll [.leaveTry, .iterClose reg, .jump stop]
    place err
    emitAll [.iterCloseQuiet reg, .throw]
    place stop

/-! ## Functions -/

/-- How many parameters come before the first with a default. -/
def lengthOf (ps : List Target) : Nat :=
  (ps.takeWhile fun
    | .withDefault _ _ | .rest _ => false
    | _ => true).length

/-- Makes the functions that statements declare and puts them under their names. -/
def instantiate (I : Inner) (functions : List Expr) : C Unit :=
  functions.forM fun f => do
    let i ← I.func f.funcInfo.name true f
    emit (.closure i)
    initName f.funcInfo.name

/-- Statements in a block of their own. -/
def blockOf (I : Inner) (body : List Stmt) (extra : List (Text × VarKind)) (start : C Unit) :
    C Unit := do
  let strict ← isStrict
  let lexical := body.flatMap lexicalOf
  let functions := body.flatMap (functionOf 100)
  let fnames := functions.map (·.funcInfo.name)
  checkBlock strict (lexical.map (·.1)) fnames (I.varNames body)
    "invalid redefinition of lexical identifier"
  if lexical.any (fun (n, _) => extra.any (·.1 == n)) then
    throw "invalid redefinition of lexical identifier"
  let distinct := fnames.foldl (fun acc n => if acc.contains n then acc else acc ++ [n]) []
  let _ ← openBlock (extra ++ lexical ++ distinct.map (·, .lexical))
  start
  instantiate I functions
  body.forM I.stmt
  closeBlock

/-- Makes the object that holds the names that `eval` declares in a function. -/
def openDeclared : C Unit := do
  let slot ← declareOuter (← newWithName) .lexical
  emitAll [.newObject, .push .null, .setProto, .initVar (.slot slot)]

/-- Gives the body variables of its own, which start out with the values of the parameters. -/
def openBody (params locals : List Text) : C Unit := do
  let outer := (← fn).blocks
  let _ ← openBlock ((params ++ locals).map (·, .var))
  for n in params do
    match findVar n outer with
    | some v => emit (.getVar (.slot v.slot) n)
    | none => emit (.push .undefined)
    initName n
  for n in locals do
    emit (.push .undefined)
    initName n

/-- Binds parameters to the arguments. -/
def bindParameters (I : Inner) (ps : List Target) : C Unit := do
  for (p, i) in ps.zipIdx do
    match p with
    | .rest p => do
      emit (.restArgs i)
      I.target true p
    | p => do
      emit (.arg i)
      I.target true p

/-- The state at the start of a function. -/
def startOf (info : FuncInfo) (outer : FnState) : FnState :=
  { info := info
    superCall := if info.role == .arrow then outer.superCall else info.role == .derivedConstructor
    superMember := if info.role == .arrow then outer.superMember else info.role != .ordinary }

/-- A function, as a child of the current one; `declared` says that its name is bound outside. -/
def funcRule (I : Inner) (name : Text) (declared : Bool) (e : Expr) : C Nat := do
  match e with
  | .func info ps body => do
    let outer ← fn
    let selfNamed := !declared && !info.name.isEmpty && info.role == .ordinary
    let info := { info with name := name }
    withFunction (startOf info outer) (lengthOf ps) do
      let params := ps.flatMap names
      let paramNames := params.foldl (fun acc n => if acc.contains n then acc else acc ++ [n]) []
      let lexical := body.flatMap lexicalOf
      let functions := body.flatMap (functionOf 100)
      let fnames := functions.map (·.funcInfo.name)
      let vars := I.varNames body ++ fnames
      if lexical.any (fun (n, _) => params.contains n) then
        throw "invalid redefinition of parameter name"
      if lexical.any (fun (n, _) => vars.contains n) then throw "invalid redefinition of a variable"
      checkBlock true (lexical.map (·.1)) [] [] "invalid redefinition of lexical identifier"
      let locals := vars.foldl
        (fun acc n => if acc.contains n || paramNames.contains n then acc else acc ++ [n]) []
      if selfNamed && !paramNames.contains name && !locals.contains name
          && !(lexical.any (·.1 == name)) then
        let s ← declareOuter name .selfName
        emitAll [.callee, .initVar (.slot s)]
      for n in paramNames do
        let _ ← declareOuter n .var
      if info.callsEval && !info.strict then openDeclared
      let simple := info.simpleParams
      if simple && !info.strict && info.role != .arrow then
        let f ← fn
        let slots := params.filterMap fun n => (findVar n f.blocks).map (·.slot)
        modifyFn fun f => { f with sharedParams := some slots }
      bindParameters I ps
      if info.body == .generator || info.body == .asyncGenerator then emit .initialYield
      -- a variable of the body named `arguments` starts out as the object of that name
      let hasArguments := locals.contains Parse.argumentsWord && info.role != .arrow
        && !(fnames.contains Parse.argumentsWord)
      if hasArguments then
        let _ ← resolve Parse.argumentsWord
      let locals := locals.filter fun n => !(hasArguments && n == Parse.argumentsWord)
      if ps.any (Grammar.hasDefault 1000) then
        openBody paramNames locals
        let _ ← openBlock lexical
      else
        for n in locals do
          let s ← declareOuter n .var
          emitAll [.push .undefined, .initVar (.slot s)]
        for (n, k) in lexical do
          let _ ← declareOuter n k
      instantiate I functions
      body.forM I.stmt
      match info.role with
      | .derivedConstructor => do
        pushImplicit .this
        emit .ret
      | _ => emitAll [.push .undefined, .ret]
  | _ => throw "unexpected token"

/-! ## Classes -/

/-- The function that a member of a class or object is. -/
def memberFunction (I : Inner) (key : Expr) (kind : MemberKind) (f : Expr) : C Unit := do
  let lead := match kind with
    | .getter => txt "get "
    | .setter => txt "set "
    | _ => Text.empty
  let name := match key with
    | .value v =>
      match v with
      | .string t => t
      | .int n => Text.ofString (toString n.toInt)
      | _ => Text.empty
    | .privateName n => n
    | _ => Text.empty
  let i ← I.func (lead ++ name) true f
  emit (.closure i)

/-- The function that puts fields on an object. -/
def initializerOf (I : Inner) (fields : List (Expr × Option Nat × Expr))
    (addBrand isStatic : Bool) : C Nat := do
  let outer ← fn
  let info : FuncInfo := { role := .initializer, strict := true }
  withFunction (startOf info outer) 0 do
    if addBrand then
      let (ref, _) ← privateRef (brandName isStatic)
      emitAll [.this, .getVar ref (txt "brand"), .push (.bool true), .definePrivate, .pop]
    for (key, slot, value) in fields do
      match key with
      | .privateName n => do
        let (ref, _) ← privateRef n
        emitAll [.this, .getVar ref n]
        valueOf n value
        emitAll [.definePrivate, .pop]
      | .value (.string n) => do
        emit .this
        valueOf n value
        emitAll [.defineField (Key.ofText n), .pop]
      | _ =>
        -- A name that was worked out with the class is kept outside, one for all objects.
        match slot with
        | some s => do
          emit .this
          match ← resolve (txt ("%key" ++ toString s)) with
          | some (ref, _) => emit (.getVar ref (txt "key"))
          | none => emit (.push .undefined)
          match value with
          | .absent => emit (.push .undefined)
          | e => do
            I.expr e
            if isAnonymous e then emit .nameByKey
          emitAll [.defineElement, .pop]
        | none => do
          emit .this
          I.expr key
          match value with
          | .absent => emit (.push .undefined)
          | e => do
            I.expr e
            if isAnonymous e then emit .nameByKey
          emitAll [.defineElement, .pop]
    emitAll [.push .undefined, .ret]
where
  /-- The value of a field. -/
  valueOf (n : Text) (value : Expr) : C Unit :=
    match value with
    | .absent => emit (.push .undefined)
    | e => I.named n e

/-- A class; leaves its constructor. -/
def classRule (I : Inner) (given : Text) (e : Expr) : C Unit := do
  match e with
  | .cls name heritage ctor members source => do
    let savedStrict ← isStrict
    modifyFn fun f => { f with info := { f.info with strict := true } }
    -- private names and their kinds
    let privates := members.filterMap fun
      | .mk kind isStatic (.privateName n) _ => some (n, kind, isStatic)
      | _ => none
    for (n, _, isStatic) in privates do
      let same := privates.filter (·.1 == n)
      let pair := same.length == 2 && same.any (·.2.1 == .getter) && same.any (·.2.1 == .setter)
        && same.all (·.2.2 == isStatic)
      if same.length > 1 && !pair then throw "private class field is already defined"
    let distinct := privates.foldl
      (fun acc p => if acc.any (fun (q : Text × MemberKind × Bool) => q.1 == p.1) then acc
        else acc ++ [p]) []
    let kindOf (n : Text) : VarKind :=
      let same := (privates.filter (·.1 == n)).map (·.2.1)
      if same.contains .getter && same.contains .setter then .privateAccessor
      else if same.contains .getter then .privateGetter
      else if same.contains .setter then .privateSetter
      else if same.contains .method then .privateMethod
      else .privateField
    let needsBrand (isStatic : Bool) :=
      privates.any fun (_, k, s) => s == isStatic && k != .property
    -- keys of fields that are computed once, when the class is made
    let computed := members.zipIdx.filterMap fun (m, i) =>
      match m with
      | .mk .property _ (.paren _) _ => some i
      | _ => none
    let hidden : List (Text × VarKind) :=
      (if name.isEmpty then [] else [(name, .const)])
      ++ distinct.map (fun (n, _, _) => (n, kindOf n))
      ++ distinct.filterMap (fun (n, _, _) =>
          if kindOf n == .privateAccessor || kindOf n == .privateSetter then
            some (setterName n, .lexical)
          else none)
      ++ distinct.filterMap (fun (n, _, s) => if s then some (staticName n, .lexical) else none)
      ++ (if needsBrand false then [(brandName false, .lexical)] else [])
      ++ (if needsBrand true then [(brandName true, .lexical)] else [])
      ++ computed.map (fun i => (txt ("%key" ++ toString i), .lexical))
    let _ ← openBlock hidden
    for (n, _, _) in distinct do
      if kindOf n == .privateField then
        let (ref, _) ← privateRef n
        emitAll [.newPrivate n, .initVar ref]
      if kindOf n == .privateSetter then
        let (ref, _) ← privateRef n
        emitAll [.push .undefined, .initVar ref]
    if needsBrand false then
      emit (.newPrivate (txt "<brand>"))
      initName (brandName false)
    if needsBrand true then
      emit (.newPrivate (txt "<brand>"))
      initName (brandName true)
    let derived := !heritage.isAbsent
    if derived then I.expr heritage
    let className := if name.isEmpty then given else name
    let ctorIndex ← match ctor with
      | .absent => do
        let info : FuncInfo :=
          { name := className, strict := true, source := source
            role := if derived then .derivedConstructor else .baseConstructor }
        let outer ← fn
        withFunction (startOf info outer) 0 do
          if derived then
            emitAll [.callee, .parentOf, .restArgs 0, .newTarget, .constructAs]
            afterSuper
            emit .ret
          else emitAll [.push .undefined, .ret]
      | f => I.func className true (f.withFuncInfo
        { f.funcInfo with source := source, strict := true })
    emit (.makeClass ctorIndex className derived)
    -- stack: constructor, prototype
    for (m, i) in members.zipIdx do
      match m with
      | .mk .property _ (.paren k) _ => do
        pushKey I k
        initName (txt ("%key" ++ toString i))
      | .mk .property _ _ _ | .mk .staticBlock _ _ _ => pure ()
      | .mk kind isStatic key value => do
        if isStatic then emit .swap
        match key with
        | .privateName n => do
          memberFunction I key kind value
          emitAll [.setHome]
          match kind with
          | .setter => initName (setterName n)
          | _ => initName n
        | _ => do
          match fixedKey? key with
          | some k => emit (.push k.toValue)
          | none => pushKey I key
          memberFunction I key kind value
          match key with
          | .value (.string _) | .value (.int _) => pure ()
          | _ => emit .nameByKey
          emit (.defineMember (match kind with
            | .getter => .getter
            | .setter => .setter
            | _ => .method) false)
        if isStatic then emit .swap
    let fieldsOf (isStatic : Bool) : List (Expr × Option Nat × Expr) :=
      members.zipIdx.filterMap fun (m, i) =>
        match m with
        | .mk .property s key value =>
          if s == isStatic then some (key, (if computed.contains i then some i else none), value)
          else none
        | _ => none
    let instFields := fieldsOf false
    if !instFields.isEmpty || needsBrand false then
      let i ← initializerOf I instFields (needsBrand false) false
      emitAll [.closure i, .setHome, .setInitializer]
    -- the class itself: its name is bound before its own fields run
    emit .pop
    if !name.isEmpty then
      emit .dup
      initName name
    let statics := members.zipIdx.filterMap fun (m, i) =>
      match m with
      | .mk .property true key value =>
          some (key, (if computed.contains i then some i else none), value, false)
      | .mk .staticBlock _ _ f => some (.absent, none, f, true)
      | _ => none
    if needsBrand true then
      let i ← initializerOf I [] true true
      emitAll [.closure i, .runStatic]
    for (key, slot, value, isBlock) in statics do
      if isBlock then
        let i ← I.func Text.empty true value
        emitAll [.closure i, .runStatic]
      else
        let i ← initializerOf I [(key, slot, value)] false true
        emitAll [.closure i, .runStatic]
    closeBlock
    modifyFn fun f => { f with info := { f.info with strict := savedStrict } }
  | _ => throw "unexpected token"
where
  /-- Completes a derived constructor with the object on the stack, which stays there. -/
  afterSuper : C Unit := do
    match ← resolve (implicitName .this) with
    | some (ref, _) => emitAll [.dup, .bindThis ref]
    | none => pure ()
    emitAll [.callee, .swap, .initFields]

/-! ## Expressions -/

/-- What a direct `eval` can see from here. -/
def evalScope : C EvalScope := do
  let s ← get
  let visible := (visibleBlocks s.fns).flatten
  let newTarget := s.fns.any fun f =>
    if f.isTop then f.captures.any (·.1 == implicitName .newTarget) else f.info.role != .arrow
  let implicits :=
    (if newTarget then [Implicit.this, .newTarget, .home, .callee, .arguments] else [.this]).map
      implicitName
  -- The innermost variable of a name hides the others.
  let distinct :=
    (visible ++ implicits).foldl (fun acc n => if acc.contains n then acc else acc ++ [n]) []
  let found ← distinct.filterMapM fun n => do
    match ← resolve n with
    | some (ref, kind) => pure (some (Visible.mk n ref kind))
    | none => pure none
  let f ← fn
  pure { visible := found, strict := f.info.strict
         inFunction := s.fns.any (fun f => !f.isTop || f.insideFunction)
         newTarget := newTarget
         superMember := f.superMember, superCall := f.superCall
         initializer := f.info.role == .initializer }

/-- The members of an object expression, put on the object on the stack. -/
def member (I : Inner) (m : Member) : C Unit := do
  match m with
  | .mk kind _ key value =>
    match kind with
    | .spread => do
      I.expr value
      emit .copyAll
    | .proto => do
      I.expr value
      emit .setProto
    | .property | .shorthand =>
      match fixedKey? key with
      | some k => do
        match key with
        | .value (.string n) => I.named n value
        | .value (.int n) => I.named (Text.ofString (toString n.toInt)) value
        | _ => I.expr value
        emit (.defineField k)
      | none => do
        pushKey I key
        I.expr value
        if isAnonymous value then emit .nameByKey
        emit .defineElement
    | .staticBlock => pure ()
    | .method | .getter | .setter => do
      match fixedKey? key with
      | some k => emit (.push k.toValue)
      | none => pushKey I key
      memberFunction I key kind value
      if (fixedKey? key).isNone then emit .nameByKey
      emit (.defineMember (match kind with
        | .getter => .getter
        | .setter => .setter
        | _ => .method) true)

/-- An expression. -/
def exprRule (I : Inner) (e : Expr) : C Unit := do
  let strict ← isStrict
  match e with
  | .absent => emit (.push .undefined)
  | .value v => emit (.push v)
  | .template strings parts => do
    match strings with
    | [] => emit (.push (.string Text.empty))
    | s :: ss => do
      emit (.push (.string s))
      for (p, t) in parts.zip ss do
        I.expr p
        emitAll [.toText, .binary .add]
        if !t.isEmpty then emitAll [.push (.string t), .binary .add]
  | .tagged tag cooked raw parts pl => do
    callee I tag
    let n := (← fn).templates
    modifyFn fun f => { f with templates := n + 1 }
    emit (.templateObject cooked raw n)
    parts.forM I.expr
    emitAll [.mark pl, .call (parts.length + 1)]
  | .regexp body pattern => emit (.regexp body pattern)
  | .ident n => pushName n false
  | .this => pushThis
  | .newTarget => do
    let f ← fn
    if f.info.role == .arrow || f.isTop then pushImplicit .newTarget else emit .newTarget
  | .importMeta => emit .importMeta
  | .array es => do
    emit .newArray
    items I es
  | .spread e => I.expr e
  | .object members => do
    emit .newObject
    members.forM (member I)
  | .func i _ _ => do
    let n ← I.func i.name false e
    emit (.closure n)
  | .cls _ _ _ _ _ => classRule I Text.empty e
  | .unary op a =>
    match op, a with
    | .typeOf, .ident n => do
      pushName n true
      emit (.unary .typeOf)
    | .void, _ => do
      I.expr a
      emitAll [.pop, .push .undefined]
    | _, _ => do
      I.expr a
      emit (.unary op)
  | .delete a => deleteRule strict a
  | .update inc before t =>
    modify I t (!before) (emit (if inc then .increment else .decrement))
  | .binary op a b => do
    I.expr a
    I.expr b
    emit (.binary op)
  | .logical op a b => do
    let stop ← newLabel
    I.expr a
    match op with
    | .and => emitAll [.dup, .jumpIfFalse stop, .pop]
    | .or => emitAll [.dup, .jumpIfTrue stop, .pop]
    | .coalesce => do
      let go ← newLabel
      emitAll [.jumpIfNullish go, .jump stop]
      place go
      emit .pop
    I.expr b
    place stop
  | .cond c a b => do
    let no ← newLabel
    let stop ← newLabel
    I.expr c
    emit (.jumpIfFalse no)
    I.expr a
    emit (.jump stop)
    place no
    I.expr b
    place stop
  | .assign target v => assignRule strict target v
  | .compound op t v => modify I t false do
      I.expr v
      emit (.binary op)
  | .logicalAssign op t v => logicalAssign I op t v
  | .member o n => do
    I.expr o
    emit (.getField (Key.ofText n))
  | .element o k => do
    I.expr o
    I.expr k
    emit .getElement
  | .privateMember o n => do
    I.expr o
    readPrivate n
  | .superMember n => do
    pushThis
    pushImplicit .home
    emitAll [.push (.string n), .getSuper]
  | .superElement k => do
    pushThis
    pushImplicit .home
    I.expr k
    emit .getSuper
  | .call f args pl => do
    callee I f
    let isEval := match f with
      | .ident n => n == Parse.evalWord
      | _ => false
    if hasSpread args then
      emit .newArray
      items I args
      emitAll [.mark pl, .callSpread]
    else
      args.forM I.expr
      emit (.mark pl)
      if isEval then
        let scope ← evalScope
        let n := (← fn).evalScopes.size
        modifyFn fun f => { f with evalScopes := f.evalScopes.push scope }
        emit (.directEval args.length n)
      else emit (.call args.length)
  | .construct f args pl => do
    I.expr f
    if hasSpread args then
      emit .newArray
      items I args
      emitAll [.mark pl, .constructSpread]
    else
      args.forM I.expr
      emitAll [.mark pl, .construct args.length]
  | .superCall args pl => do
    let f ← fn
    let pushCallee : C Unit :=
      if f.info.role == .arrow || f.isTop then pushImplicit .callee else emit .callee
    pushCallee
    emit .parentOf
    emit .newArray
    items I args
    if f.info.role == .arrow || f.isTop then pushImplicit .newTarget else emit .newTarget
    emitAll [.mark pl, .constructAs]
    match ← resolve (implicitName .this) with
    | some (ref, _) => emitAll [.dup, .bindThis ref]
    | none => pure ()
    pushCallee
    emitAll [.swap, .initFields]
  | .maybe a => do
    I.expr a
    leaveChainIfNullish 0
  | .chain a => do
    let stop ← newLabel
    modifyFn fun f => { f with chains := stop :: f.chains }
    I.expr a
    modifyFn fun f => { f with chains := f.chains.tail }
    place stop
  | .sequence a b => do
    I.expr a
    emit .pop
    I.expr b
  | .yield a => do
    I.expr a
    let f ← fn
    let isAsync := f.info.body == .asyncGenerator
    if isAsync then emit .await
    let go ← newLabel
    emitAll [.yield, .jumpUnlessReturn go]
    emitReturn
    place go
  | .yieldAll a => yieldAllRule a
  | .await a => do
    I.expr a
    emit .await
  | .importCall a => do
    I.expr a
    emit .importCall
  | .privateIn n a => do
    I.expr a
    let (ref, kind) ← privateRef n
    match kind with
    | .privateField => emitAll [.getVar ref n, .hasPrivate]
    | _ => do
      pushBrand n
      emit .hasPrivate
  | .privateName _ => throw "unexpected private name"
  | .paren a => I.expr a
where
  /-- `delete`. -/
  deleteRule (strict : Bool) (a : Expr) : C Unit := do
    match a with
    | .member o n => do
      I.expr o
      emitAll [.push (.string n), .deleteElement strict]
    | .element o k => do
      I.expr o
      I.expr k
      emit (.deleteElement strict)
    | .ident n => do
      let plain : C Unit := do
        match ← resolve n with
        | some _ => emit (.push (.bool false))
        | none => emit (.deleteGlobal n)
      throughWiths (← withs n) n (emitAll [.push (.string n), .deleteElement strict]) plain
    | .superMember _ | .superElement _ =>
      emit (.raise .reference "unsupported reference to 'super'")
    | .paren a => deleteParen strict a
    | .chain a => do
      let stop ← newLabel
      modifyFn fun f => { f with chains := stop :: f.chains }
      match a with
      | .member o n => do
        I.expr o
        emitAll [.push (.string n), .deleteElement strict]
      | .element o k => do
        I.expr o
        I.expr k
        emit (.deleteElement strict)
      | a => do
        I.expr a
        emitAll [.pop, .push (.bool true)]
      modifyFn fun f => { f with chains := f.chains.tail }
      place stop
    | a => do
      I.expr a
      emitAll [.pop, .push (.bool true)]
  /-- `delete` of something in parentheses. -/
  deleteParen (strict : Bool) (a : Expr) : C Unit := do
    match a with
    | .member o n => do
      I.expr o
      emitAll [.push (.string n), .deleteElement strict]
    | .element o k => do
      I.expr o
      I.expr k
      emit (.deleteElement strict)
    | a => do
      I.expr a
      emitAll [.pop, .push (.bool true)]
  /-- An assignment. -/
  assignRule (strict : Bool) (target : Target) (v : Expr) : C Unit := do
    match target with
    | .name n => do
      I.named n v
      emit .dup
      assignName n
    | .expr (.ident n) => do
      I.expr v
      emit .dup
      assignName n
    | .expr (.member o n) => do
      I.expr o
      I.expr v
      emit (.setField (Key.ofText n) strict)
    | .expr (.element o k) => do
      -- in a function the key may wait for a value that is at hand
      if isAtHand v && (← get).fns.length > 1 then
        I.expr o
        I.expr k
      else pushPlace I o k
      I.expr v
      emit (.setElement strict)
    | .expr (.privateMember o n) => do
      I.expr o
      I.expr v
      writePrivate n
    | .expr (.superMember n) => do
      pushThis
      pushImplicit .home
      emit (.push (.string n))
      I.expr v
      emit (.setSuper strict)
    | .expr (.superElement k) => do
      pushThis
      pushImplicit .home
      I.expr k
      I.expr v
      emit (.setSuper strict)
    | p => do
      I.expr v
      emit .dup
      I.target false p
  /-- `yield*`. -/
  yieldAllRule (a : Expr) : C Unit := do
    let f ← fn
    let isAsync := f.info.body == .asyncGenerator
    let reg ← newRegs3
    let mode ← newReg
    I.expr a
    emit (.iterStart reg isAsync)
    emitAll [.push .undefined, .push (.int 0)]
    let again ← here
    let ask ← newLabel
    let finished ← newLabel
    let returned ← newLabel
    let nothing ← newLabel
    -- stack: w k
    emitAll [.dup, .setReg mode, .delegate reg]
    -- stack: r e
    emitAll [.dup, .push (.int 2), .binary .strictEq, .jumpIfTrue nothing, .pop]
    if isAsync then emit .await
    emitAll [.dup, .checkResult]
    place ask
    emitAll [.dup, .getField (Key.str "done"), .jumpIfTrue finished]
    if isAsync then emit (.getField (Key.str "value"))
    emitAll [.yieldRaw, .jump again]
    place nothing
    emit .pop
    if isAsync then emit .await
    emitReturn
    place finished
    emitAll [.getField (Key.str "value"), .getReg mode, .push (.int 2), .binary .strictEq,
      .jumpIfTrue returned]
    let stop ← newLabel
    emit (.jump stop)
    place returned
    emitReturn
    place stop

/-- An expression that gives a function or class without a name the name of its place. -/
def namedRule (I : Inner) (name : Text) (e : Expr) : C Unit := do
  match e with
  | .func i _ _ =>
    if i.name.isEmpty then do
      let n ← I.func name true e
      emit (.closure n)
    else I.expr e
  | .cls n _ _ _ _ => if n.isEmpty then classRule I name e else I.expr e
  | .paren inner =>
    match inner with
    | .func i _ _ =>
      if i.name.isEmpty then do
        let n ← I.func name true inner
        emit (.closure n)
      else I.expr e
    | .cls n _ _ _ _ => if n.isEmpty then classRule I name inner else I.expr e
    | _ => I.expr e
  | e => I.expr e

end Compile

end ScriptHost
