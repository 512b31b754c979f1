import ScriptHost.Code.Instr
import ScriptHost.Script.Expression
/-!
# The state of the compiler

One record for each function that is being compiled, the innermost first: its code so far, the
blocks of declared names in reach, what it captured, and the statements that a jump would leave.
-/

namespace ScriptHost

namespace Compile

open Script

/-- A declared name. -/
structure VarInfo where
  name : Text
  slot : Nat
  kind : VarKind
deriving Inhabited

/-- A statement that jumps may leave or aim at. -/
inductive Frame where
  /-- A loop: its labels and where `break` and `continue` go. -/
  | loop (labels : List Text) (breakTo continueTo : Nat)
  /-- A loop over items, which are closed when it is left; a handler is active in its body. -/
  | items (labels : List Text) (breakTo continueTo : Nat) (reg : Nat) (async : Bool)
  /-- A labelled statement or a choice. -/
  | block (labels : List Text) (breakTo : Nat) (isSwitch : Bool)
  /-- The body of a statement with a handler. -/
  | guarded
  /-- The body of a statement with a finalizer: its number. -/
  | finalized (id : Nat)
  /-- Items of a pattern that are being taken; a handler is active. -/
  | taking (reg : Nat)
deriving Inhabited

/-- A finalizer: where it starts, the register that says where to go on, and the labels to go to. -/
structure Finalizer where
  label : Nat
  reg : Nat
  returns : Array Nat := #[]
deriving Inhabited

/-- A function that is being compiled. -/
structure FnState where
  info : FuncInfo := {}
  instrs : Array Instr := #[]
  labels : Array Nat := #[]
  slots : Nat := 0
  regs : Nat := 0
  /-- Blocks of declared names, the innermost first; the last belongs to the whole function. -/
  blocks : List (List VarInfo) := [[]]
  captures : Array (Text × VarRef × VarKind) := #[]
  children : Array FunctionCode := #[]
  frames : List Frame := []
  finalizers : Array Finalizer := #[]
  implicit : List (Implicit × Nat) := []
  evalScopes : Array EvalScope := #[]
  /-- The register of the value of a script, if its statements have one. -/
  completion : Option Nat := none
  /-- Ends of the chains with `?.` around the current expression. -/
  chains : List Nat := []
  /-- Whether this is the code of a script or module, and no function. -/
  isTop : Bool := false
  /-- Whether names declared here become globals. -/
  globalNames : Bool := false
  /-- Whether a script is run inside a function. -/
  insideFunction : Bool := false
  superCall : Bool := false
  superMember : Bool := false
  templates : Nat := 0
  pendingLabels : List Text := []
  sharedParams : Option (List Nat) := none
deriving Inhabited

/-- The compiler: the functions around the current place, with what is common to all. -/
structure State where
  fns : List FnState := []
  file : String := ""
deriving Inhabited

/-- Compilers; a failure is a message. -/
abbrev C := StateT State (Except String)

/-- The innermost function. -/
def fn : C FnState := do pure ((← get).fns.headD default)

/-- Changes the innermost function. -/
def modifyFn (f : FnState → FnState) : C Unit :=
  modify fun s =>
    match s.fns with
    | x :: xs => { s with fns := f x :: xs }
    | [] => s

/-- Adds an instruction. -/
def emit (i : Instr) : C Unit := modifyFn fun f => { f with instrs := f.instrs.push i }

/-- Adds instructions. -/
def emitAll (is : List Instr) : C Unit := is.forM emit

/-- A new label, to be placed later. -/
def newLabel : C Nat := do
  let n := (← fn).labels.size
  modifyFn fun f => { f with labels := f.labels.push 0 }
  pure n

/-- Places a label here. -/
def place (l : Nat) : C Unit := modifyFn fun f => { f with labels := f.labels.set! l f.instrs.size }

/-- A label placed here. -/
def here : C Nat := do
  let l ← newLabel
  place l
  pure l

/-- A new register. -/
def newReg : C Nat := do
  let n := (← fn).regs
  modifyFn fun f => { f with regs := n + 1 }
  pure n

/-- Three registers in a row. -/
def newRegs3 : C Nat := do
  let n := (← fn).regs
  modifyFn fun f => { f with regs := n + 3 }
  pure n

/-- A new slot. -/
def newSlot : C Nat := do
  let n := (← fn).slots
  modifyFn fun f => { f with slots := n + 1 }
  pure n

/-- Whether strict rules hold. -/
def isStrict : C Bool := do pure (← fn).info.strict

/-! ## Names -/

/-- Opens a block of declared names; they get new cells. -/
def openBlock (names : List (Text × VarKind)) : C (List Nat) := do
  let vars ← names.mapM fun (n, k) => do
    let s ← newSlot
    pure (VarInfo.mk n s k)
  modifyFn fun f => { f with blocks := vars :: f.blocks }
  let slots := vars.map (·.slot)
  if !slots.isEmpty then emit (.fresh slots)
  pure slots

/-- Closes the innermost block. -/
def closeBlock : C Unit := modifyFn fun f => { f with blocks := f.blocks.tail }

/-- Declares a name in the block of the whole function. -/
def declareOuter (name : Text) (kind : VarKind) : C Nat := do
  let s ← newSlot
  modifyFn fun f =>
    match f.blocks.reverse with
    | last :: rest => { f with blocks := ((⟨name, s, kind⟩ :: last) :: rest).reverse }
    | [] => { f with blocks := [[⟨name, s, kind⟩]] }
  pure s

/-- The names under which a function finds what it may refer to without declaring it. -/
def implicitName : Implicit → Text
  | .this => txt "%this"
  | .newTarget => txt "%new.target"
  | .arguments => txt "arguments"
  | .home => txt "%home"
  | .callee => txt "%callee"

/-- What a name refers to without being declared, if anything. -/
def implicitOf? (name : Text) : Option Implicit :=
  [Implicit.this, .newTarget, .arguments, .home, .callee].find? fun i => implicitName i == name

/-- A name among blocks. -/
def findVar (name : Text) (blocks : List (List VarInfo)) : Option VarInfo :=
  blocks.findSome? fun vars => vars.find? (·.name == name)

/-- Whether a function has an implicit name of its own. -/
def ownsImplicit (f : FnState) (i : Implicit) : Bool :=
  f.info.role != .arrow &&
    (if f.isTop then i == .this && f.captures.isEmpty
      else i != .arguments || f.info.role != .initializer)

/-- Finds a name in the functions around, adding captures on the way. -/
def resolveIn (name : Text) : List FnState → List FnState × Option (VarRef × VarKind)
  | [] => ([], none)
  | f :: rest =>
    match findVar name f.blocks with
    | some v => (f :: rest, some (.slot v.slot, v.kind))
    | none =>
      match f.captures.findIdx? (·.1 == name) with
      | some i => (f :: rest, some (.captured i, (f.captures[i]?.map (·.2.2)).getD .var))
      | none =>
        -- Such a name gets its place in the outermost block when it is first asked for.
        let own := match implicitOf? name with
          | some i => if ownsImplicit f i then some i else none
          | none => none
        match own with
        | some i =>
          let v : VarInfo := ⟨name, f.slots, .var⟩
          let blocks := match f.blocks.reverse with
            | last :: more => ((v :: last) :: more).reverse
            | [] => [[v]]
          ({ f with
            slots := f.slots + 1, blocks := blocks,
            implicit := (i, f.slots) :: f.implicit } :: rest, some (.slot f.slots, .var))
        | none =>
          match resolveIn name rest with
          | (rest', some (ref, kind)) =>
            ({ f with captures := f.captures.push (name, ref, kind) } :: rest',
              some (.captured f.captures.size, kind))
          | (rest', none) => (f :: rest', none)

/-- Finds a name. -/
def resolve (name : Text) : C (Option (VarRef × VarKind)) := do
  let s ← get
  let (fns, r) := resolveIn name s.fns
  set { s with fns := fns }
  pure r

/-- The mark that starts the hidden names of objects whose members count as names: those of `with`
statements, and those that hold what `eval` declares in a function. -/
def withMark : Text := txt "%with"

/-- Whether a hidden name is one of an object whose members count as names. -/
def isWithName (n : Text) : Bool := n.matchesAt withMark 0

/-- The names that can be seen from inside functions, block by block, innermost first.  The
captures of a script are what surrounds it. -/
def visibleBlocks (fns : List FnState) : List (List Text) :=
  fns.flatMap fun f =>
    f.blocks.map (·.map (·.name)) ++
      (if f.isTop then f.captures.toList.map (fun (n, _) => [n]) else [])

/-- The objects whose members count as names between here and the declaration of a name, innermost
first. -/
def withsBefore (name : Text) (fns : List FnState) : List Text :=
  (((visibleBlocks fns).takeWhile (!·.contains name)).flatten).filter isWithName

/-- The objects that a name is looked up in first. -/
def withs (name : Text) : C (List Text) := do pure (withsBefore name (← get).fns)

/-- A hidden name for one more object whose members count as names. -/
def newWithName : C Text := do
  let used := ((visibleBlocks (← get).fns).flatten).filter isWithName
  pure (withMark ++ txt (toString used.length))

/-! ## Reading and writing names -/

/-- Pushes something a function may refer to without declaring it. -/
def pushImplicit (i : Implicit) : C Unit := do
  match ← resolve (implicitName i) with
  | some (ref, _) => emit (.getVar ref (match i with
    | .this => txt "this"
    | _ => implicitName i))
  | none => emit (.push .undefined)

/-- Pushes `this`. -/
def pushThis : C Unit := do
  let f ← fn
  if f.info.role == .arrow || f.info.role == .derivedConstructor ||
    (f.isTop && !f.captures.isEmpty) then
    pushImplicit .this
  else emit .this

/-- Tries objects whose members count as names before going on. -/
def throughWiths (names : List Text) (name : Text) (found : C Unit) (otherwise : C Unit) : C Unit :=
  match names with
  | [] => otherwise
  | w :: ws => do
    let stop ← newLabel
    let miss ← newLabel
    match ← resolve w with
    | some (ref, _) =>
      emitAll [.getVar ref w, .withHas name, .jumpIfFalse miss, .getVar ref w]
      found
      emit (.jump stop)
    | none => pure ()
    place miss
    throughWiths ws name found otherwise
    place stop

/-- Pushes the value of a name; `soft` makes an unknown name undefined. -/
def pushName (name : Text) (soft : Bool) : C Unit := do
  let plain : C Unit := do
    match ← resolve name with
    | some (ref, _) => emit (.getVar ref name)
    | none => emit (if soft then .getGlobalOrUndefined name else .getGlobal name)
  throughWiths (← withs name) name (emit (.getField (Key.ofText name))) plain

/-- Pops a value into a name that is assigned. -/
def assignName (name : Text) : C Unit := do
  let strict ← isStrict
  let plain : C Unit := do
    match ← resolve name with
    | some (ref, kind) =>
      match kind with
      | .const => emitAll [.getVar ref name, .pop, .constError name]
      | .selfName => if strict then emit (.constError name) else emit .pop
      | _ => emit (.setVar ref name)
    | none => emit (.setGlobal name strict)
  throughWiths (← withs name) name
    (emitAll [.swap, .setField (Key.ofText name) strict, .pop]) plain

/-- Pops a value into a name that is declared here. -/
def initName (name : Text) : C Unit := do
  let f ← fn
  match findVar name f.blocks with
  | some v => emit (.initVar (.slot v.slot))
  | none =>
    if f.globalNames then emit (.initGlobal name)
    else assignName name

/-! ## Leaving statements -/

/-- Goes through a finalizer and comes back. -/
def callFinalizer (id : Nat) : C Unit := do
  let f ← fn
  match f.finalizers[id]? with
  | some fin => do
    let back ← newLabel
    emitAll [.push (Value.ofNat fin.returns.size), .setReg fin.reg, .jump fin.label]
    modifyFn fun f =>
      { f with finalizers := f.finalizers.set! id { fin with returns := fin.returns.push back } }
    place back
  | none => pure ()

/-- Closes the items of a loop that is left. -/
def closeItems (reg : Nat) (async : Bool) : C Unit := do
  if async then
    let skip ← newLabel
    let stop ← newLabel
    emitAll [.iterCloseAsync reg, .jumpIfFalse skip, .await, .checkResult, .jump stop]
    place skip
    emit .pop
    place stop
  else emit (.iterClose reg)

/-- Leaves one statement. -/
def leave : Frame → C Unit
  | .loop _ _ _ => pure ()
  | .items _ _ _ reg async => do
    emit .leaveTry
    closeItems reg async
  | .block _ _ _ => pure ()
  | .guarded => emit .leaveTry
  | .finalized id => do
    emit .leaveTry
    callFinalizer id
  | .taking reg => do
    emit .leaveTry
    emit (.iterClose reg)

/-- Leaves statements from the innermost on, while each one's own frames are out of reach. -/
def leaveAll : List Frame → C Unit
  | [] => pure ()
  | f :: fs => do
    let saved := (← fn).frames
    modifyFn fun s => { s with frames := fs }
    leave f
    leaveAll fs
    modifyFn fun s => { s with frames := saved }

/-- Ends the function with the value on the stack. -/
def emitReturn : C Unit := do
  let f ← fn
  if f.info.body == .asyncGenerator then emit .await
  if f.info.role == .derivedConstructor then
    let l ← newLabel
    emitAll [.checkReturn, .jumpIfDefined l, .pop]
    pushImplicit .this
    place l
  let crosses := f.frames.any fun
    | .loop _ _ _ | .block _ _ _ => false
    | _ => true
  if crosses then
    let r ← newReg
    emit (.setReg r)
    leaveAll f.frames
    emit (.getReg r)
  emit .ret

/-- Whether a jump with a label, or without one, aims at a statement. -/
def aimsAt (label : Option Text) (isContinue : Bool) : Frame → Bool
  | .loop labels _ _ | .items labels _ _ _ _ =>
    match label with
    | some l => labels.contains l
    | none => true
  | .block labels _ isSwitch =>
    !isContinue && (match label with
      | some l => labels.contains l
      | none => isSwitch)
  | _ => false

/-- Jumps out of statements. -/
def emitJump (label : Option Text) (isContinue : Bool) : C Unit := do
  let frames := (← fn).frames
  let crossed := frames.takeWhile fun f => !aimsAt label isContinue f
  -- What is left on the way may run code of its own, such as that of `finally`.
  leaveAll' crossed frames
  match frames.dropWhile fun f => !aimsAt label isContinue f with
  | .loop _ b c :: _ => emit (.jump (if isContinue then c else b))
  | .items _ b c reg async :: rest =>
    if isContinue then emitAll [.leaveTry, .jump c]
    else do
      modifyFn fun s => { s with frames := rest }
      leave (.items [] b c reg async)
      modifyFn fun s => { s with frames := frames }
      emit (.jump b)
  | .block _ b _ :: _ => emit (.jump b)
  | _ => throw "break/continue label not found"
where
  /-- Leaves the first statements of a list. -/
  leaveAll' : List Frame → List Frame → C Unit
    | [], _ => pure ()
    | f :: fs, all => do
      modifyFn fun s => { s with frames := all.tail }
      leave f
      leaveAll' fs all.tail
      modifyFn fun s => { s with frames := all }

/-- Runs a compiler inside a statement. -/
def inFrame {α : Type} (f : Frame) (c : C α) : C α := do
  modifyFn fun s => { s with frames := f :: s.frames }
  let a ← c
  modifyFn fun s => { s with frames := s.frames.tail }
  pure a

/-- The code of a function that was compiled. -/
def FnState.code (f : FnState) (file : String) (length : Nat) : FunctionCode :=
  { name := f.info.name, body := f.info.body, role := f.info.role, strict := f.info.strict
    length := length, source := f.info.source, file := file, place := f.info.place
    instrs := f.instrs, labels := f.labels, slots := f.slots, regs := f.regs, children := f.children
    captures := f.captures.map (·.2.1), implicit := f.implicit, sharedParams := f.sharedParams
    evalScopes := f.evalScopes, isTop := f.isTop }

/-- Compiles an inner function and adds it to the children of the current one. -/
def withFunction (start : FnState) (length : Nat) (c : C Unit) : C Nat := do
  modify fun s => { s with fns := start :: s.fns }
  c
  let s ← get
  match s.fns with
  | inner :: outer :: rest =>
    let n := outer.children.size
    set { s with
      fns := { outer with children := outer.children.push (inner.code s.file length) } :: rest }
    pure n
  | _ => pure 0

end Compile

end ScriptHost
