import ScriptHost.Engine.Source
/-!
# Instructions

What each instruction does to an activation and to the machine.
-/

namespace ScriptHost

/-- How an instruction ended. -/
inductive Step where
  | next (f : Frame)
  /-- The function is over. -/
  | done (v : Value)
  /-- Something was thrown, with the activation as it is then. -/
  | raise (v : Value) (f : Frame)
  | yield (v : Value) (f : Frame)
  | await (v : Value) (f : Frame)
deriving Inhabited

namespace Frame

/-- With a value on the operand stack. -/
def push (f : Frame) (v : Value) : Frame := { f with stack := v :: f.stack }

/-- With other operands. -/
def withStack (f : Frame) (s : List Value) : Frame := { f with stack := s }

/-- Goes to a label. -/
def goto (f : Frame) (label : Nat) : Frame :=
  { f with pc := f.code.labels[label]?.getD f.code.instrs.size }

/-- A register. -/
def reg (f : Frame) (r : Nat) : Value := f.regs[r]?.getD .undefined

/-- With another value in a register. -/
def withReg (f : Frame) (r : Nat) (v : Value) : Frame := { f with regs := f.regs.setIfInBounds r v }

/-- The cell of a variable. -/
def cellOf (f : Frame) : VarRef → Nat
  | .slot i => f.cells[i]?.getD 0
  | .captured i => f.captured[i]?.getD 0

/-- The cells that an inner function captures. -/
def capture (f : Frame) (code : FunctionCode) : Array Nat := code.captures.map f.cellOf

/-- The items that registers hold. -/
def items (f : Frame) (r : Nat) : Eval.Items := ⟨f.reg r, f.reg (r + 1)⟩

/-- Whether the items that registers hold are used up. -/
def exhausted (f : Frame) (r : Nat) : Bool := f.reg (r + 2) == .bool true

/-- Marks the items that registers hold as used up. -/
def exhaust (f : Frame) (r : Nat) : Frame := f.withReg (r + 2) (.bool true)

end Frame

namespace Eval

/-! ## Names of scripts -/

/-- Throws that a name has no value yet. -/
def notInitialized {α : Type} (name : Text) : Eval α :=
  throwText .reference (name ++ txt " is not initialized")

/-- Throws that a name is unknown. -/
def notDefined {α : Type} (name : Text) : Eval α :=
  throwText .reference (name ++ txt " is not defined")

/-- Throws that a name cannot be written. -/
def constWritten {α : Type} (name : Text) : Eval α :=
  throwText .type (txt "'" ++ name ++ txt "' is read-only")

/-- The value of a variable. -/
def readCell (id : Nat) (name : Text) : Eval Value := do
  match ← getCell id with
  | .uninitialized => notInitialized name
  | v => pure v

/-- A name declared by scripts. -/
def scriptName? (name : Text) : Eval (Option ScriptName) := do
  pure ((← get).currentRealm.names.find? (·.name == name))

/-- The value of a global name; unknown names are undefined if `soft`. -/
def readGlobal (name : Text) (soft : Bool) : Eval Value := do
  match ← scriptName? name with
  | some s => readCell s.cell name
  | none => do
    let g := (← get).currentRealm.global
    let k := Key.ofText name
    match (← get).find k (some g) with
    | .absent => if soft then pure .undefined else notDefined name
    | .property _ p =>
      match p.content with
      | .data v _ => pure v
      | _ => getProp g k
    | .proxy _ => do
      if ← hasProperty g k then getProp g k
      else if soft then pure .undefined
      else notDefined name

/-- Assigns to a global name. -/
def writeGlobal (name : Text) (strict : Bool) (v : Value) : Eval Unit := do
  match ← scriptName? name with
  | some s => do
    let _ ← readCell s.cell name
    if s.isConst then constWritten name
    setCell s.cell v
  | none => do
    let g := (← get).currentRealm.global
    let k := Key.ofText name
    if strict then
      if !(← hasProperty g k) then notDefined name
    let r ← setFor g k v (.object g)
    if strict then orThrow r

/-- Declares the names of a script. -/
def declareNames (functions vars : List Text) (lexicals : List (Text × Bool)) (deletable : Bool) :
    Eval Unit := do
  let redeclared {α : Type} (n : Text) : Eval α :=
    throwText .syntactic (txt "redeclaration of '" ++ n ++ txt "'")
  let r := (← get).currentRealm
  let declared := r.names.toList.map (·.name)
  for (n, _) in lexicals do
    if declared.contains n then redeclared n
    match (← get).own? r.global (Key.ofText n) with
    | some p => if !p.configurable then redeclared n
    | none => pure ()
  for n in functions ++ vars do
    if declared.contains n then redeclared n
  for n in functions do
    match (← get).own? r.global (Key.ofText n) with
    | some p =>
      if !p.configurable then
        let ok := match p.content with
          | .data _ w => w && p.enumerable
          | _ => false
        if !ok then throwText .type (txt "cannot define variable '" ++ n ++ txt "'")
    | none => pure ()
  for n in vars do
    let k := Key.ofText n
    if ((← get).own? r.global k).isNone then
      if !((← get).obj r.global).extensible then
        throwText .type (txt "cannot define variable '" ++ n ++ txt "'")
      Mem.putProperty r.global k ⟨.data .undefined true, true, deletable⟩
  for (n, isConst) in lexicals do
    let c ← Mem.newCell .uninitialized
    modify fun m =>
      { m with realms := m.realms.modify m.realm fun r =>
        { r with names := r.names.push ⟨n, c, isConst⟩ } }

/-- Defines a global function. -/
def defineFunction (name : Text) (deletable : Bool) (f : Value) : Eval Unit := do
  let g := (← get).currentRealm.global
  let k := Key.ofText name
  let d : Descriptor := match (← get).own? g k with
    | some p =>
      if p.configurable then
        { value := some f, writable := some true, enumerable := some true,
          configurable := some deletable }
      else { value := some f }
    | none =>
      { value := some f, writable := some true, enumerable := some true,
        configurable := some deletable }
  orThrow (← define g k d)

/-! ## Members -/

/-- The own private member of an object. -/
def privateMember (o : Value) (s : Nat) : Eval (Nat × Property) := do
  let m ← get
  match o with
  | .object id =>
    match (m.obj id).props.get? (.symbol s) with
    | some p => pure (id, p)
    | none => missing m
  | _ => typeError "not an object"
where
  /-- There is none. -/
  missing (m : Machine) : Eval (Nat × Property) :=
    throwText .type (txt "private class field '" ++ (m.symbolInfo s).description.getD Text.empty ++
      txt "' does not exist")

/-- The number of a symbol. -/
def symbolOf : Value → Nat
  | .symbol s => s
  | _ => 0

/-- Puts a private member on an object. -/
def addPrivate (o : Value) (s : Nat) (v : Value) : Eval Unit := do
  match o with
  | .object id => do
    let m ← get
    if ((m.obj id).props.get? (.symbol s)).isSome then
      throwText .type (txt "private class field '" ++
        (m.symbolInfo s).description.getD Text.empty ++ txt "' already exists")
    Mem.putProperty id (.symbol s) (.plain v)
  | _ => typeError "not an object"

/-- Makes an object the home of a function. -/
def setHome (home f : Value) : Eval Unit := do
  match f, home with
  | .object id, .object h => do
    match ← body id with
    | .closure c => setBody id (.closure { c with home := some h })
    | _ => pure ()
  | _, _ => pure ()

/-- The object in whose prototype `super` looks. -/
def superBase (home : Value) : Eval (Option Nat) := do
  match home with
  | .object h => protoOf h
  | _ => typeError "not an object"

/-- Puts a function on an object as a member. -/
def defineMember (o : Value) (k : Key) (f : Value) (kind : DefineKind) (enumerable : Bool) :
    Eval Unit := do
  setHome o f
  match o, f with
  | .object id, .object fid =>
    let d : Descriptor := match kind with
      | .method => { value := some f, writable := some true }
      | .getter => { getter := some (some fid) }
      | .setter => { setter := some (some fid) }
    orThrow (← define id k { d with enumerable := some enumerable, configurable := some true })
  | _, _ => pure ()

/-- Copies the enumerable own properties of a value but those named. -/
def copyProperties (target : Nat) (source : Value) (leave : List Key) : Eval Unit := do
  if source.isNullish then pure ()
  else
    let s ← toObject source
    for k in ← selectKeys s true true false false do
      if !leave.contains k then
        match ← ownProperty s k with
        | some p => if p.enumerable then createProp target k (← getFor s k source)
        | none => pure ()

/-- Adds a value at the end of an array. -/
def appendItem (a : Value) (v : Option Value) : Eval Unit := do
  match a with
  | .object id => do
    let n := arrayLength (← get) id
    match v with
    | some v => Mem.putProperty id (Key.ofNat n) (.plain v)
    | none => pure ()
    storeLength id (n + 1) true
  | _ => pure ()

/-! ## Classes -/

/-- A class from the code of its constructor: the constructor and its prototype. -/
def makeClass (code : FunctionCode) (captured : Array Nat) (heritage : Option Value) :
    Eval (Nat × Nat) := do
  let (protoParent, ctorParent) ← match heritage with
    | none => do pure (← intrinsic .objectPrototype, ← intrinsic .functionPrototype)
    | some .null => do pure (none, ← intrinsic .functionPrototype)
    | some h => do
      if !(← get).constructs h then typeError "parent class must be constructor"
      match ← getField h "prototype" with
      | .object p => pure (some p, h.objectId?)
      | .null => pure (none, h.objectId?)
      | _ => typeError "parent prototype must be an object or null"
  let proto ← allocWith .ordinary protoParent
  let realm := (← get).realm
  let ctor ← newClosureWith { code := code, captured := captured, realm := realm,
                              home := some proto } ctorParent
  Mem.putProperty ctor (Key.str "prototype") (.frozen (.object proto))
  Mem.putHidden proto "constructor" (.object ctor)
  pure (ctor, proto)

/-- Runs what puts the fields of a class on an object. -/
def initFields (ctor o : Value) : Eval Unit := do
  match ctor with
  | .object id => do
    match ← body id with
    | .closure c =>
      match c.initializer with
      | some f => do
        let _ ← call (.object f) o #[]
      | none => pure ()
    | _ => pure ()
  | _ => pure ()

/-! ## Names of objects -/

/-- The names that an enumeration gives, nearest object first, each once. -/
def namesOf (fuel : Nat) (start : Option Nat) (seen : List Key) : Eval (List Key) := do
  match fuel, start with
  | 0, _ => pure []
  | _ + 1, none => pure []
  | fuel + 1, some id => do
    let own ← selectKeys id true false false false
    let mut out := #[]
    let mut seen := seen
    for k in own do
      if !seen.contains k then
        match ← ownProperty id k with
        | some p =>
          seen := k :: seen
          if p.enumerable then out := out.push k
        | none => pure ()
    let rest ← namesOf fuel (← protoOf id) seen
    pure (out.toList ++ rest)

/-- The next name that is still there. -/
def nextName (target : Nat) : List Key → Eval (Option (Key × List Key))
  | [] => pure none
  | k :: ks => do if ← hasProperty target k then pure (some (k, ks)) else nextName target ks

/-! ## Items in registers -/

/-- Runs a computation on items; they count as used up while it runs, and stay so if it
throws. -/
def guarding (f : Frame) (r : Nat) (x : Eval (Step)) : Eval Step := do
  try x
  catch e => pure (.raise e (f.exhaust r))

/-- The object that a member of `with` may come from. -/
def withHas (o : Value) (name : Text) : Eval Bool := do
  let id ← toObject o
  let k := Key.ofText name
  if !(← hasProperty id k) then pure false
  else
    match ← getProp id (.symbol WellKnown.unscopables) with
    | .object u => do pure (!(truthy (← getProp u k)))
    | _ => pure true

/-- The object that a template hands to its function. -/
def templateObject (cooked : List (Option Text)) (raw : List Text) : Eval Value := do
  let freeze (id : Nat) : Eval Unit :=
    modify fun m => m.update id fun o =>
      { o with
        extensible := false
        props :=
          { indices := o.props.indices.map fun _ p =>
            ⟨.data (p.value?.getD .undefined) false, true, false⟩
            members := o.props.members.map fun (k, p) =>
              (k, ⟨.data (p.value?.getD .undefined) false, p.enumerable, false⟩) } }
  let cookedArray ← newArray (cooked.toArray.map fun
    | some t => .string t
    | none => .undefined)
  let rawArray ← newArray (raw.toArray.map .string)
  match cookedArray, rawArray with
  | .object c, .object r => do
    freeze r
    Mem.putHidden c "raw" rawArray
    freeze c
    pure cookedArray
  | _, _ => pure .undefined

/-! ## Instructions -/

/-- Instructions on operands, variables and members. -/
def stepPlain (f : Frame) (i : Instr) : Eval Step := do
  match i, f.stack with
  | .push v, s => pure (.next (f.withStack (v :: s)))
  | .pop, _ :: s => pure (.next (f.withStack s))
  | .dup, a :: s => pure (.next (f.withStack (a :: a :: s)))
  | .dup2, b :: a :: s => pure (.next (f.withStack (b :: a :: b :: a :: s)))
  | .swap, b :: a :: s => pure (.next (f.withStack (a :: b :: s)))
  | .sink n, a :: s => pure (.next (f.withStack (s.take n ++ a :: s.drop n)))
  | .lift n, s =>
    match s.drop n with
    | a :: rest => pure (.next (f.withStack (a :: s.take n ++ rest)))
    | [] => pure (.next f)
  | .mark p, _ => do
    modify fun m =>
      match m.calls with
      | c :: cs => { m with calls := { c with place := p } :: cs }
      | [] => m
    pure (.next { f with place := p })
  | .getReg r, s => pure (.next (f.withStack (f.reg r :: s)))
  | .setReg r, a :: s => pure (.next ((f.withStack s).withReg r a))
  | .fresh slots, _ => do
    let mut cells := f.cells
    for i in slots do
      cells := cells.setIfInBounds i (← Mem.newCell .uninitialized)
    pure (.next { f with cells := cells })
  | .renew slots, _ => do
    let mut cells := f.cells
    for i in slots do
      let old ← getCell (cells[i]?.getD 0)
      cells := cells.setIfInBounds i (← Mem.newCell old)
    pure (.next { f with cells := cells })
  | .getVar v name, s => do
    let x ← readCell (f.cellOf v) name
    pure (.next (f.withStack (x :: s)))
  | .setVar v name, a :: s => do
    let c := f.cellOf v
    let _ ← readCell c name
    setCell c a
    pure (.next (f.withStack s))
  | .initVar v, a :: s => do
    setCell (f.cellOf v) a
    pure (.next (f.withStack s))
  | .constError name, _ => constWritten name
  | .getGlobal name, s => do
    let x ← readGlobal name false
    pure (.next (f.withStack (x :: s)))
  | .getGlobalOrUndefined name, s => do
    let x ← readGlobal name true
    pure (.next (f.withStack (x :: s)))
  | .setGlobal name strict, a :: s => do
    writeGlobal name strict a
    pure (.next (f.withStack s))
  | .deleteGlobal name, s => do
    let g := (← get).currentRealm.global
    let r ← match ← scriptName? name with
      | some _ => pure false
      | none => do pure ((← delete g (Key.ofText name)) == .done)
    pure (.next (f.withStack (.bool r :: s)))
  | .initGlobal name, a :: s => do
    match ← scriptName? name with
    | some n => setCell n.cell a
    | none => writeGlobal name false a
    pure (.next (f.withStack s))
  | .declareGlobals fs vs ls deletable, _ => do
    declareNames fs vs ls deletable
    pure (.next f)
  | .defineGlobalFunction name deletable, a :: s => do
    defineFunction name deletable a
    pure (.next (f.withStack s))
  | .arg i, s => pure (.next (f.withStack (f.args[i]?.getD .undefined :: s)))
  | .restArgs n, s => do
    let a ← newArray (f.args.extract n f.args.size)
    pure (.next (f.withStack (a :: s)))
  | .this, s => pure (.next (f.withStack (f.this :: s)))
  | .newTarget, s => pure (.next (f.withStack (f.newTarget :: s)))
  | .callee, s => pure (.next (f.withStack (f.callee :: s)))
  | .bindThis v, a :: s => do
    let c := f.cellOf v
    match ← getCell c with
    | .uninitialized => do
      setCell c a
      pure (.next (f.withStack s))
    | _ => raise .reference "'this' can be initialized only once"
  | .getField k, o :: s => do
    let x ← getOf o k
    pure (.next (f.withStack (x :: s)))
  | .getElement, k :: o :: s => do
    if o.isNullish then
      let _ ← getOf o (← toKey k)
    let x ← getOf o (← toKey k)
    pure (.next (f.withStack (x :: s)))
  | .setField k strict, v :: o :: s => do
    let r ← setOf o k v
    if strict then orThrow r
    pure (.next (f.withStack (v :: s)))
  | .setElement strict, v :: k :: o :: s => do
    let k ← toKey k
    let r ← setOf o k v
    if strict then orThrow r
    pure (.next (f.withStack (v :: s)))
  | .deleteElement strict, k :: o :: s => do
    let id ← toObject o
    let k ← toKey k
    let r ← delete id k
    if strict then orThrow r
    pure (.next (f.withStack (.bool (r == .done) :: s)))
  | .getSuper, k :: home :: this :: s => do
    let k ← toKey k
    let x ← match ← superBase home with
      | some b => getFor b k this
      | none => getOf .null k
    pure (.next (f.withStack (x :: s)))
  | .setSuper strict, v :: k :: home :: this :: s => do
    let k ← toKey k
    match ← superBase home with
    | some b => do
      let r ← setFor b k v this
      if strict then orThrow r
    | none => do
      let _ ← setOf .null k v
    pure (.next (f.withStack (v :: s)))
  | .getPrivate, x :: o :: s => do
    let (_, p) ← privateMember o (symbolOf x)
    pure (.next (f.withStack (p.value?.getD .undefined :: s)))
  | .setPrivate, v :: x :: o :: s => do
    let (id, p) ← privateMember o (symbolOf x)
    Mem.putProperty id (.symbol (symbolOf x)) { p with content := .data v true }
    pure (.next (f.withStack (v :: s)))
  | .definePrivate, v :: x :: o :: s => do
    addPrivate o (symbolOf x) v
    pure (.next (f.withStack (o :: s)))
  | .hasPrivate, x :: o :: s => do
    match o with
    | .object id => do
      let b := (((← get).obj id).props.get? (.symbol (symbolOf x))).isSome
      pure (.next (f.withStack (.bool b :: s)))
    | _ => typeError "invalid 'in' operand"
  | .checkBrand, x :: o :: s => do
    match o with
    | .object id => do
      if (((← get).obj id).props.get? (.symbol (symbolOf x))).isNone then
        typeError "invalid brand on object"
      pure (.next (f.withStack (o :: s)))
    | _ => typeError "not an object"
  | .newPrivate name, s => do
    let id ← Mem.newSymbol { description := some name, isPrivate := true }
    pure (.next (f.withStack (.symbol id :: s)))
  | .toKey, v :: s => do
    let k ← toKey v
    pure (.next (f.withStack (k.toValue :: s)))
  | .toKeyOf, v :: o :: s => do
    if o.isNullish then typeError "value has no property"
    let k ← toKey v
    pure (.next (f.withStack (k.toValue :: o :: s)))
  | .toNumeric, v :: s => do
    let x ← toNumeric v
    pure (.next (f.withStack (x :: s)))
  | .toText, v :: s => do
    let t ← toText v
    pure (.next (f.withStack (.string t :: s)))
  | .checkObject, v :: _ => do
    if v.isNullish then typeError "Cannot convert undefined or null to object"
    pure (.next f)
  | .unary op, a :: s => do
    let x ← unary op a
    pure (.next (f.withStack (x :: s)))
  | .binary op, b :: a :: s => do
    let x ← binary op a b
    pure (.next (f.withStack (x :: s)))
  | .increment, a :: s => do
    let x ← step true a
    pure (.next (f.withStack (x :: s)))
  | .decrement, a :: s => do
    let x ← step false a
    pure (.next (f.withStack (x :: s)))
  | _, _ => pure (.next f)

/-- Instructions that make objects, functions and classes. -/
def stepObject (f : Frame) (i : Instr) : Eval Step := do
  match i, f.stack with
  | .newObject, s => do
    let id ← newObject
    pure (.next (f.withStack (.object id :: s)))
  | .newArray, s => do
    let a ← newArray #[]
    pure (.next (f.withStack (a :: s)))
  | .append, v :: a :: s => do
    appendItem a (some v)
    pure (.next (f.withStack (a :: s)))
  | .appendHole, a :: _ => do
    appendItem a none
    pure (.next f)
  | .appendAll, v :: a :: s => do
    eachItem (← openItems v) fun _ x => appendItem a (some x)
    pure (.next (f.withStack (a :: s)))
  | .defineField k, v :: o :: s => do
    match o with
    | .object id => createProp id k v
    | _ => pure ()
    pure (.next (f.withStack (o :: s)))
  | .defineElement, v :: k :: o :: s => do
    match o with
    | .object id => createProp id (← toKey k) v
    | _ => pure ()
    pure (.next (f.withStack (o :: s)))
  | .defineMember kind enumerable, m :: k :: o :: s => do
    defineMember o (← toKey k) m kind enumerable
    pure (.next (f.withStack (o :: s)))
  | .setProto, v :: o :: s => do
    match o, v with
    | .object id, .object p => do
      let _ ← setProto id (some p)
    | .object id, .null => do
      let _ ← setProto id none
    | _, _ => pure ()
    pure (.next (f.withStack (o :: s)))
  | .copyAll, v :: o :: s => do
    match o with
    | .object id => copyProperties id v []
    | _ => pure ()
    pure (.next (f.withStack (o :: s)))
  | .copyRest n, s => do
    let keys ← (s.take n).mapM toKey
    match s.drop n with
    | v :: rest => do
      let id ← newObject
      copyProperties id v keys
      pure (.next (f.withStack (.object id :: rest)))
    | [] => pure (.next f)
  | .closure child, s =>
    match f.code.children[child]? with
    | some code => do
      let realm := (← get).realm
      let id ← newClosure { code := code, captured := f.capture code, realm := realm }
      pure (.next (f.withStack (.object id :: s)))
    | none => pure (.next (f.withStack (.undefined :: s)))
  | .nameAs name, g :: _ => do
    nameFunction g name
    pure (.next f)
  | .nameByKey, g :: k :: _ => do
    let key ← toKey k
    nameFunction g (nameOfKey (← get) key)
    pure (.next f)
  | .parentOf, g :: s => do
    match g with
    | .object id => do
      let p : Value := match ← protoOf id with
        | some p => .object p
        | none => .null
      if !(← get).constructs p then typeError "parent class must be constructor"
      pure (.next (f.withStack (p :: s)))
    | _ => typeError "not an object"
  | .initFields, o :: g :: s => do
    initFields g o
    pure (.next (f.withStack (o :: s)))
  | .templateObject cooked raw _, s => do
    let t ← templateObject cooked raw
    pure (.next (f.withStack (t :: s)))
  | .regexp b pattern, s => do
    let id ← allocRegexp b pattern (← intrinsic .regexpPrototype)
    pure (.next (f.withStack (.object id :: s)))
  | .makeClass child _ hasHeritage, s =>
    match f.code.children[child]? with
    | some code => do
      let (heritage, s) := match hasHeritage, s with
        | true, h :: s => (some h, s)
        | _, s => (none, s)
      let (c, p) ← makeClass code (f.capture code) heritage
      pure (.next (f.withStack (.object p :: .object c :: s)))
    | none => pure (.next f)
  | .setInitializer, g :: p :: c :: s => do
    match c, g with
    | .object id, .object gid => do
      match ← body id with
      | .closure cl => setBody id (.closure { cl with initializer := some gid })
      | _ => pure ()
    | _, _ => pure ()
    pure (.next (f.withStack (p :: c :: s)))
  | .runStatic, g :: c :: s => do
    setHome c g
    let _ ← call g c #[]
    pure (.next (f.withStack (c :: s)))
  | .setHome, g :: p :: _ => do
    setHome p g
    pure (.next f)
  | .importMeta, s => do
    let id ← allocWith .ordinary none
    pure (.next (f.withStack (.object id :: s)))
  | .importCall, v :: s => do
    let c ← plainCapability
    let t ← toText v
    let e ← newError .reference (txt "could not load module '" ++ t ++ txt "'") Text.empty
    let _ ← call c.reject .undefined #[e]
    pure (.next (f.withStack (c.promise :: s)))
  | .withHas name, o :: s => do
    let b ← withHas o name
    pure (.next (f.withStack (.bool b :: s)))
  | i, _ => stepPlain f i

/-- Instructions that call. -/
def stepCall (f : Frame) (i : Instr) : Eval Step := do
  match i, f.stack with
  | .call n, s =>
    match s.drop n with
    | this :: g :: rest => do
      let v ← call g this (s.take n).reverse.toArray
      pure (.next (f.withStack (v :: rest)))
    | _ => pure (.next f)
  | .callSpread, args :: this :: g :: s => do
    let v ← call g this (← listOf args)
    pure (.next (f.withStack (v :: s)))
  | .construct n, s =>
    match s.drop n with
    | g :: rest => do
      let v ← construct g (s.take n).reverse.toArray g
      pure (.next (f.withStack (v :: rest)))
    | [] => pure (.next f)
  | .constructSpread, args :: g :: s => do
    let v ← construct g (← listOf args) g
    pure (.next (f.withStack (v :: s)))
  | .constructAs, target :: args :: g :: s => do
    let v ← construct g (← listOf args) target
    pure (.next (f.withStack (v :: s)))
  | .directEval n scope, s =>
    match s.drop n with
    | this :: g :: rest => do
      let args := (s.take n).reverse
      -- The variables around are seen by the evaluator alone; whatever else goes by its name is
      -- called.
      let v ← if g == (← intrinsicValue .evaluator) then
          match args, f.code.evalScopes[scope]? with
          | .string t :: _, some sc => evalDirect t sc f
          | a :: _, _ => pure a
          | [], _ => pure .undefined
        else call g this args.toArray
      pure (.next (f.withStack (v :: rest)))
    | _ => pure (.next f)
  | i, _ => stepObject f i

/-- Instructions that walk over items. -/
def stepItems (f : Frame) (i : Instr) : Eval Step := do
  match i, f.stack with
  | .iterStart r async, v :: s => do
    let it ← if async then do
        match ← getMethod v (.symbol WellKnown.asyncIterator) with
        | some m => openWith v m
        | none => do
          -- Items that come at once are wrapped, so that each of them is waited for.
          let sync ← openItems v
          let id ← alloc (.asyncFromSync sync.iterator sync.next) .asyncFromSyncPrototype
          pure ⟨.object id, ← getNamed id "next"⟩
      else openItems v
    let f := (f.withStack s).withReg r it.iterator
    pure (.next ((f.withReg (r + 1) it.next).withReg (r + 2) (.bool false)))
  | .iterStep r, s =>
    if f.exhausted r then pure (.next (f.withStack (.bool true :: .undefined :: s)))
    else
      guarding f r do
        match ← nextItem (f.items r) with
        | some v => pure (.next (f.withStack (.bool false :: v :: s)))
        | none => pure (.next ((f.exhaust r).withStack (.bool true :: .undefined :: s)))
  | .iterNext r, s =>
    guarding f r do
      let v ← call (f.reg (r + 1)) (f.reg r) #[]
      pure (.next (f.withStack (v :: s)))
  | .iterUnpack r, v :: s =>
    guarding f r do
      match v with
      | .object id => do
        if truthy (← getNamed id "done") then
          pure (.next ((f.exhaust r).withStack (.bool true :: .undefined :: s)))
        else
          let x ← getNamed id "value"
          pure (.next (f.withStack (.bool false :: x :: s)))
      | _ => typeError "iterator must return an object"
  | .iterRest r, s => do
    if f.exhausted r then
      let a ← newArray #[]
      pure (.next (f.withStack (a :: s)))
    else
      guarding f r do
        let xs ← rest (f.items r) itemLimit #[]
        let a ← newArray xs
        pure (.next ((f.exhaust r).withStack (a :: s)))
  | .iterClose r, _ => do
    if f.exhausted r then pure (.next f)
    else
      guarding f r do
        closeItems (f.items r)
        pure (.next (f.exhaust r))
  | .iterCloseQuiet r, _ => do
    -- An error is on its way already.
    if !f.exhausted r then closeQuietly (f.items r)
    pure (.next (f.exhaust r))
  | .iterCloseAsync r, s => do
    if f.exhausted r then pure (.next (f.withStack (.bool false :: .undefined :: s)))
    else
      guarding f r do
        match ← getMethod (f.reg r) (Key.str "return") with
        | none => pure (.next ((f.exhaust r).withStack (.bool false :: .undefined :: s)))
        | some m => do
          let v ← call m (f.reg r) #[]
          pure (.next ((f.exhaust r).withStack (.bool true :: v :: s)))
  | .checkResult, v :: s => do
    if !v.isObject then typeError "iterator must return an object"
    pure (.next (f.withStack s))
  | .namesStart r, v :: s => do
    let id ← if v.isNullish then allocWith (.names .undefined []) none
      else do
        let o ← toObject v
        let keys ← namesOf proxyDepth (some o) []
        allocWith (.names (.object o) keys) none
    pure (.next ((f.withStack s).withReg r (.object id)))
  | .namesStep r, s => do
    match f.reg r with
    | .object id => do
      match ← body id with
      | .names (.object target) keys => do
        match ← nextName target keys with
        | some (k, ks) => do
          setBody id (.names (.object target) ks)
          pure (.next (f.withStack (.bool false :: k.toValue :: s)))
        | none => pure (.next (f.withStack (.bool true :: .undefined :: s)))
      | _ => pure (.next (f.withStack (.bool true :: .undefined :: s)))
    | _ => pure (.next (f.withStack (.bool true :: .undefined :: s)))
  | .delegate r, k :: w :: s => do
    let it := f.reg r
    match k with
    -- What came in: 1 is a throw, 2 a return, anything else a value.
    | .int 1 => do
      match ← getMethod it (Key.str "throw") with
      | some m => do
        let v ← call m it #[w]
        pure (.next (f.withStack (.int 0 :: v :: s)))
      | none => do
        closeItems (f.items r)
        typeError "iterator does not have a throw method"
    | .int 2 => do
      match ← getMethod it (Key.str "return") with
      | some m => do
        let v ← call m it #[w]
        pure (.next (f.withStack (.int 1 :: v :: s)))
      | none => pure (.next (f.withStack (.int 2 :: w :: s)))
    | _ => do
      let v ← call (f.reg (r + 1)) it #[w]
      pure (.next (f.withStack (.int 0 :: v :: s)))
  | i, _ => stepCall f i
where
  /-- All items that are left. -/
  rest (it : Items) : Nat → Array Value → Eval (Array Value)
    | 0, xs => pure xs
    | fuel + 1, xs => do
      match ← nextItem it with
      | some v => rest it fuel (xs.push v)
      | none => pure xs

/-- Instructions that decide where to go on. -/
def stepFlow (f : Frame) (i : Instr) : Eval Step := do
  match i, f.stack with
  | .jump l, _ => pure (.next (f.goto l))
  | .jumpIfFalse l, v :: s =>
    pure (.next (if truthy v then f.withStack s else (f.withStack s).goto l))
  | .jumpIfTrue l, v :: s =>
    pure (.next (if truthy v then (f.withStack s).goto l else f.withStack s))
  | .jumpIfNullish l, v :: _ => pure (.next (if v.isNullish then f.goto l else f))
  | .jumpIfDefined l, v :: _ => pure (.next (if v.isUndefined then f else f.goto l))
  | .jumpUnlessReturn l, k :: s =>
    pure (.next (if k == .int 2 then f.withStack s else (f.withStack s).goto l))
  | .enterTry l, s => pure (.next { f with handlers := (l, s) :: f.handlers })
  | .leaveTry, _ => pure (.next { f with handlers := f.handlers.tail })
  | .throw, v :: s => pure (.raise v (f.withStack s))
  | .raise kind message, _ => raise kind message
  | .dispatch r labels, _ =>
    match f.reg r with
    | .int n =>
      -- A negative number is an error that was put off until the block behind had run.
      if n < 0 then pure (.raise (f.reg (r + 1)) f)
      else
        match labels[n.toNatClampNeg]? with
        | some l => pure (.next (f.goto l))
        | none => pure (.next f)
    | _ => pure (.next f)
  | .initialYield, _ => pure (.yield .undefined f)
  | .yield, v :: s => pure (.yield v (f.withStack s))
  | .yieldRaw, v :: s => pure (.yield v (f.withStack s))
  | .await, v :: s => pure (.await v (f.withStack s))
  | .ret, v :: _ => pure (.done v)
  | .checkReturn, v :: _ => do
    if v.isUndefined || v.isObject then pure (.next f)
    else typeError "derived class constructor must return an object or undefined"
  | i, _ => stepItems f i

end Eval

end ScriptHost
