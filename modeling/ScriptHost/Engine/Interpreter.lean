import ScriptHost.Engine.Coroutine
/-!
# The interpreter

Calls and construction for every kind of function, and the loop over instructions.  What the engine
supplies is handed in as a table, so that nothing here depends on a builtin object.
-/

namespace ScriptHost

/-- Where the functions that the engine supplies are looked up. -/
abbrev Supply := Family → Nat → Option Native

namespace Eval

/-! ## The loop -/

/-- Goes to the innermost handler, if there is one. -/
def toHandler (f : Frame) (v : Value) : Option Frame :=
  match f.handlers with
  | (l, s) :: hs => some ({ f with stack := v :: s, handlers := hs }.goto l)
  | [] => none

/-- Runs instructions, at most so many. -/
def loop (I : Interp) : Nat → Frame → Run Outcome
  | 0, _ => (raise .internal "interrupted" : Eval Outcome) I
  | fuel + 1, f => fun m =>
    match f.code.instrs[f.pc]? with
    | none => .ok (.returned .undefined) m
    | some i =>
      -- The position goes on first: a jump replaces it, and a frame that rests is taken up behind.
      let f := { f with pc := f.pc + 1 }
      match (do watchMemory fuel; stepFlow f i : Eval Step) I m with
      | .ok (.next f) m => loop I fuel f m
      | .ok (.done v) m => .ok (.returned v) m
      | .ok (.yield v f) m => .ok (.yielded v f) m
      | .ok (.await v f) m => .ok (.awaiting v f) m
      | .ok (.raise v f) m =>
        match toHandler f v with
        | some f => loop I fuel f m
        | none => .error v m
      | .error v m =>
        match toHandler f v with
        | some f => loop I fuel f m
        | none => .error v m

/-- How many instructions one activation may take. -/
def instructionLimit : Nat := twoTo 50

/-- Runs an activation until it comes to rest. -/
def runFrame (f : Frame) : Eval Outcome :=
  withSite ⟨f.callee, some f.code, f.place⟩ do
    let I ← read
    match f.raising with
    | none => loop I instructionLimit f
    | some v =>
      match toHandler { f with raising := none } v with
      | some f => loop I instructionLimit f
      | none => throw v

/-! ## Entering functions -/

/-- The object of the arguments of a call. -/
def newArguments (callee : Value) (args : Array Value) (cells : Array (Option Nat))
    (strict : Bool) : Eval Value := do
  let values ← intrinsicValue .arrayValues
  let thrower ← intrinsic .throwTypeError
  let calleeProp : Property :=
    if strict then ⟨.accessor thrower thrower, false, false⟩ else .hidden callee
  let id ← Mem.alloc
    { body := .arguments cells, proto := ← intrinsic .objectPrototype
      props :=
        { indices := (arrayProps args).indices
          members := #[(Key.str "length", .hidden (Value.ofNat args.size)),
            (Key.str "callee", calleeProp), (.symbol WellKnown.iterator, .hidden values)] } }
  pure (.object id)

/-- A new activation of a closure. -/
def enter (callee : Nat) (c : Closure) (this target : Value) (args : Array Value) : Eval Frame := do
  let code := c.code
  -- Sloppy code never sees a receiver that is no object.
  let this ← if code.strict || code.role == .arrow || this.isObject then pure this
    else if this.isNullish then pure (.object ((← get).realms[c.realm]?.getD {}).global)
    else if this == .uninitialized then pure this
    else do pure (.object (← toObject this))
  let mut cells := #[]
  for _ in [0:code.slots] do
    cells := cells.push (← Mem.newCell .uninitialized)
  for (i, slot) in code.implicit do
    match cells[slot]? with
    | none => pure ()
    | some cell =>
      match i with
      | .this => setCell cell this
      | .newTarget => setCell cell target
      | .callee => setCell cell (.object callee)
      | .home => setCell cell (match c.home with
        | some h => .object h
        | none => .undefined)
      | .arguments => do
        -- In sloppy code the list of arguments and the parameters are the same variables.
        let shared : Array (Option Nat) := match code.sharedParams with
          | some slots => ((slots.take args.size).map fun s => cells[s]?).toArray
          | none => #[]
        let a ← newArguments (.object callee) args shared (code.strict || code.sharedParams.isNone)
        setCell cell a
  pure
    { code := code, callee := .object callee, this := this, newTarget := target, args := args
      cells := cells, captured := c.captured, regs := .replicate code.regs .undefined
      place := code.place }

/-- The prototype of the objects that a generator function makes. -/
def generatorProto (callee : Nat) (fallback : Intrinsic) : Eval (Option Nat) := do
  match ← getNamed callee "prototype" with
  | .object p => pure (some p)
  | _ => intrinsic fallback

/-- Calls a closure. -/
def callClosure (callee : Nat) (c : Closure) (this target : Value) (args : Array Value) :
    Eval Value := do
  let f ← enter callee c this target args
  match c.code.body with
  | .plain => do
    match ← runFrame f with
    | .returned v => pure v
    | _ => pure .undefined
  | .async => startAsync f
  -- The body runs to its initial yield at once, so that arguments are bound before anyone asks for
  -- an item.
  | .generator => do
    match ← runFrame f with
    | .yielded _ rest => do
      let p ← generatorProto callee .generatorPrototype
      pure (.object (← allocWith (.generator .start (some rest)) p))
    | _ => pure .undefined
  | .asyncGenerator => do
    match ← runFrame f with
    | .yielded _ rest => do
      let p ← generatorProto callee .asyncGeneratorPrototype
      pure (.object (← allocWith (.asyncGenerator .start (some rest) #[]) p))
    | _ => pure .undefined

/-- Runs a computation in a realm. -/
def inRealm {α : Type} (realm : Nat) (x : Eval α) : Eval α := do
  let old := (← get).realm
  modify fun m => { m with realm := realm }
  try
    let a ← x
    modify fun m => { m with realm := old }
    pure a
  catch e =>
    modify fun m => { m with realm := old }
    throw e

/-- Calls a function that the engine supplies. -/
def callNative (supply : Supply) (id : Nat) (ref : NativeRef) (realm : Nat) (this target : Value)
    (args : Array Value) : Eval Value := do
  match supply ref.family ref.index with
  | some n =>
    withSite ⟨.object id, none, {}⟩ do
      modify fun m => { m with realm := realm }
      n.run { this := this, args := args, target := target, callee := id, data := ref.data }
  | none => typeError "not a function"

/-! ## Calls -/

/-- Calls any value. -/
def callRule (supply : Supply) (f this : Value) (args : Array Value) : Eval Value := do
  match f with
  | .object id => do
    match ← body id with
    | .closure c =>
      match c.code.role with
      | .baseConstructor | .derivedConstructor =>
        inRealm c.realm (withSite ⟨f, some c.code, c.code.place⟩
          (typeError "class constructors must be invoked with 'new'"))
      | _ => inRealm c.realm (callClosure id c this .undefined args)
    | .native ref realm => callNative supply id ref realm this .undefined args
    | .bound t th as => call t th (as ++ args)
    | .proxy _ _ callable _ => do
      -- The trap is looked up before anything is checked; a getter of the handler can observe that.
      let (target, handler, trap) ← trap getFor id "apply"
      if !callable then typeError "not a function"
      match trap with
      | none => call (.object target) this args
      | some t => call t (.object handler) #[.object target, this, ← newArray args]
    | _ => typeError "not a function"
  | _ => typeError "not a function"

/-- Constructs with a closure. -/
def constructClosure (id : Nat) (c : Closure) (args : Array Value) (target : Value) :
    Eval Value := do
  match c.code.role with
  | .derivedConstructor => callClosure id c .uninitialized target args
  | _ => do
    let o ← allocFor .ordinary target .objectPrototype
    match c.initializer with
    | some init => do
      let _ ← call (.object init) (.object o) #[]
    | none => pure ()
    match ← callClosure id c (.object o) target args with
    | .object r => pure (.object r)
    | v =>
      if c.code.role == .baseConstructor && !v.isUndefined then pure (.object o)
      else pure (.object o)

/-- Constructs with any value. -/
def constructRule (supply : Supply) (f : Value) (args : Array Value) (target : Value) :
    Eval Value := do
  match f with
  | .object id => do
    if !(← get).constructs f then typeError "not a constructor"
    match ← body id with
    | .closure c => inRealm c.realm (constructClosure id c args target)
    | .native ref realm => callNative supply id ref realm .undefined target args
    | .bound t _ as => construct t (as ++ args) (if target == f then t else target)
    | .proxy _ _ _ _ => do
      let (goal, handler, trap) ← trap getFor id "construct"
      match trap with
      | none => construct (.object goal) args (if target == f then .object goal else target)
      | some t => do
        let v ← call t (.object handler) #[.object goal, ← newArray args, target]
        if !v.isObject then typeError "not an object"
        pure v
    | _ => typeError "not a constructor"
  | _ => typeError "not a function"

/-- An interpreter for calls nested at most `depth` deep. -/
def interp (supply : Supply) : Nat → Interp
  | 0 =>
    let none : Interp :=
      { call := fun _ _ _ => throw .undefined, construct := fun _ _ _ => throw .undefined
        run := fun _ => throw .undefined }
    { call := fun _ _ _ => (stackOverflow : Eval Value) none
      construct := fun _ _ _ => (stackOverflow : Eval Value) none
      run := fun _ => (stackOverflow : Eval Outcome) none }
  | depth + 1 =>
    { call := fun f this args => callRule supply f this args (interp supply depth)
      construct := fun f args target => constructRule supply f args target (interp supply depth)
      run := fun f => runFrame f (interp supply depth) }

end Eval

end ScriptHost
