import ScriptHost.Engine.Heap
/-!
# Computations of the engine

A computation changes the machine and may end by throwing a value.  What runs code of scripts is
handed in as an `Interp`, so that builtin functions can be written before the interpreter and calls
can be counted: an interpreter for nested calls is one level poorer.
-/

namespace ScriptHost

/-- How the code of a function came to rest. -/
inductive Outcome where
  | returned (v : Value)
  /-- A generator gave a value. -/
  | yielded (v : Value) (rest : Frame)
  /-- A function waits for a value. -/
  | awaiting (v : Value) (rest : Frame)
deriving Inhabited

/-- Computations that change the machine and may throw. -/
abbrev Run := EStateM Value Machine

/-- What can run code. -/
structure Interp where
  /-- Calls a function with a receiver and arguments. -/
  call : Value → Value → Array Value → Run Value
  /-- Constructs with a constructor, arguments and the target of `new`. -/
  construct : Value → Array Value → Value → Run Value
  /-- Runs code until it comes to rest. -/
  run : Frame → Run Outcome

/-- Computations of the engine. -/
abbrev Eval := ReaderT Interp Run

instance : MonadLift Mem Run where
  monadLift x := fun m => match x m with
    | (a, m) => .ok a m

/-! ## Reading the machine -/

namespace Eval

/-- What an object is. -/
def body (id : Nat) : Eval Body := do pure ((← get).body id)

/-- Changes what an object is. -/
def setBody (id : Nat) (b : Body) : Eval Unit :=
  modify fun m => m.update id fun o => { o with body := b }

/-- An intrinsic object of the current realm. -/
def intrinsic (i : Intrinsic) : Eval (Option Nat) := do pure ((← get).intrinsic? i)

/-- An intrinsic object as a value. -/
def intrinsicValue (i : Intrinsic) : Eval Value := do
  pure (match (← get).intrinsic? i with
    | some id => .object id
    | none => .undefined)

/-- Calls a function. -/
def call (f this : Value) (args : Array Value) : Eval Value := do (← read).call f this args

/-- Constructs an object. -/
def construct (f : Value) (args : Array Value) (target : Value) : Eval Value := do
  (← read).construct f args target

/-- Whether a value can be called. -/
def callable (v : Value) : Eval Bool := do pure ((← get).callable v)

/-! ## Making objects -/

/-- A new object with a prototype. -/
def allocWith (b : Body) (proto : Option Nat) : Eval Nat := Mem.alloc { body := b, proto := proto }

/-- A new object whose prototype is an intrinsic object. -/
def alloc (b : Body) (i : Intrinsic) : Eval Nat := do allocWith b (← intrinsic i)

/-- A new ordinary object. -/
def newObject : Eval Nat := alloc .ordinary .objectPrototype

/-- The properties of an array with the given items. -/
def arrayProps (items : Array Value) : PropertyTable :=
  { indices := (items.foldl
      (fun (st : Nat × Std.TreeMap Nat Property) v => (st.1 + 1, st.2.insert st.1 (.plain v)))
      (0, {})).2
    members := #[(Key.str "length", ⟨.data (Value.ofNat items.size) true, false, false⟩)] }

/-- A new array with a prototype. -/
def newArrayWith (items : Array Value) (proto : Option Nat) : Eval Nat :=
  Mem.alloc { body := .array, proto := proto, props := arrayProps items }

/-- A new array. -/
def newArray (items : Array Value) : Eval Value := do
  pure (.object (← newArrayWith items (← intrinsic .arrayPrototype)))

/-- Puts an ordinary property on an object made by the engine. -/
def put (id : Nat) (k : Key) (v : Value) : Eval Unit := Mem.putProperty id k (.plain v)

/-- A new object with members. -/
def newRecord (members : List (String × Value)) : Eval Value := do
  let id ← newObject
  for (n, v) in members do put id (Key.ofText (txt n)) v
  pure (.object id)

/-- The result object of an iterator. -/
def iterResult (v : Value) (done : Bool) : Eval Value :=
  newRecord [("value", v), ("done", .bool done)]

/-! ## Call stacks -/

/-- The name that a call stack shows for a function. -/
def siteName (m : Machine) (s : CallSite) : Text :=
  let own := match s.callee with
    | .object id => ((m.obj id).props.get? (Key.str "name")).bind (·.value?)
    | _ => s.code.map fun (c : FunctionCode) => Value.string c.name
  match own with
  | some (.string t) => if t.isEmpty then txt "<anonymous>" else t
  | _ => txt "<anonymous>"

/-- One line of a call stack. -/
def siteLine (m : Machine) (s : CallSite) : Text :=
  let tail := match s.code with
    | some c =>
        " (" ++ c.file ++ ":" ++ toString s.place.line ++ ":" ++ toString s.place.column ++ ")\n"
    | none => " (native)\n"
  txt "    at " ++ siteName m s ++ txt tail

/-- How many lines a call stack may have. -/
def traceLimit (m : Machine) : Nat :=
  match m.currentRealm.traceLimit with
  | .int n => if n ≤ 0 then 0 else n.toNatClampNeg
  | .float d => if d ≤ 0 then 0 else if d > 200 then 200 else d.toUInt64.toNat
  | _ => 0

/-- The call stack as text, without the first calls. -/
def traceText (m : Machine) (skip : Nat) : Text :=
  ((m.calls.drop skip).take (traceLimit m)).foldl (fun t s => t ++ siteLine m s) Text.empty

/-! ## Throwing -/

/-- The prototype of errors of a kind. -/
def errorIntrinsic : ErrorKind → Intrinsic
  | .error => .errorPrototype
  | .eval => .evalErrorPrototype
  | .range => .rangeErrorPrototype
  | .reference => .referenceErrorPrototype
  | .syntactic => .syntaxErrorPrototype
  | .type => .typeErrorPrototype
  | .uri => .uriErrorPrototype
  | .internal => .internalErrorPrototype
  | .aggregate => .aggregateErrorPrototype

/-- A new error with a message and a call stack. -/
def newError (kind : ErrorKind) (message stack : Text) : Eval Value := do
  let id ← alloc .error (errorIntrinsic kind)
  Mem.putHidden id "message" (.string message)
  Mem.putHidden id "stack" (.string stack)
  pure (.object id)

/-- Throws an error of a kind. -/
def throwText {α : Type} (kind : ErrorKind) (message : Text) : Eval α := do
  throw (← newError kind message (traceText (← get) 0))

/-- Throws an error of a kind. -/
def raise {α : Type} (kind : ErrorKind) (message : String) : Eval α := throwText kind (txt message)

/-- Throws a type error. -/
def typeError {α : Type} (message : String) : Eval α := raise .type message

/-- Throws a range error. -/
def rangeError {α : Type} (message : String) : Eval α := raise .range message

/-- Says that calls are nested too deep. -/
def stackOverflow {α : Type} : Eval α := rangeError "Maximum call stack size exceeded"

/-- Says that memory is used up.  There is no room for a call stack either, unless code of a
script is there to add it. -/
def outOfMemory {α : Type} : Eval α := do
  let m ← get
  throw (← newError .internal (txt "out of memory")
    (if m.calls.any (·.code.isSome) then traceText m 0 else Text.empty))

/-- Bytes in use beside texts, roughly. -/
def bytesInUse (m : Machine) : Nat := m.regionBytes + 64 * (m.heap.size - m.freed) + m.propertyBytes

/-- Counts what properties take. -/
def countProperties (m : Machine) : Machine :=
  let bytes := m.heap.foldl (fun n o => n + 16 * (o.props.indices.size + o.props.members.size)) 0
  { m with propertyBytes := bytes }

/-- Counts what the texts in properties and variables take. -/
def countTexts (m : Machine) : Machine :=
  let add (n : Nat) : Option Value → Nat
    | some (.string t) => n + t.size
    | _ => n
  let inHeap := m.heap.foldl (fun n o =>
    o.props.members.foldl (fun n p => add n p.2.value?)
      (o.props.indices.foldl (fun n _ p => add n p.value?) n)) 0
  { m with textBytes := m.cells.foldl (fun n v => add n (some v)) inHeap }

/-- Makes sure that more bytes can be used; properties are counted anew before that is denied. -/
def reserve (bytes : Nat) : Eval Unit := do
  match (← get).limits.memory with
  | some limit =>
    if bytesInUse (← get) + bytes > limit then
      modify countProperties
      if bytesInUse (← get) + bytes > limit then outOfMemory
  | none => pure ()

/-- Makes sure that there is room for a text. -/
def reserveText (bytes : Nat) : Eval Unit := do
  reserve bytes
  match (← get).limits.memory with
  | some limit =>
    modify fun m => { m with textBytes := m.textBytes + bytes }
    if (← get).textBytes > limit then
      modify countTexts
      reserve ((← get).textBytes + bytes)
  | none => pure ()

/-- Counts properties from time to time while code runs, and stops code that took too much. -/
def watchMemory (time : Nat) : Eval Unit := do
  if (← get).limits.memory.isSome && time % 64 == 0 then
    modify countProperties
    reserve 0

/-- How many bytes of stack a call takes, roughly; one of a function of the engine goes through more
code. -/
def stackBytes (site : CallSite) : Nat := if site.code.isSome then 600 else 1100

/-- Runs a computation as part of a call. -/
def withSite {α : Type} (site : CallSite) (x : Eval α) : Eval α := do
  let m ← get
  let calls := m.calls
  let realm := m.realm
  let used := m.stackUsed
  match m.limits.stack with
  | some limit => if used + stackBytes site > limit then stackOverflow
  | none => pure ()
  modify fun m => { m with calls := site :: m.calls, stackUsed := used + stackBytes site }
  try
    let a ← x
    modify fun m => { m with calls := calls, realm := realm, stackUsed := used }
    pure a
  catch e =>
    modify fun m => { m with calls := calls, realm := realm, stackUsed := used }
    throw e

/-- The longest text. -/
def textLimit : Nat := twoTo 30 - 1

/-- A text as a value, unless it is too long. -/
def checkedText (size : Nat) (t : Unit → Text) : Eval Value := do
  if size > textLimit then raise .range "invalid string length"
  reserveText size
  pure (.string (t ()))

/-- Joins two texts. -/
def concatText (a b : Text) : Eval Value := checkedText (a.size + b.size) fun _ => a ++ b

/-- The value of a cell. -/
def getCell (id : Nat) : Eval Value := do pure ((← get).cell id)

/-- Gives a cell a value. -/
def setCell (id : Nat) (v : Value) : Eval Unit :=
  modify fun m => { m with cells := m.cells.setIfInBounds id v }

end Eval

/-! ## Functions that the engine supplies -/

/-- A call of a function that the engine supplies. -/
structure NativeCall where
  /-- The receiver. -/
  this : Value := .undefined
  args : Array Value := #[]
  /-- The target of `new`; undefined if the function was called. -/
  target : Value := .undefined
  /-- The function itself. -/
  callee : Nat := 0
  /-- What the function remembers. -/
  data : Array Value := #[]
deriving Inhabited

namespace NativeCall

/-- An argument; undefined if it was left out. -/
def arg (c : NativeCall) (i : Nat) : Value := c.args[i]?.getD .undefined

/-- Something that the function remembers. -/
def datum (c : NativeCall) (i : Nat) : Value := c.data[i]?.getD .undefined

end NativeCall

/-- How a function that the engine supplies stands on its object. -/
inductive NativeRole where
  | method | getter | setter
deriving DecidableEq, Inhabited, Repr

/-- A function that the engine supplies. -/
structure Native where
  /-- Its name; one that starts with `@` is the name of a well-known symbol. -/
  name : String
  /-- How many arguments it expects. -/
  length : Nat := 0
  role : NativeRole := .method
  run : NativeCall → Eval Value := fun _ => pure .undefined

instance : Inhabited Native := ⟨⟨"", 0, .method, fun _ => pure .undefined⟩⟩

end ScriptHost
