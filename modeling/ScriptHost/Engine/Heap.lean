import ScriptHost.Buffer.ElementKind
import ScriptHost.Code.Instr
import ScriptHost.Engine.Property
import ScriptHost.Pattern.Tree
/-!
# The heap

Objects, what each kind of object keeps, and the machine that holds them with the cells of
variables, the symbols, the realms and the work that waits.  Everything here is first-order data:
functions of the engine are named, not stored.
-/

namespace ScriptHost

/-- A memory region that buffers show. -/
abbrev RegionId := Nat

/-! ## Activations -/

/-- A function in the middle of its work. -/
structure Frame where
  code : FunctionCode
  /-- The function itself. -/
  callee : Value := .undefined
  this : Value := .undefined
  newTarget : Value := .undefined
  args : Array Value := #[]
  /-- The cells of its own variables, by slot. -/
  cells : Array Nat := #[]
  /-- The cells it captured. -/
  captured : Array Nat := #[]
  regs : Array Value := #[]
  stack : List Value := []
  /-- Where to go when something is thrown, with the operands to go on with. -/
  handlers : List (Nat × List Value) := []
  pc : Nat := 0
  place : Place := {}
  /-- Something to be thrown before anything else is done. -/
  raising : Option Value := none
deriving Inhabited

/-! ## Objects -/

/-- The tables of functions that the engine supplies. -/
inductive Family where
  | constructors | globals | objectStatics | objectPrototype | functionPrototype | errorStatics
  | errorPrototype | arrayStatics | arrayPrototype | iteratorPrototype | arrayIterator
  | iteratorStatics | iteratorHelper | wrappedIterator | asyncIteratorPrototype | asyncFromSync
  | generator | asyncGenerator | numberStatics | numberPrototype | booleanPrototype | stringStatics
  | stringPrototype | stringIterator | symbolStatics | symbolPrototype | math | reflect | json
  | collectionStatics | mapStatics | mapPrototype | setPrototype | weakMapPrototype
  | weakSetPrototype | mapIterator | setIterator | bufferStatics | bufferPrototype
  | sharedBufferPrototype | typedArrayStatics | typedArrayPrototype | dataViewPrototype
  | bigintStatics | bigintPrototype | promiseStatics | promisePrototype | proxyStatics
  | weakRefPrototype | registryPrototype | dateStatics | datePrototype | regexpStatics
  | regexpPrototype | regexpIterator | clock | inner
deriving DecidableEq, Inhabited, Repr

/-- A function that the engine supplies: where it is found, and what it remembers. -/
structure NativeRef where
  family : Family
  index : Nat
  data : Array Value := #[]
  constructs : Bool := false
deriving Inhabited

/-- A function made by a script. -/
structure Closure where
  code : FunctionCode
  captured : Array Nat := #[]
  realm : Nat := 0
  /-- The object whose member it is. -/
  home : Option Nat := none
  /-- What puts the fields of a class on its objects. -/
  initializer : Option Nat := none
deriving Inhabited

/-- Memory that scripts see as an object. -/
structure Buffer where
  /-- The memory; none once it was taken away. -/
  region : Option RegionId
  length : Nat := 0
  maxLength : Option Nat := none
  shared : Bool := false
  /-- The token of memory lent by the host. -/
  token : Option UInt64 := none
deriving DecidableEq, Inhabited, Repr

/-- A view of a buffer as elements of one kind. -/
structure TypedView where
  kind : ElementKind
  buffer : Nat
  offset : Nat := 0
  /-- Bytes in view. -/
  length : Nat := 0
  /-- Whether the view grows and shrinks with its buffer. -/
  tracks : Bool := false
  /-- How many elements can be reached now. -/
  count : Nat := 0
  /-- The memory in view. -/
  region : Option RegionId := none
deriving Inhabited

/-- A view of a buffer as bytes. -/
structure ByteView where
  buffer : Nat
  offset : Nat := 0
  length : Nat := 0
  tracks : Bool := false
deriving Inhabited

/-- Where a promise stands. -/
inductive PromiseState where
  | pending
  | fulfilled (v : Value)
  | rejected (v : Value)
deriving Inhabited

/-- What waits for a promise: the promise to be settled with its two functions, all perhaps
undefined, and the handler. -/
structure Reaction where
  promise : Value := .undefined
  resolve : Value := .undefined
  reject : Value := .undefined
  handler : Value := .undefined
deriving Inhabited

/-- What a generator is doing. -/
inductive GeneratorState where
  | start | suspended | running | awaitingReturn | done
deriving DecidableEq, Inhabited, Repr

/-- Something asked of an asynchronous generator: 0 next, 1 throw, 2 return. -/
structure GeneratorRequest where
  mode : Nat
  value : Value
  promise : Value
  resolve : Value
  reject : Value
deriving Inhabited

/-- What a walk over an array, map or set gives. -/
inductive Walk where
  | keys | values | entries
deriving DecidableEq, Inhabited, Repr

/-- Which iterator a helper of iterators is. -/
inductive HelperKind where
  | map | filter | take | drop | flatMap
deriving DecidableEq, Inhabited, Repr

/-- What an object is beyond its properties. -/
inductive Body where
  | ordinary
  | array
  | error
  | boolean (b : Bool)
  | number (v : Value)
  | string (t : Text)
  | symbol (id : Nat)
  | bigint (n : Int)
  | closure (c : Closure)
  | native (f : NativeRef) (realm : Nat)
  | bound (target this : Value) (args : Array Value)
  /-- The arguments of a call; each may share the cell of a parameter. -/
  | arguments (cells : Array (Option Nat))
  | proxy (target handler : Option Nat) (callable constructs : Bool)
  /-- Entries in the order in which they came; those deleted leave a gap. -/
  | map (entries : Array (Option (Value × Value))) (size : Nat)
  | set (entries : Array (Option (Value × Value))) (size : Nat)
  | weakMap (entries : Array (Value × Value))
  | weakSet (entries : Array Value)
  /-- A reference that does not keep its target; none once the target is gone. -/
  | weakRef (target : Option Value)
  /-- Targets, what is passed on when they are gone, and tokens to take them back. -/
  | registry (callback : Value) (realm : Nat) (entries : Array (Value × Value × Value))
  | promise (state : PromiseState) (onFulfilled onRejected : Array Reaction) (handled : Bool)
  | buffer (b : Buffer)
  | typed (v : TypedView)
  | dataView (v : ByteView)
  | generator (state : GeneratorState) (frame : Option Frame)
  | asyncGenerator (state : GeneratorState) (frame : Option Frame) (queue : Array GeneratorRequest)
  /-- A function that waits for a promise, and the functions that settle its own. -/
  | coroutine (frame : Option Frame) (resolve reject : Value)
  | arrayIterator (target : Value) (position : Nat) (walk : Walk)
  | mapIterator (target : Value) (position : Nat) (walk : Walk)
  | setIterator (target : Value) (position : Nat) (walk : Walk)
  | stringIterator (text : Text) (position : Nat)
  | regexpIterator (regexp : Value) (text : Text) (global unicode done : Bool)
  | asyncFromSync (iterator next : Value)
  | wrappedIterator (iterator next : Value)
  | iteratorHelper (kind : HelperKind) (iterator next fn : Value) (count : Float)
      (inner innerNext : Value)
      (position : Nat) (done running : Bool)
  /-- Names that an enumeration has still to give, each with the object they were found on. -/
  | names (target : Value) (rest : List Key)
  | regexp (source : Text) (pattern : Pattern)
  | date (time : Float)
  /-- The names that a module exports, and their cells. -/
  | module (exports : List (Text × Nat))
  /-- What is left of an object that was freed. -/
  | freed
deriving Inhabited

/-- An object. -/
structure Obj where
  body : Body := .ordinary
  proto : Option Nat := none
  extensible : Bool := true
  props : PropertyTable := {}
deriving Inhabited

/-! ## Realms -/

/-- Objects that the engine itself refers to. -/
inductive Intrinsic where
  | objectPrototype | functionPrototype | errorPrototype | evalErrorPrototype
  | rangeErrorPrototype | referenceErrorPrototype | syntaxErrorPrototype | typeErrorPrototype
  | uriErrorPrototype | internalErrorPrototype | aggregateErrorPrototype
  | arrayPrototype | iteratorPrototype | arrayIteratorPrototype
  | asyncIteratorPrototype | asyncFromSyncPrototype | generatorPrototype | asyncGeneratorPrototype
  | generatorFunctionPrototype | asyncFunctionPrototype | asyncGeneratorFunctionPrototype
  | numberPrototype | booleanPrototype | stringPrototype | stringIteratorPrototype
  | symbolPrototype | bigintPrototype | mapPrototype | setPrototype | weakMapPrototype
  | weakSetPrototype | mapIteratorPrototype | setIteratorPrototype | bufferPrototype
  | sharedBufferPrototype | typedArrayPrototype | dataViewPrototype | promisePrototype
  | weakRefPrototype | registryPrototype | datePrototype | regexpPrototype
  | regexpIteratorPrototype | iteratorHelperPrototype | wrappedIteratorPrototype
  | objectConstructor | functionConstructor | errorConstructor | arrayConstructor
  | iteratorConstructor | promiseConstructor | regexpConstructor | bufferConstructor |
    sharedBufferConstructor
  | typedArrayConstructor | arrayValues | evaluator | throwTypeError | mapConstructor
  | elementPrototype (kind : ElementKind)
  | elementConstructor (kind : ElementKind)
deriving DecidableEq, Inhabited, Repr

/-- The place of an intrinsic object in the table of a realm. -/
def Intrinsic.place : Intrinsic → Nat
  | .elementPrototype k => 100 + k.number
  | .elementConstructor k => 120 + k.number
  | i => i.ctorIdx

/-- How many places the table of a realm has. -/
def Intrinsic.places : Nat := 140

/-- A name declared by a script outside every function. -/
structure ScriptName where
  name : Text
  cell : Nat
  isConst : Bool
deriving Inhabited

/-- A set of builtin objects with their global object. -/
structure Realm where
  intrinsics : Array (Option Nat) := .replicate Intrinsic.places none
  global : Nat := 0
  names : Array ScriptName := #[]
  /-- Names of functions and variables that cannot be deleted. -/
  hasEval : Bool := false
  /-- How many lines a call stack shows. -/
  traceLimit : Value := .int 10
  isAlive : Bool := true
deriving Inhabited

/-- The object under an intrinsic name. -/
def Realm.intrinsic? (r : Realm) (i : Intrinsic) : Option Nat := (r.intrinsics[i.place]?).join

/-! ## The machine -/

/-- A call that is going on, for reports. -/
structure CallSite where
  callee : Value
  /-- The code; none for functions that the engine supplies. -/
  code : Option FunctionCode
  place : Place := {}
deriving Inhabited

/-- Work that waits until no script runs. -/
inductive Job where
  /-- Hands a value to what waited for a promise. -/
  | reaction (r : Reaction) (rejected : Bool) (value : Value)
  /-- Asks a foreign promise to tell its value. -/
  | follow (promise thenable method : Value)
  /-- Tells a registry that a target is gone. -/
  | finalize (callback held : Value)
deriving Inhabited

/-- A symbol. -/
structure SymbolInfo where
  description : Option Text
  /-- Whether it is the name of a private member. -/
  isPrivate : Bool := false
  /-- Whether it is found under its description. -/
  registered : Bool := false
deriving Inhabited

/-- The limits of a machine. -/
structure Limits where
  /-- Bytes of the heap; none for no limit. -/
  memory : Option Nat := none
  /-- Bytes of stack; none for no limit. -/
  stack : Option Nat := some 1048576
deriving Inhabited, Repr

/-- The state of the engine. -/
structure Machine where
  heap : Array Obj := #[]
  /-- Variables. -/
  cells : Array Value := #[]
  symbols : Array SymbolInfo := WellKnown.names.toArray.map fun n => { description := some (txt n) }
  realms : Array Realm := #[]
  /-- The realm of the code that runs. -/
  realm : Nat := 0
  /-- The calls that are going on, the innermost first. -/
  calls : List CallSite := []
  /-- Bytes of stack that these calls use. -/
  stackUsed : Nat := 0
  /-- The work that was put off and does not wait in line yet, with its realm, the oldest first. -/
  jobs : Array (Nat × Job) := #[]
  regions : Array ByteArray := #[]
  /-- Tokens of lent memory that is no longer used, the oldest first. -/
  released : Array UInt64 := #[]
  limits : Limits := {}
  /-- Bytes in use by regions. -/
  regionBytes : Nat := 0
  /-- Bytes in use by properties, when they were last counted. -/
  propertyBytes : Nat := 0
  /-- Bytes of the texts that were there when they were last counted, and of those made since. -/
  textBytes : Nat := 0
  /-- Whether anything depends on when objects are freed. -/
  watched : Bool := false
  /-- How many objects were freed. -/
  freed : Nat := 0
deriving Inhabited

/-- Computations that only change the machine. -/
abbrev Mem := StateM Machine

namespace Machine

/-- An object; a blank one for a number that names none. -/
def obj (m : Machine) (id : Nat) : Obj := m.heap[id]?.getD {}

/-- What an object is. -/
def body (m : Machine) (id : Nat) : Body := (m.obj id).body

/-- The current realm. -/
def currentRealm (m : Machine) : Realm := m.realms[m.realm]?.getD {}

/-- An intrinsic object of the current realm. -/
def intrinsic? (m : Machine) (i : Intrinsic) : Option Nat := m.currentRealm.intrinsic? i

/-- Changes an object. -/
def update (m : Machine) (id : Nat) (f : Obj → Obj) : Machine :=
  { m with heap := m.heap.modify id f }

/-- The value of a cell. -/
def cell (m : Machine) (id : Nat) : Value := m.cells[id]?.getD .undefined

/-- What is known of a symbol. -/
def symbolInfo (m : Machine) (id : Nat) : SymbolInfo := m.symbols[id]?.getD ⟨none, false, false⟩

/-- Whether an object can be called. -/
def isCallable (m : Machine) (id : Nat) : Bool :=
  match m.body id with
  | .closure _ | .native _ _ | .bound _ _ _ => true
  | .proxy _ _ c _ => c
  | _ => false

/-- Whether a value can be called. -/
def callable (m : Machine) : Value → Bool
  | .object id => m.isCallable id
  | _ => false

/-- Whether an object can be constructed; bound functions ask what they are bound to. -/
def constructsIn (m : Machine) : Nat → Nat → Bool
  | 0, _ => false
  | fuel + 1, id =>
    match m.body id with
    | .closure c =>
      match c.code.role with
      | .ordinary => c.code.body == .plain
      | .baseConstructor | .derivedConstructor => true
      | _ => false
    | .native f _ => f.constructs
    | .proxy _ _ _ c => c
    | .bound (.object t) _ _ => constructsIn m fuel t
    | _ => false

/-- Whether a value can be constructed. -/
def constructs (m : Machine) : Value → Bool
  | .object id => m.constructsIn (m.heap.size + 1) id
  | _ => false

/-- The bytes of a region. -/
def region (m : Machine) (r : RegionId) : ByteArray := m.regions[r]?.getD .empty

end Machine

namespace Mem

/-- A new object. -/
def alloc (o : Obj) : Mem Nat := modifyGet fun m => (m.heap.size, { m with heap := m.heap.push o })

/-- A new cell. -/
def newCell (v : Value) : Mem Nat :=
  modifyGet fun m => (m.cells.size, { m with cells := m.cells.push v })

/-- A new symbol. -/
def newSymbol (s : SymbolInfo) : Mem Nat :=
  modifyGet fun m => (m.symbols.size, { m with symbols := m.symbols.push s })

/-- A new region. -/
def newRegion (b : ByteArray) : Mem RegionId :=
  modifyGet fun m => (m.regions.size,
    { m with regions := m.regions.push b, regionBytes := m.regionBytes + b.size })

/-- Changes an object. -/
def update (id : Nat) (f : Obj → Obj) : Mem Unit := modify fun m => m.update id f

/-- Puts a property on an object. -/
def putProperty (id : Nat) (k : Key) (p : Property) : Mem Unit :=
  update id fun o => { o with props := o.props.put k p }

/-- Puts a hidden property on an object. -/
def putHidden (id : Nat) (name : String) (v : Value) : Mem Unit :=
  putProperty id (Key.str name) (.hidden v)

/-- Lets work wait in the current realm. -/
def enqueue (j : Job) : Mem Unit := modify fun m => { m with jobs := m.jobs.push (m.realm, j) }

end Mem

end ScriptHost
