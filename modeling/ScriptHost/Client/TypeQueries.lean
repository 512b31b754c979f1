import ScriptHost.Client.Builtins
import ScriptHost.Client.Operation
/-!
# Questions of what a value is

Some of the questions of what a value is are answered by its tag, some by what kind of object it is,
and some by whether the prototype of a constructor stands among its prototypes.  What the answers are
can be told from the machine alone, as long as neither a constructor nor the handler of a proxy has a
say in them.
-/

namespace ScriptHost

/-! ## Prototypes that are shown -/

namespace Machine

variable (m : Machine)

/-- Whether the handler of a proxy leaves an operation to the target, having nothing under its name
that could be called. -/
def leavesToTarget (handler : Nat) (operation : String) : Bool :=
  match m.find (Key.str operation) (some handler) with
  | .absent => true
  | .property _ p => p.value?.any Value.isNullish
  | .proxy _ => false

/-- The prototype that an object shows, where proxies are nested at most `depth` deep and show what
their targets do; none if a handler has a say in it. -/
def shownFrom : Nat → Nat → Option (Option Nat)
  | 0, id =>
    match m.body id with
    | .proxy _ _ _ _ => none
    | _ => some (m.obj id).proto
  | depth + 1, id =>
    match m.body id with
    | .proxy (some target) (some handler) _ _ =>
      if m.leavesToTarget handler "getPrototypeOf" then shownFrom depth target else none
    | .proxy _ _ _ _ => none
    | _ => some (m.obj id).proto

/-- The prototype that an object shows. -/
def shownProto (id : Nat) : Option (Option Nat) := m.shownFrom (Eval.proxyDepth - 1) id

/-- The prototypes that are met on a walk of so many steps. -/
def ancestorsFrom : Nat → Nat → Option (List Nat)
  | 0, _ => some []
  | fuel + 1, id =>
    match m.shownProto id with
    | none => none
    | some none => some []
    | some (some p) => (ancestorsFrom fuel p).map (p :: ·)

/-- The prototypes of an object, the nearest first; none if the handler of a proxy has a say in what
they are. -/
def ancestors (id : Nat) : Option (List Nat) := m.ancestorsFrom (m.heap.size + 1) id

/-- The object under the name `prototype` that a constructor has of its own. -/
def prototypeMember (f : Nat) : Option Nat :=
  (((m.obj f).props.get? (Key.str "prototype")).bind Property.value?).bind Value.objectId?

/-- Whether the prototype of a constructor stands among the prototypes of an object. -/
def inherits (v f : Value) : Bool :=
  match v, f with
  | .object id, .object c =>
    match m.ancestors id, m.prototypeMember c with
    | some ps, some p => decide (p ∈ ps)
    | _, _ => false
  | _, _ => false

/-- Whether a value is an instance of a constructor is told by prototypes alone: the constructor
judges as it was made to, the prototypes are there to be looked at, and there is room for a call. -/
structure TellsInstance (v f : Value) : Prop where
  judges : ∀ id c, v = .object id → f = .object c → ∃ p, m.Makes c p
  shown : ∀ id c, v = .object id → f = .object c → (m.ancestors id).isSome = true
  room : v.isObject = true → f.isObject = true →
    ∀ limit ∈ m.limits.stack, Eval.stackBytes ⟨.undefined, none, {}⟩ ≤ limit

end Machine

/-! ## Questions -/

/-- Whether a value is an object that was made as an error. -/
def Machine.isError (m : Machine) : Value → Bool
  | .object id =>
    match m.body id with
    | .error => true
    | _ => false
  | _ => false

/-- The word for the type of a value. -/
def Machine.typeWord (m : Machine) : Value → String
  | .int _ | .float _ => "number"
  | .bool _ => "boolean"
  | .null => "null"
  | .undefined => "undefined"
  | .uninitialized => "uninitialized"
  | .exception => "exception"
  | .string _ => "string"
  | .symbol _ => "symbol"
  | .bigint _ => "bigint"
  | .object id => if m.callable (.object id) then "function" else "object"

/-- A question of what a value is. -/
inductive TypeQuery where
  | number
  | bigInt
  /-- One that the tag of a value answers. -/
  | tagged (t : Int)
  | error
  | function
  | constructor
  | array
  | map
  | set
  | weakMap
  | weakSet
  | arrayBuffer
  | typedArray (k : ElementKind)
  | elementKind
  | typeName
deriving DecidableEq, Repr

/-- The answer to a question of what a value is. -/
inductive Finding where
  | truth (b : Bool)
  | kind (k : Option ElementKind)
  | word (w : String)
deriving DecidableEq, Repr

namespace TypeQuery

/-- The question as it is put to a host. -/
def ask {σ : Type} [Engine σ] (q : TypeQuery) (h : Handle) : Action σ Finding :=
  match q with
  | number => pure (.truth (Host.isNumber h))
  | bigInt => pure (.truth (Host.isBigInt h))
  | tagged t => pure (.truth (Host.hasTag t h))
  | error => do pure (.truth (← Host.isError h))
  | function => do pure (.truth (← Host.isFunction h))
  | constructor => do pure (.truth (← Host.isConstructor h))
  | array => do pure (.truth (← Host.isArray h))
  | map => do pure (.truth (← Host.isMap h))
  | set => do pure (.truth (← Host.isSet h))
  | weakMap => do pure (.truth (← Host.isWeakMap h))
  | weakSet => do pure (.truth (← Host.isWeakSet h))
  | arrayBuffer => do pure (.truth (← Host.isArrayBuffer h))
  | typedArray k => do pure (.truth (← Host.isTypedArray h k))
  | elementKind => do pure (.kind (← Host.elementKind? h))
  | typeName => do pure (.word (← Host.typeName h))

/-- The constructors that a context looked up and that have a say in the answer. -/
def constructors (q : TypeQuery) (x : Cache) : List Value :=
  match q with
  | array => [x.array]
  | map => [x.map]
  | set => [x.set]
  | weakMap => [x.weakMap]
  | weakSet => [x.weakSet]
  | arrayBuffer => [x.buffer]
  | typedArray k => [x.elements k]
  | elementKind => ElementKind.all.map x.elements
  | number | bigInt | tagged _ | error | function | constructor | typeName => []

/-- The answer, told from the machine. -/
def finding (q : TypeQuery) (x : Cache) (m : Machine) (v : Value) : Finding :=
  match q with
  | number => .truth (v.tag == Tag.int || v.tag == Tag.float)
  | bigInt => .truth (Tag.isBigInt v.tag)
  | tagged t => .truth (v.tag == t)
  | error => .truth (v.isObject && m.isError v)
  | function => .truth (v.isObject && m.callable v)
  | constructor => .truth (v.isObject && m.constructs v)
  | array => .truth (m.inherits v x.array)
  | map => .truth (m.inherits v x.map)
  | set => .truth (m.inherits v x.set)
  | weakMap => .truth (m.inherits v x.weakMap)
  | weakSet => .truth (m.inherits v x.weakSet)
  | arrayBuffer => .truth (m.inherits v x.buffer)
  | typedArray k => .truth (m.inherits v (x.elements k))
  | elementKind => .kind (ElementKind.all.find? fun k => m.inherits v (x.elements k))
  | typeName => .word (m.typeWord v)

/-- Puts questions to a host, one after another. -/
def askAll {σ : Type} [Engine σ] (asked : List (TypeQuery × Handle)) : Action σ (List Finding) :=
  asked.mapM fun a => a.1.ask a.2

/-- The answers to questions, each told from the engine as it is. -/
def findings (s : Host ScriptEngine) (asked : List (TypeQuery × Handle)) : List Finding :=
  asked.map fun a =>
    a.1.finding (Contexts.entry s.contexts a.2.context).cache s.engine.machine a.2.value

end TypeQuery

/-! ## What stays as it is -/

/-- The machine with another record of what is being done: the realm, the calls under way, and how
much of the stack they use.  Every computation begins with a record of its own. -/
def Machine.amid (m : Machine) (r : RealmId) (calls : List CallSite) (used : Nat) : Machine :=
  { m with realm := r, calls := calls, stackUsed := used }

namespace ScriptEngine

variable (e : ScriptEngine)

/-- Nothing waits to be given back or to be put off, and nothing waits to be freed. -/
structure Settled : Prop where
  released : e.machine.released = #[]
  jobs : e.machine.jobs = #[]
  freed : e.machine.watched = true →
    (e.machine.loose (e.roots ++ e.machine.ownRoots)).filter e.machine.isThere = []

/-- An engine that differs at most in its record of what is being done. -/
def Alike (e' : ScriptEngine) : Prop :=
  ∃ r calls used, e' = { e with machine := e.machine.amid r calls used }

end ScriptEngine

/-- A host that differs at most in its engine's record of what is being done. -/
def Host.Alike (s s' : Host ScriptEngine) : Prop :=
  s' = { s with engine := s'.engine } ∧ s.engine.Alike s'.engine

/-- The answer to a question in a host, told from the machine as it is, and what is needed for that: the
context is there, and what is an instance of the constructors that have a say in it is told by
prototypes alone. -/
structure TypeQuery.Told (q : TypeQuery) (s : Host ScriptEngine) (h : Handle) : Prop where
  live : (Contexts.entry s.contexts h.context).realm.isSome = true
  tells : ∀ f ∈ q.constructors (Contexts.entry s.contexts h.context).cache,
    s.engine.machine.TellsInstance h.value f

end ScriptHost
