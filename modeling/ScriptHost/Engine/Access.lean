import ScriptHost.Buffer.Element
import ScriptHost.Engine.Eval
import ScriptHost.Number.Format
import ScriptHost.Number.Reading
/-!
# Reading objects

Own properties, inherited properties, prototypes.  For all objects but proxies these are functions
of the machine alone; a proxy asks its handler, and what it asks of its target is one level further
in.
-/

namespace ScriptHost

/-! ## Without proxies -/

/-- Whether a name is the text of a number, so that typed arrays never look further for it; what is
not a number does not count. -/
def isNumericName (t : Text) : Bool :=
  t == txt "-0" ||
    match Numeral.ofText? t with
    | some d => !t.isEmpty && txt (NumberText.ofFloat d) == t
    | none => false

namespace Machine

/-- The element of a typed array. -/
def element? (m : Machine) (v : TypedView) (i : Nat) : Option Value :=
  if i < v.count then
    match v.region with
    | some r => some (v.kind.readAt (m.region r) (v.offset + i * v.kind.size))
    | none => none
  else none

/-- The own property of an object that is no proxy. -/
def own? (m : Machine) (id : Nat) (k : Key) : Option Property :=
  let o := m.obj id
  match o.body with
  | .string t =>
    match k with
    | .index n =>
      match t.get? n with
      | some u => some ⟨.data (.string (Text.single u)) false, true, false⟩
      | none => o.props.get? k
    | k => o.props.get? k
  | .typed v =>
    match k with
    | .index n => (m.element? v n).map .plain
    -- A name that reads as a number is an index out of reach, and no index is ever in the table.
    | .name t => if isNumericName t then none else o.props.get? k
    | k => o.props.get? k
  | .arguments cells =>
    match k with
    | .index n =>
      -- While a parameter is shared, its value is in the variable and not in the table.
      match cells[n]?.join, o.props.get? k with
      | some c, some p =>
        match p.content with
        | .data _ w => some { p with content := .data (m.cell c) w }
        | _ => some p
      | _, p => p
    | k => o.props.get? k
  | .module exports =>
    match k with
    | .name t =>
      -- What is exported is read from the variable, so later writes of the module are seen.
      match exports.find? (·.1 == t) with
      | some (_, c) => some ⟨.data (m.cell c) true, true, false⟩
      | none => o.props.get? k
    | k => o.props.get? k
  | _ => o.props.get? k

/-- What a walk along prototypes comes to. -/
inductive Found where
  /-- An object with the property. -/
  | property (holder : Nat) (p : Property)
  /-- A proxy, which has to be asked. -/
  | proxy (id : Nat)
  | absent
deriving Inhabited

/-- Whether an object answers for a key alone, so that its prototypes are not asked. -/
def stopsAt (m : Machine) (id : Nat) (k : Key) : Bool :=
  match m.body id with
  | .typed _ =>
    match k with
    | .index _ => true
    | .name t => isNumericName t
    | .symbol _ | .null => false
  | _ => false

/-- Walks along prototypes until something has the property. -/
def findFrom (m : Machine) (k : Key) : Nat → Option Nat → Found
  | 0, _ => .absent
  | _ + 1, none => .absent
  | fuel + 1, some id =>
    match m.body id with
    | .proxy _ _ _ _ => .proxy id
    | _ =>
      match m.own? id k with
      | some p => .property id p
      | none => if m.stopsAt id k then .absent else findFrom m k fuel (m.obj id).proto

/-- Walks along prototypes until something has the property. -/
def find (m : Machine) (k : Key) (start : Option Nat) : Found :=
  m.findFrom k (m.heap.size + 1) start

/-- The own keys of an object that is no proxy. -/
def ownKeys (m : Machine) (id : Nat) : List Key :=
  let o := m.obj id
  match o.body with
  | .string t => (List.range t.size).map .index ++ o.props.keys
  | .typed v => (List.range v.count).map .index ++ o.props.keys
  | .module exports => exports.map (.name ·.1) ++ o.props.keys
  | _ => o.props.keys

/-- A key in the words of a report. -/
def keyText (m : Machine) : Key → Text
  | .index n => Key.natText n
  | .name t => t
  | .symbol id => (m.symbolInfo id).description.getD Text.empty
  | .null => Text.empty

end Machine

namespace Eval

/-- Throws a type error that names a key. -/
def keyError {α : Type} (before : String) (k : Key) (after : String) : Eval α := do
  throwText .type (txt before ++ (← get).keyText k ++ txt after)

/-- The own property of an object that is no proxy, where the prototype of a function is made if
it was not looked at before. -/
def settleOwn (id : Nat) (k : Key) (p : Property) : Eval Property :=
  match p.content with
  | .lazyPrototype => do
    let m ← get
    let realm := match m.body id with
      | .closure c => c.realm
      | _ => m.realm
    let proto := (m.realms[realm]?).bind (·.intrinsic? .objectPrototype)
    let made ← allocWith .ordinary proto
    Mem.putHidden made "constructor" (.object id)
    let p := { p with content := .data (.object made) true }
    Mem.putProperty id k p
    pure p
  | _ => pure p

/-- The own property of an object that is no proxy. -/
def ownPlain (id : Nat) (k : Key) : Eval (Option Property) := do
  match (← get).own? id k with
  | some p => pure (some (← settleOwn id k p))
  | none => pure none

/-! ## Proxies -/

/-- What can be read of an object, one level further in. -/
structure Reading where
  own : Nat → Key → Eval (Option Property)
  get : Nat → Key → Value → Eval Value
  has : Nat → Key → Eval Bool
  proto : Nat → Eval (Option Nat)
  extensible : Nat → Eval Bool

/-- The target of a proxy and the function of its handler for an operation, if it has one. -/
def trap (getOf : Nat → Key → Value → Eval Value) (id : Nat) (name : String) :
    Eval (Nat × Nat × Option Value) := do
  match ← body id with
  | .proxy (some target) (some handler) _ _ => do
    let f ← getOf handler (Key.str name) (.object handler)
    if f.isNullish then pure (target, handler, none)
    else if ← callable f then pure (target, handler, some f)
    else typeError "not a function"
  | _ => typeError "revoked proxy"

/-- Whether a value counts as true. -/
def truthy : Value → Bool
  | .undefined | .null | .uninitialized | .exception => false
  | .bool b => b
  | .int n => n != 0
  | .float d => !(d.isNaN || d == 0)
  | .string t => !t.isEmpty
  | .bigint n => n != 0
  | .symbol _ | .object _ => true

/-- A function member of a descriptor object. -/
def functionOrNone (v : Value) (message : String) : Eval (Option Nat) := do
  match v with
  | .undefined => pure none
  | .object id => if ← callable v then pure (some id) else typeError message
  | _ => typeError message

/-- The definition that an object describes. -/
def descriptorFrom (r : Reading) (v : Value) : Eval Descriptor := do
  match v with
  | .object id => do
    let field (name : String) : Eval (Option Value) := do
      if ← r.has id (Key.str name) then pure (some (← r.get id (Key.str name) v)) else pure none
    -- The order is that of the language: a getter of the description can observe it.
    let enumerable ← field "enumerable"
    let configurable ← field "configurable"
    let value ← field "value"
    let writable ← field "writable"
    let getter ← match ← field "get" with
      | some g => do pure (some (← functionOrNone g "invalid getter"))
      | none => pure none
    let setter ← match ← field "set" with
      | some s => do pure (some (← functionOrNone s "invalid setter"))
      | none => pure none
    let d : Descriptor :=
      { value := value, writable := writable.map truthy, getter := getter, setter := setter
        enumerable := enumerable.map truthy, configurable := configurable.map truthy }
    if d.isAccessor && d.isData then typeError "cannot have setter/getter and value or writable"
    pure d
  | _ => typeError "not an object"

/-- Whether a definition may stand for a property of an object, present or not. -/
def compatible (extensible : Bool) (d : Descriptor) : Option Property → Bool
  | none => extensible
  | some p => d.allowedBy p

/-- The own property of an object. -/
def ownRule (r : Reading) (id : Nat) (k : Key) : Eval (Option Property) := do
  match ← body id with
  | .proxy _ _ _ _ => do
    match ← trap r.get id "getOwnPropertyDescriptor" with
    | (target, _, none) => r.own target k
    | (target, handler, some f) => do
      let v ← call f (.object handler) #[.object target, k.toValue]
      let bad {α : Type} : Eval α := typeError "proxy: inconsistent getOwnPropertyDescriptor"
      match v with
      | .undefined | .object _ => pure ()
      | _ => bad
      let old ← r.own target k
      match v with
      | .undefined => do
        match old with
        | none => pure none
        | some p => do
          -- A proxy cannot hide what its target has for good, nor anything of a target that is
          -- closed.
          if !p.configurable then bad
          if !(← r.extensible target) then bad
          pure none
      | v => do
        let open? ← r.extensible target
        let d ← descriptorFrom r v
        let p := d.toProperty
        if !(compatible open? (Descriptor.ofProperty p) old) then bad
        if !p.configurable then
          match old with
          | none => bad
          | some o =>
            -- Nor can it say that a property is there for good while the target may still lose it.
            if o.configurable then bad
            if !d.isAccessor && !p.isWritable && o.isWritable then bad
        pure (some p)
  | _ => ownPlain id k

/-- Reads a property that was found. -/
def readProperty (receiver : Value) (p : Property) : Eval Value :=
  match p.content with
  | .data v _ => pure v
  | .accessor (some g) _ => call (.object g) receiver #[]
  | _ => pure .undefined

/-- The value of a property, own or inherited. -/
def getRule (r : Reading) (id : Nat) (k : Key) (receiver : Value) : Eval Value := do
  match (← get).find k (some id) with
  | .property holder p => do readProperty receiver (← settleOwn holder k p)
  | .absent => pure .undefined
  | .proxy q => do
    match ← trap r.get q "get" with
    | (target, _, none) => r.get target k receiver
    | (target, handler, some f) => do
      let v ← call f (.object handler) #[.object target, k.toValue, receiver]
      match ← r.own target k with
      | some p =>
        if !p.configurable then
          match p.content with
          | .data w false => if !(w.sameValue v) then typeError "proxy: inconsistent get"
          | .accessor none _ => if v != .undefined then typeError "proxy: inconsistent get"
          | _ => pure ()
        pure v
      | none => pure v

/-- Whether an object has a property, own or inherited. -/
def hasRule (r : Reading) (id : Nat) (k : Key) : Eval Bool := do
  match (← get).find k (some id) with
  | .property _ _ => pure true
  | .absent => pure false
  | .proxy q => do
    match ← trap r.get q "has" with
    | (target, _, none) => r.has target k
    | (target, handler, some f) => do
      let b := truthy (← call f (.object handler) #[.object target, k.toValue])
      if !b then
        match ← r.own target k with
        | some p =>
          if !p.configurable then typeError "proxy: inconsistent has"
          if !(← r.extensible target) then typeError "proxy: inconsistent has"
        | none => pure ()
      pure b

/-- The prototype of an object. -/
def protoRule (r : Reading) (id : Nat) : Eval (Option Nat) := do
  match ← body id with
  | .proxy _ _ _ _ => do
    match ← trap r.get id "getPrototypeOf" with
    | (target, _, none) => r.proto target
    | (target, handler, some f) => do
      let p ← match ← call f (.object handler) #[.object target] with
        | .object p => pure (some p)
        | .null => pure none
        | _ => typeError "proxy: bad prototype"
      if ← r.extensible target then pure p
      else if (← r.proto target) == p then pure p
      else typeError "proxy: inconsistent prototype"
  | _ => do pure ((← get).obj id).proto

/-- Whether new properties can be put on an object. -/
def extensibleRule (r : Reading) (id : Nat) : Eval Bool := do
  match ← body id with
  | .proxy _ _ _ _ => do
    match ← trap r.get id "isExtensible" with
    | (target, _, none) => r.extensible target
    | (target, handler, some f) => do
      let b := truthy (← call f (.object handler) #[.object target])
      if b != (← r.extensible target) then typeError "proxy: inconsistent isExtensible"
      pure b
  | _ => do pure ((← get).obj id).extensible

/-- Reading objects, where proxies are nested at most `depth` deep. -/
def reading : Nat → Reading
  | 0 =>
    { own := fun _ _ => stackOverflow, get := fun _ _ _ => stackOverflow
      has := fun _ _ => stackOverflow, proto := fun _ => stackOverflow
      extensible := fun _ => stackOverflow }
  | depth + 1 =>
    { own := fun id k => ownRule (reading depth) id k
      get := fun id k v => getRule (reading depth) id k v
      has := fun id k => hasRule (reading depth) id k
      proto := fun id => protoRule (reading depth) id
      extensible := fun id => extensibleRule (reading depth) id }

/-- How deep proxies may be nested. -/
def proxyDepth : Nat := 1000

/-! ## In use -/

/-- The own property of an object. -/
def ownProperty (id : Nat) (k : Key) : Eval (Option Property) := (reading proxyDepth).own id k

/-- The value of a property of an object, for a receiver. -/
def getFor (id : Nat) (k : Key) (receiver : Value) : Eval Value :=
  (reading proxyDepth).get id k receiver

/-- The value of a property of an object. -/
def getProp (id : Nat) (k : Key) : Eval Value := getFor id k (.object id)

/-- The value of a named property of an object. -/
def getNamed (id : Nat) (name : String) : Eval Value := getProp id (Key.str name)

/-- Whether an object has a property, own or inherited. -/
def hasProperty (id : Nat) (k : Key) : Eval Bool := (reading proxyDepth).has id k

/-- Whether an object has a property of its own. -/
def hasOwn (id : Nat) (k : Key) : Eval Bool := do pure (← ownProperty id k).isSome

/-- The prototype of an object. -/
def protoOf (id : Nat) : Eval (Option Nat) := (reading proxyDepth).proto id

/-- Whether new properties can be put on an object. -/
def isExtensible (id : Nat) : Eval Bool := (reading proxyDepth).extensible id

/-- The definition that an object describes. -/
def toDescriptor (v : Value) : Eval Descriptor := descriptorFrom (reading proxyDepth) v

/-- The intrinsic prototype of values that are no objects. -/
def primitiveProto : Value → Option Intrinsic
  | .string _ => some .stringPrototype
  | .int _ | .float _ => some .numberPrototype
  | .bool _ => some .booleanPrototype
  | .symbol _ => some .symbolPrototype
  | .bigint _ => some .bigintPrototype
  | _ => none

/-- The value of a property of any value. -/
def getOf (v : Value) (k : Key) : Eval Value := do
  match v with
  | .object id => getFor id k v
  | .null => keyError "cannot read property '" k "' of null"
  | .undefined => keyError "cannot read property '" k "' of undefined"
  | .exception => throw .uninitialized
  | .string t =>
    match k with
    | .index n =>
      match t.get? n with
      | some u => pure (.string (Text.single u))
      | none => inherited v
    | .name n => if n == txt "length" then pure (Value.ofNat t.size) else inherited v
    | .symbol _ | .null => inherited v
  | v => inherited v
where
  /-- The same, from the prototype of such values. -/
  inherited (v : Value) : Eval Value := do
    match primitiveProto v with
    | some i => do
      match ← intrinsic i with
      | some p => getFor p k v
      | none => pure .undefined
    | none => pure .undefined

/-- The value of a named property of any value. -/
def getField (v : Value) (name : String) : Eval Value := getOf v (Key.str name)

/-- A method of a value; none if it is undefined or null. -/
def getMethod (v : Value) (k : Key) : Eval (Option Value) := do
  let f ← getOf v k
  if f.isNullish then pure none
  else if ← callable f then pure (some f)
  else typeError "not a function"

/-- Calls a method of a value. -/
def invoke (v : Value) (k : Key) (args : Array Value) : Eval Value := do
  let f ← getOf v k
  call f v args

end Eval

end ScriptHost
