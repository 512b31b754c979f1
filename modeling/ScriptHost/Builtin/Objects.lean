import ScriptHost.Builtin.Member
/-!
# Objects

The constructor of objects, its functions, and what every object inherits.
-/

namespace ScriptHost

namespace Builtin

open Eval

/-- Makes an object, or gives the one that stands for a value. -/
def objectConstructor (c : NativeCall) : Eval Value := do
  if !c.target.isUndefined && c.target != .object c.callee then
    pure (.object (← allocFor .ordinary c.target .objectPrototype))
  else if (c.arg 0).isNullish then pure (.object (← newObject))
  else pure (.object (← toObject (c.arg 0)))

/-- A prototype as a value. -/
def protoValue : Option Nat → Value
  | some p => .object p
  | none => .null

/-- A prototype from a value. -/
def protoArg (v : Value) : Eval (Option Nat) := do
  match v with
  | .object p => pure (some p)
  | .null => pure none
  | _ => typeError "not an object"

/-- Defines the properties that the members of an object describe. -/
def defineAll (id : Nat) (v : Value) : Eval Unit := do
  let s ← toObject v
  let keys ← selectKeys s true true false true
  let ds ← keys.mapM fun k => do pure (k, ← toDescriptor (← getProp s k))
  for (k, d) in ds do
    orThrow (← define id k d)

/-- The text of the key of an own property, as a list of values. -/
def keyList (keys : List Key) : Eval Value := newArray (keys.map Key.toValue).toArray

/-- Own keys, values or pairs of an object. -/
def ownList (walk : Walk) (c : NativeCall) : Eval Value := do
  let id ← toObject (c.arg 0)
  let keys ← selectKeys id true false false (walk == .keys)
  let mut out := #[]
  for k in keys do
    match walk with
    | .keys => out := out.push k.toValue
    | _ =>
      match ← ownProperty id k with
      | some p =>
        if p.enumerable then
          let v ← getProp id k
          match walk with
          | .entries => out := out.push (← newArray #[k.toValue, v])
          | _ => out := out.push v
      | none => pure ()
  newArray out

/-- Makes every own property fixed, and also read-only if asked. -/
def fixAll (freeze : Bool) (v : Value) : Eval Value := do
  match v with
  | .object id => do
    orThrow (← preventExtensions id)
    for k in ← selectKeys id true true false false do
      match ← ownProperty id k with
      | some p =>
        let readOnly := match p.content with
          | .data _ _ => freeze
          | _ => false
        let d : Descriptor := { configurable := some false }
        orThrow (← define id k (if readOnly then { d with writable := some false } else d))
      | none => pure ()
    pure v
  | v => pure v

/-- Whether every own property is fixed, and also read-only if asked. -/
def allFixed (freeze : Bool) (v : Value) : Eval Value := do
  match v with
  | .object id => do
    for k in ← selectKeys id true true false false do
      match ← ownProperty id k with
      | some p => if p.configurable || (freeze && p.isWritable) then return .bool false
      | none => pure ()
    pure (.bool (!(← isExtensible id)))
  | _ => pure (.bool true)

/-- Gathers items in groups, each under a key that a function gives. -/
def groupItems {κ : Type} (items f : Value) (same : κ → κ → Bool) (toKey : Value → Eval κ) :
    Eval (Array (κ × Array Value)) := do
  if items.isNullish then typeError "cannot read property 'Symbol.iterator' of null"
  if !(← callable f) then typeError "not a function"
  let it ← openItems items
  let r ← foldItems it ((0 : Nat), (#[] : Array (κ × Array Value))) fun (i, groups) v => do
    let k ← toKey (← call f .undefined #[v, Value.ofNat i])
    match groups.findIdx? (fun g => same g.1 k) with
    | some j => pure (i + 1, groups.modify j fun g => (g.1, g.2.push v))
    | none => pure (i + 1, groups.push (k, #[v]))
  pure r.2

/-- Functions of the constructor of objects. -/
def objectStatics : Array Native := #[
  method "create" 2 fun c => do
    let p ← match c.arg 0 with
      | .object p => pure (some p)
      | .null => pure none
      | _ => typeError "not a prototype"
    let id ← allocWith .ordinary p
    if !(c.arg 1).isUndefined then defineAll id (c.arg 1)
    pure (.object id),
  method "getPrototypeOf" 1 fun c => do pure (protoValue (← protoOf (← toObject (c.arg 0)))),
  method "setPrototypeOf" 2 fun c => do
    let v := c.arg 0
    if v.isNullish then typeError "not an object"
    let p ← protoArg (c.arg 1)
    match v with
    | .object id => orThrow (← setProto id p)
    | _ => pure ()
    pure v,
  method "defineProperty" 3 fun c => do
    let id ← needObject (c.arg 0)
    let k ← toKey (c.arg 1)
    let d ← toDescriptor (c.arg 2)
    orThrow (← define id k d)
    pure (c.arg 0),
  method "defineProperties" 2 fun c => do
    let id ← needObject (c.arg 0)
    defineAll id (c.arg 1)
    pure (c.arg 0),
  method "getOwnPropertyNames" 1 fun c => do
    let id ← toObject (c.arg 0)
    keyList (← selectKeys id true false false false),
  method "getOwnPropertySymbols" 1 fun c => do
    let id ← toObject (c.arg 0)
    keyList (← selectKeys id false true false false),
  method "groupBy" 2 fun c => do
    let groups ← groupItems (c.arg 0) (c.arg 1) (· == ·) toKey
    let id ← allocWith .ordinary none
    for (k, xs) in groups do
      put id k (← newArray xs)
    pure (.object id),
  method "keys" 1 (ownList .keys),
  method "values" 1 (ownList .values),
  method "entries" 1 (ownList .entries),
  method "isExtensible" 1 fun c => do
    match c.arg 0 with
    | .object id => do pure (.bool (← isExtensible id))
    | _ => pure (.bool false),
  method "preventExtensions" 1 fun c => do
    match c.arg 0 with
    | .object id => do
      orThrow (← preventExtensions id)
      pure (c.arg 0)
    | v => pure v,
  method "getOwnPropertyDescriptor" 2 fun c => do
    let id ← toObject (c.arg 0)
    let k ← toKey (c.arg 1)
    match ← ownProperty id k with
    | some p => fromDescriptor (Descriptor.ofProperty p)
    | none => pure .undefined,
  method "getOwnPropertyDescriptors" 1 fun c => do
    let id ← toObject (c.arg 0)
    let out ← newObject
    for k in ← selectKeys id true true false false do
      match ← ownProperty id k with
      | some p => put out k (← fromDescriptor (Descriptor.ofProperty p))
      | none => pure ()
    pure (.object out),
  method "is" 2 fun c => pure (.bool ((c.arg 0).sameValue (c.arg 1))),
  method "assign" 2 fun c => do
    let id ← toObject (c.arg 0)
    for v in c.args.extract 1 c.args.size do
      if !v.isNullish then
        let s ← toObject v
        for k in ← selectKeys s true true false false do
          match ← ownProperty s k with
          | some p => if p.enumerable then setProp id k (← getProp s k)
          | none => pure ()
    pure (.object id),
  method "seal" 1 fun c => fixAll false (c.arg 0),
  method "freeze" 1 fun c => fixAll true (c.arg 0),
  method "isSealed" 1 fun c => allFixed false (c.arg 0),
  method "isFrozen" 1 fun c => allFixed true (c.arg 0),
  method "fromEntries" 1 fun c => do
    let id ← newObject
    let it ← openItems (c.arg 0)
    eachItem it fun _ e => do
      let e ← needObject e
      let k ← getProp e (.index 0)
      let v ← getProp e (.index 1)
      createProp id (← toKey k) v
    pure (.object id),
  method "hasOwn" 2 fun c => do
    let id ← toObject (c.arg 0)
    pure (.bool (← hasOwn id (← toKey (c.arg 1))))]

/-- The word for an object in its default text. -/
def classWord (id : Nat) : Eval String := do
  if ← isArray (.object id) then pure "Array"
  else
    let m ← get
    if m.isCallable id then pure "Function"
    else
      pure (match m.body id with
        | .error => "Error"
        | .boolean _ => "Boolean"
        | .number _ => "Number"
        | .string _ => "String"
        | .arguments _ => "Arguments"
        | .date _ => "Date"
        | .regexp _ _ => "RegExp"
        | _ => "Object")

/-- The default text of a value. -/
def defaultText (v : Value) : Eval Value := do
  match v with
  | .undefined => pure (.str "[object Undefined]")
  | .null => pure (.str "[object Null]")
  | v => do
    let id ← toObject v
    let word ← classWord id
    match ← getFor id (.symbol WellKnown.toStringTag) v with
    | .string t => pure (.string (txt "[object " ++ t ++ txt "]"))
    | _ => pure (.str ("[object " ++ word ++ "]"))

/-- What every object inherits. -/
def objectPrototype : Array Native := #[
  method "toString" 0 fun c => defaultText c.this,
  method "toLocaleString" 0 fun c => invoke c.this (Key.str "toString") #[],
  method "valueOf" 0 fun c => do pure (.object (← thisObject c)),
  method "hasOwnProperty" 1 fun c => do
    let k ← toKey (c.arg 0)
    let id ← thisObject c
    pure (.bool (← hasOwn id k)),
  method "isPrototypeOf" 1 fun c => do
    match c.arg 0 with
    | .object o => do
      let id ← thisObject c
      pure (.bool (← hasPrototype id ((← get).heap.size + 1) o))
    | _ => pure (.bool false),
  method "propertyIsEnumerable" 1 fun c => do
    let k ← toKey (c.arg 0)
    let id ← thisObject c
    match ← ownProperty id k with
    | some p => pure (.bool p.enumerable)
    | none => pure (.bool false),
  getter "__proto__" fun c => do pure (protoValue (← protoOf (← thisObject c))),
  setter "__proto__" fun c => do
    if c.this.isNullish then typeError "not an object"
    match c.this, c.arg 0 with
    | .object id, .object p => orThrow (← setProto id (some p))
    | .object id, .null => orThrow (← setProto id none)
    | _, _ => pure ()
    pure .undefined,
  method "__defineGetter__" 2 fun c => accessorFor c true,
  method "__defineSetter__" 2 fun c => accessorFor c false,
  method "__lookupGetter__" 1 fun c => lookupFor c true,
  method "__lookupSetter__" 1 fun c => lookupFor c false]
where
  /-- Defines a getter or setter. -/
  accessorFor (c : NativeCall) (isGetter : Bool) : Eval Value := do
    let id ← thisObject c
    match ← functionArg c 1 with
    | .object f => do
      let k ← toKey (c.arg 0)
      let d : Descriptor := { enumerable := some true, configurable := some true }
      orThrow (← define id k
        (if isGetter then { d with getter := some (some f) }
          else { d with setter := some (some f) }))
      pure .undefined
    | _ => pure .undefined
  /-- Finds a getter or setter. -/
  lookupFor (c : NativeCall) (isGetter : Bool) : Eval Value := do
    let id ← thisObject c
    let k ← toKey (c.arg 0)
    search k isGetter ((← get).heap.size + 1) (some id)
  /-- Walks along prototypes. -/
  search (k : Key) (isGetter : Bool) : Nat → Option Nat → Eval Value
    | 0, _ => pure .undefined
    | _ + 1, none => pure .undefined
    | fuel + 1, some id => do
      match ← ownProperty id k with
      | some p =>
        match p.content with
        | .accessor g s =>
          pure (match if isGetter then g else s with
            | some f => .object f
            | none => .undefined)
        | _ => pure .undefined
      | none => do search k isGetter fuel (← protoOf id)

end Builtin

end ScriptHost
