import ScriptHost.Engine.Convert
/-!
# Changing objects

Assignment, definition, deletion, own keys, prototypes and extensibility.  An operation that is
refused says why; whether that is an error is for the caller to say.
-/

namespace ScriptHost

/-- How a change ended. -/
inductive Change where
  | done
  | refused (reason : Text)
deriving DecidableEq, Inhabited

namespace Eval

/-- A refusal in plain words. -/
def refuse (reason : String) : Eval Change := pure (.refused (txt reason))

/-- The refusal to write something that is read-only. -/
def readOnly (k : Key) : Eval Change := do
  pure (.refused (txt "'" ++ (← get).keyText k ++ txt "' is read-only"))

/-- Makes a refusal an error. -/
def orThrow (c : Change) : Eval Unit :=
  match c with
  | .done => pure ()
  | .refused reason => throwText .type reason

/-- What can be changed of an object, one level further in. -/
structure Writing where
  set : Nat → Key → Value → Value → Eval Change
  define : Nat → Key → Descriptor → Eval Change
  delete : Nat → Key → Eval Change
  keys : Nat → Eval (List Key)
  setProto : Nat → Option Nat → Eval Change
  close : Nat → Eval Change

/-! ## Arrays -/

/-- The length of an array. -/
def arrayLength (m : Machine) (id : Nat) : Nat :=
  match ((m.obj id).props.get? (Key.str "length")).bind (·.value?) with
  | some v =>
    match integerPart (v.number?.getD 0) with
    | .ok n => n.toNat
    | .error _ => 0
  | none => 0

/-- Whether the length of an array may change. -/
def lengthWritable (m : Machine) (id : Nat) : Bool :=
  match (m.obj id).props.get? (Key.str "length") with
  | some p => p.isWritable
  | none => false

/-- Stores the length of an array. -/
def storeLength (id n : Nat) (writable : Bool) : Mem Unit :=
  Mem.putProperty id (Key.str "length") ⟨.data (Value.ofNat n) writable, false, false⟩

/-- An integer that must be an array length. -/
def lengthOfInt (i : Int) : Eval Nat :=
  if 0 ≤ i && i < twoTo 32 then pure i.toNat else rangeError "invalid array length"

/-- The array length that a value stands for.  It is converted twice, and both numbers must
agree. -/
def toArrayLength (v : Value) : Eval Nat := do
  match v with
  | .bigint i => lengthOfInt i
  | v => do
    let n ← toInt32 v
    match Binary.asInteger? (← toFloat v) with
    | some i => do
      let l ← lengthOfInt i
      if n.toUInt32.toNat == l then pure l else rangeError "invalid array length"
    | none => rangeError "invalid array length"

/-- Drops items from the end until the length is reached or one stays. -/
def dropItems (id : Nat) (length : Nat) : List Nat → Eval (Option Nat)
  | [] => pure none
  | i :: rest => do
    match (← get).own? id (.index i) with
    | some p =>
      if p.configurable then
        modify fun m => m.update id fun o => { o with props := o.props.erase (.index i) }
        dropItems id length rest
      else pure (some i)
    | none => dropItems id length rest

/-- Gives an array a length. -/
def setLength (id n : Nat) : Eval Change := do
  let m ← get
  let old := arrayLength m id
  if n ≥ old then
    if n != old && !lengthWritable m id then readOnly (Key.str "length")
    else
      storeLength id n (lengthWritable m id)
      pure .done
  else if !lengthWritable m id then readOnly (Key.str "length")
  else
    let above := ((m.obj id).props.indices.keys.filter (n ≤ ·)).reverse
    match ← dropItems id n above with
    | none => do
      storeLength id n true
      pure .done
    | some i => do
      storeLength id (i + 1) true
      refuse "not configurable"

/-! ## Own properties -/

/-- Whether an object is an array. -/
def isPlainArray (id : Nat) : Eval Bool := do
  match ← body id with
  | .array => pure true
  | _ => pure false

/-- Adds a property to an object that has none under the key. -/
def addProperty (id : Nat) (k : Key) (p : Property) : Eval Change := do
  let m ← get
  if !(m.obj id).extensible then refuse "object is not extensible"
  else
    match m.body id, k with
    | .array, .index n => do
      let len := arrayLength m id
      if n ≥ len then
        if !lengthWritable m id then return ← readOnly (Key.str "length")
        storeLength id (n + 1) true
      Mem.putProperty id k p
      pure .done
    | _, _ => do
      Mem.putProperty id k p
      pure .done

/-- Stores bytes in a region. -/
def writeRegion (r : RegionId) (f : ByteArray → ByteArray) : Mem Unit :=
  modify fun m => { m with regions := m.regions.modify r f }

/-- The numeric value that an element of a kind is made of. -/
def toElement (kind : ElementKind) (v : Value) : Eval Value := do
  if kind.isBig then pure (.bigint (← toBigInt v)) else toNumber v

/-- Stores an element of a typed array; nothing happens out of reach. -/
def storeElement (id i : Nat) (v : Value) : Eval Unit := do
  match ← body id with
  | .typed t =>
    if i < t.count then
      match t.region with
      | some r => writeRegion r fun b => t.kind.writeAt b (t.offset + i * t.kind.size) v
      | none => pure ()
  | _ => pure ()

/-- The value under a key of shared arguments changes the parameter too. -/
def writeShared (id : Nat) (k : Key) (v : Value) : Eval Unit := do
  match ← body id, k with
  | .arguments cells, .index n =>
    match cells[n]?.join with
    | some c => setCell c v
    | none => pure ()
  | _, _ => pure ()

/-- From now on an argument is no parameter. -/
def unshare (id : Nat) (k : Key) : Eval Unit := do
  match ← body id, k with
  | .arguments cells, .index n => setBody id (.arguments (cells.setIfInBounds n none))
  | _, _ => pure ()

/-- Replaces the value of an own property that holds one. -/
def replaceValue (id : Nat) (k : Key) (p : Property) (v : Value) : Eval Change := do
  match ← body id, k with
  | .typed _, .index i => do
    storeElement id i v
    pure .done
  | .module exports, .name t => do
    match exports.find? (·.1 == t) with
    | some (_, c) => do
      setCell c v
      pure .done
    | none => pure .done
  | .array, .name t =>
    -- The length of an array is not an ordinary value: setting it removes items.
    if t == txt "length" then do setLength id (← toArrayLength v)
    else do
      Mem.putProperty id k { p with content := .data v true }
      pure .done
  | _, _ => do
    writeShared id k v
    Mem.putProperty id k { p with content := .data v true }
    pure .done

/-! ## Rules -/

/-- Assigns a value to a property that was found nowhere. -/
def addValue (w : Writing) (receiver : Value) (k : Key) (v : Value) : Eval Change := do
  match receiver with
  | .object id => do
    match ← body id with
    | .proxy _ _ _ _ => do
      match ← ownProperty id k with
      | some p =>
        if !p.isWritable then return ← readOnly k
        w.define id k { value := some v }
      | none => w.define id k (.plain v)
    | .module _ => readOnly k
    | _ => addProperty id k (.plain v)
  | _ => refuse "not an object"

/-- Assigns a value where a property was found on another object than the receiver. -/
def setOnReceiver (w : Writing) (receiver : Value) (k : Key) (v : Value) : Eval Change := do
  match receiver with
  | .object id => do
    match ← ownProperty id k with
    | some p =>
      match p.content with
      | .data _ writable =>
        if writable then
          match ← body id with
          | .proxy _ _ _ _ => w.define id k { value := some v }
          | _ => replaceValue id k p v
        else readOnly k
      | .accessor _ _ => readOnly k
      | .lazyPrototype => readOnly k
    | none => addValue w receiver k v
  | _ => refuse "not an object"

/-- Calls the setter of a property. -/
def callSetter (setter : Option Nat) (receiver : Value) (v : Value) : Eval Change := do
  match setter with
  | some s => do
    let _ ← call (.object s) receiver #[v]
    pure .done
  | none => refuse "no setter for property"

/-- Assignment. -/
def setRule (w : Writing) (id : Nat) (k : Key) (v receiver : Value) : Eval Change := do
  let m ← get
  match m.body id with
  | .typed t =>
    -- Writing at a number ends at the typed array, in range or not; its prototypes never see it.
    if receiver == .object id && m.stopsAt id k then do
      let x ← toElement t.kind v
      match k with
      | .index i => storeElement id i x
      | _ => pure ()
      return .done
  | _ => pure ()
  match m.find k (some id) with
  | .property holder p => do
    let p ← settleOwn holder k p
    match p.content with
    | .accessor _ s => callSetter s receiver v
    | .data _ false => readOnly k
    | _ =>
      -- The holder may be a prototype: then the receiver gets a property of its own.
      if receiver == .object holder then replaceValue holder k p v
      else if receiver == .object id then addValue w receiver k v
      else setOnReceiver w receiver k v
  | .absent =>
    if receiver == .object id then addValue w receiver k v else setOnReceiver w receiver k v
  | .proxy q => do
    match ← trap getFor q "set" with
    | (target, _, none) => w.set target k v receiver
    | (target, handler, some f) => do
      if truthy (← call f (.object handler) #[.object target, k.toValue, v, receiver]) then
        -- The handler may not claim a write that the target rules out for good.
        match ← ownProperty target k with
        | some p =>
          if !p.configurable then
            match p.content with
            | .data old false => if !(old.sameValue v) then typeError "proxy: inconsistent set"
            | .accessor _ none => typeError "proxy: inconsistent set"
            | _ => pure ()
          pure .done
        | none => pure .done
      else refuse "proxy: cannot set property"

/-- Definition on an array. -/
def defineOnArray (id : Nat) (k : Key) (d : Descriptor) (p : Property) : Eval Change := do
  if k == Key.str "length" then
    match d.value with
    | some v => do
      let n ← toArrayLength v
      let m ← get
      -- Converting the number may have run scripts, so the length is looked at anew.
      if !({ d with value := some (Value.ofNat n) } : Descriptor).allowedBy
          { p with content := .data (Value.ofNat (arrayLength m id)) (lengthWritable m id) } then
        refuse "property is not configurable"
      else
        let r ← setLength id n
        -- Items go first: a length that is already fixed could not be set.
        if d.writable == some false then
          storeLength id (arrayLength (← get) id) false
        pure r
    | none => do
      if !d.allowedBy p then refuse "property is not configurable"
      else
        Mem.putProperty id k (d.applyTo p)
        pure .done
  else if !d.allowedBy p then refuse "property is not configurable"
  else
    Mem.putProperty id k (d.applyTo p)
    pure .done

/-- Definition on an object that is no proxy. -/
def definePlain (id : Nat) (k : Key) (d : Descriptor) : Eval Change := do
  let m ← get
  match m.body id with
  | .typed t =>
    if m.stopsAt id k then
      match k with
      | .index i =>
        if i ≥ t.count then return ← refuse "out-of-bound index in typed array"
        if d.configurable == some false || d.enumerable == some false || d.isAccessor
            || d.writable == some false then
          return ← refuse "invalid descriptor flags"
        match d.value with
        | some v => do
          let x ← toElement t.kind v
          storeElement id i x
          return .done
        | none => return .done
      | _ => return ← refuse "non integer index in typed array"
  | .module _ => if (m.own? id k).isSome then return ← refuse "property is not configurable"
  | _ => pure ()
  match ← ownPlain id k with
  | none => addProperty id k d.toProperty
  | some p => do
    match m.body id with
    | .array => defineOnArray id k d p
    -- A definition reaches the parameter that is shared; one that fixes the value ends the sharing.
    | .arguments _ => do
      if !d.allowedBy p then refuse "property is not configurable"
      else
        match d.value with
        | some v => writeShared id k v
        | none => pure ()
        if d.isAccessor || d.writable == some false then unshare id k
        Mem.putProperty id k (d.applyTo p)
        pure .done
    | .string t =>
      match k with
      | .index n =>
        if n < t.size then
          if d.allowedBy p then pure .done else refuse "property is not configurable"
        else definedOver id k d p
      | _ => definedOver id k d p
    | _ => definedOver id k d p
where
  /-- Definition over a property that is there. -/
  definedOver (id : Nat) (k : Key) (d : Descriptor) (p : Property) : Eval Change := do
    if !d.allowedBy p then refuse "property is not configurable"
    else
      Mem.putProperty id k (d.applyTo p)
      pure .done

/-- The object that describes a definition. -/
def fromDescriptor (d : Descriptor) : Eval Value := do
  let id ← newObject
  let field (name : String) (v : Option Value) : Eval Unit :=
    match v with
    | some v => put id (Key.str name) v
    | none => pure ()
  let fn (f : Option Nat) : Value :=
    match f with
    | some id => .object id
    | none => .undefined
  field "value" d.value
  field "writable" (d.writable.map .bool)
  field "get" (d.getter.map fn)
  field "set" (d.setter.map fn)
  field "enumerable" (d.enumerable.map .bool)
  field "configurable" (d.configurable.map .bool)
  pure (.object id)

/-- Definition. -/
def defineRule (w : Writing) (id : Nat) (k : Key) (d : Descriptor) : Eval Change := do
  match ← body id with
  | .proxy _ _ _ _ => do
    match ← trap getFor id "defineProperty" with
    | (target, _, none) => w.define target k d
    | (target, handler, some f) => do
      let o ← fromDescriptor d
      if truthy (← call f (.object handler) #[.object target, k.toValue, o]) then
        -- What the handler claims is checked against the target: nothing is added to a closed one,
        -- and nothing is fixed that the target could still change.
        let old ← ownProperty target k
        let fixed := d.configurable == some false
        let bad {α : Type} : Eval α := typeError "proxy: inconsistent defineProperty"
        match old with
        | none => do
          if !(← isExtensible target) then bad
          if fixed then bad
        | some p => do
          if !d.allowedBy p then bad
          if fixed && p.configurable then bad
          if !p.configurable && p.isWritable && d.writable == some false then bad
        pure .done
      else refuse "proxy: defineProperty exception"
  | _ => definePlain id k d

/-- Deletion. -/
def deleteRule (w : Writing) (id : Nat) (k : Key) : Eval Change := do
  match ← body id with
  | .proxy _ _ _ _ => do
    match ← trap getFor id "deleteProperty" with
    | (target, _, none) => w.delete target k
    | (target, handler, some f) => do
      if truthy (← call f (.object handler) #[.object target, k.toValue]) then
        match ← ownProperty target k with
        | some p => do
          if !p.configurable then typeError "proxy: inconsistent deleteProperty"
          if !(← isExtensible target) then typeError "proxy: inconsistent deleteProperty"
          pure .done
        | none => pure .done
      else refuse "could not delete property"
  | b => do
    match (← get).own? id k with
    | none => pure .done
    | some p => do
      let kept := match b with
        -- Items of a typed array cannot be taken out, whatever their attributes say.
        | .typed _ => (match k with
          | .index _ => true
          | _ => !p.configurable)
        | _ => !p.configurable
      if kept then refuse "could not delete property"
      else
        unshare id k
        modify fun m => m.update id fun o => { o with props := o.props.erase k }
        pure .done

/-- The keys that the handler of a proxy gives. -/
def trapKeys (v : Value) : Eval (List Key) := do
  let items ← listOf v
  let mut out : Array Key := #[]
  for x in items do
    match x with
    | .string t => out := out.push (Key.ofText t)
    | .symbol s => out := out.push (.symbol s)
    | _ => typeError "proxy: properties must be strings or symbols"
  pure out.toList

/-- The own keys of an object. -/
def keysRule (w : Writing) (id : Nat) : Eval (List Key) := do
  match ← body id with
  | .proxy _ _ _ _ => do
    match ← trap getFor id "ownKeys" with
    | (target, _, none) => w.keys target
    | (target, handler, some f) => do
      let keys ← trapKeys (← call f (.object handler) #[.object target])
      if keys.length != keys.eraseDups.length then typeError "proxy: duplicate property"
      let open? ← isExtensible target
      let own ← w.keys target
      for k in own do
        let fixed ← match ← ownProperty target k with
          | some p => pure (!p.configurable)
          | none => pure false
        if fixed || !open? then
          if !keys.contains k then
            typeError "proxy: target property must be present in proxy ownKeys"
      if !open? && keys.length != own.length then
        typeError "proxy: property not present in target were returned by non extensible proxy"
      pure keys
  | _ => do
    pure (((← get).ownKeys id).filter fun
      | _ => true)

/-- Whether an object stands among the prototypes of another. -/
def reaches (m : Machine) (goal : Nat) : Nat → Option Nat → Bool
  | 0, _ => false
  | _ + 1, none => false
  | fuel + 1, some id =>
    id == goal ||
      (match m.body id with
        | .proxy _ _ _ _ => false
        | _ => reaches m goal fuel (m.obj id).proto)

/-- Gives an object a prototype. -/
def setProtoRule (w : Writing) (id : Nat) (proto : Option Nat) : Eval Change := do
  match ← body id with
  | .proxy _ _ _ _ => do
    match ← trap getFor id "setPrototypeOf" with
    | (target, _, none) => w.setProto target proto
    | (target, handler, some f) => do
      let p : Value := match proto with
        | some p => .object p
        | none => .null
      if truthy (← call f (.object handler) #[.object target, p]) then
        if !(← isExtensible target) then
          if (← protoOf target) != proto then typeError "proxy: inconsistent prototype"
        pure .done
      else refuse "proxy: bad prototype"
  | _ => do
    let m ← get
    let o := m.obj id
    if o.proto == proto then pure .done
    -- The end of all chains is fixed, though it is open to new properties.
    else if m.intrinsic? .objectPrototype == some id then
      refuse "'Immutable prototype object \\'Object.prototype\\' cannot have their prototype set'"
    else if !o.extensible then refuse "object is not extensible"
    else if reaches m id (m.heap.size + 1) proto then refuse "circular prototype chain"
    else
      modify fun m => m.update id fun o => { o with proto := proto }
      pure .done

/-- Refuses new properties from now on. -/
def closeRule (w : Writing) (id : Nat) : Eval Change := do
  match ← body id with
  | .proxy _ _ _ _ => do
    match ← trap getFor id "preventExtensions" with
    | (target, _, none) => w.close target
    | (target, handler, some f) => do
      if truthy (← call f (.object handler) #[.object target]) then
        if ← isExtensible target then typeError "proxy: inconsistent preventExtensions"
        pure .done
      else refuse "proxy preventExtensions handler returned false"
  | _ => do
    modify fun m => m.update id fun o => { o with extensible := false }
    pure .done

/-- Changing objects, where proxies are nested at most `depth` deep. -/
def writing : Nat → Writing
  | 0 =>
    { set := fun _ _ _ _ => stackOverflow, define := fun _ _ _ => stackOverflow
      delete := fun _ _ => stackOverflow, keys := fun _ => stackOverflow
      setProto := fun _ _ => stackOverflow, close := fun _ => stackOverflow }
  | depth + 1 =>
    { set := fun id k v r => setRule (writing depth) id k v r
      define := fun id k d => defineRule (writing depth) id k d
      delete := fun id k => deleteRule (writing depth) id k
      keys := fun id => keysRule (writing depth) id
      setProto := fun id p => setProtoRule (writing depth) id p
      close := fun id => closeRule (writing depth) id }

/-! ## In use -/

/-- Assigns to a property for a receiver. -/
def setFor (id : Nat) (k : Key) (v receiver : Value) : Eval Change :=
  (writing proxyDepth).set id k v receiver

/-- Defines a property. -/
def define (id : Nat) (k : Key) (d : Descriptor) : Eval Change := (writing proxyDepth).define id k d

/-- Deletes a property. -/
def delete (id : Nat) (k : Key) : Eval Change := (writing proxyDepth).delete id k

/-- The own keys of an object. -/
def keysOf (id : Nat) : Eval (List Key) := (writing proxyDepth).keys id

/-- Gives an object a prototype. -/
def setProto (id : Nat) (p : Option Nat) : Eval Change := (writing proxyDepth).setProto id p

/-- Refuses new properties from now on. -/
def preventExtensions (id : Nat) : Eval Change := (writing proxyDepth).close id

/-- Assigns to a property of any value. -/
def setOf (v : Value) (k : Key) (x : Value) : Eval Change := do
  match v with
  | .object id => setFor id k x v
  | .null => keyError "cannot set property '" k "' of null"
  | .undefined => keyError "cannot set property '" k "' of undefined"
  | v =>
    match primitiveProto v with
    | some i => do
      match ← intrinsic i with
      | some p => setFor p k x v
      | none => refuse "not an object"
    | none => refuse "not an object"

/-- Assigns to a property; a refusal is an error. -/
def setStrict (v : Value) (k : Key) (x : Value) : Eval Unit := do orThrow (← setOf v k x)

/-- Assigns to a property of an object; a refusal is an error. -/
def setProp (id : Nat) (k : Key) (x : Value) : Eval Unit := setStrict (.object id) k x

/-- Defines an ordinary property; a refusal is an error. -/
def createProp (id : Nat) (k : Key) (x : Value) : Eval Unit := do orThrow (← define id k (.plain x))

/-- Deletes a property; a refusal is an error. -/
def deleteProp (id : Nat) (k : Key) : Eval Unit := do orThrow (← delete id k)

/-- Own keys that are strings or symbols, enumerable if asked. -/
def selectKeys (id : Nat) (strings symbols privates enumerableOnly : Bool) : Eval (List Key) := do
  let keys ← keysOf id
  let m ← get
  let chosen := keys.filter fun
    | .symbol s => if (m.symbolInfo s).isPrivate then privates else symbols
    | _ => strings
  if enumerableOnly then
    chosen.filterM fun k => do
      match ← ownProperty id k with
      | some p => pure p.enumerable
      | none => pure false
  else pure chosen

/-- The enumerable own keys that are strings. -/
def enumerableKeys (id : Nat) : Eval (List Key) := selectKeys id true false false true

end Eval

end ScriptHost
