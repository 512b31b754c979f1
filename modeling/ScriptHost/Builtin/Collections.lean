import ScriptHost.Builtin.Objects
/-!
# Maps, sets and what does not keep its keys

Entries stay in the order in which they came; a deleted entry leaves a gap, so that walks that are
under way are not disturbed.
-/

namespace ScriptHost

namespace Builtin

open Eval

/-- Entries of a map or set. -/
abbrev Entries := Array (Option (Value × Value))

/-- Where a key stands among entries. -/
def findEntry (es : Entries) (k : Value) : Option Nat :=
  es.findIdx? fun
    | some (x, _) => x.sameValueZero k
    | none => false

/-- The positive zero for either zero. -/
def normalKey : Value → Value
  | .float d => if d == 0 then .int 0 else .float d
  | v => v

/-- Entries with a value under a key. -/
def putEntry (es : Entries) (size : Nat) (k v : Value) : Entries × Nat :=
  match findEntry es k with
  | some i => (es.setIfInBounds i (some ((es[i]?.join.map (·.1)).getD k, v)), size)
  | none => (es.push (some (normalKey k, v)), size + 1)

/-- The entries of a map. -/
def thisMap (v : Value) : Eval (Nat × Entries × Nat) := do
  match ← bodyOf v with
  | some (id, .map es n) => pure (id, es, n)
  | _ => typeError "Map object expected"

/-- The entries of a set. -/
def thisSet (v : Value) : Eval (Nat × Entries × Nat) := do
  match ← bodyOf v with
  | some (id, .set es n) => pure (id, es, n)
  | _ => typeError "Set object expected"

/-- Whether a value can be held weakly. -/
def canBeWeak (m : Machine) : Value → Bool
  | .object _ => true
  | .symbol s => !(m.symbolInfo s).registered
  | _ => false

/-- Fills a new collection with the items of the first argument, through its own method. -/
def fill (c : NativeCall) (id : Nat) (name : String) (pairs : Bool) : Eval Value := do
  let src := c.arg 0
  if !src.isNullish then
    let add ← getNamed id name
    if !(← callable add) then typeError "set/add is not a function"
    eachItem (← openItems src) fun _ v => do
      if pairs then
        match v with
        | .object e => do
          let k ← getProp e (.index 0)
          let x ← getProp e (.index 1)
          let _ ← call add (.object id) #[k, x]
        | _ => typeError "not an object"
      else
        let _ ← call add (.object id) #[v]
  pure (.object id)

/-- Makes a map. -/
def mapConstructor (c : NativeCall) : Eval Value := do
  needsNew c
  fill c (← allocFor (.map #[] 0) c.target .mapPrototype) "set" true

/-- Makes a set. -/
def setConstructor (c : NativeCall) : Eval Value := do
  needsNew c
  fill c (← allocFor (.set #[] 0) c.target .setPrototype) "add" false

/-- Makes a weak map. -/
def weakMapConstructor (c : NativeCall) : Eval Value := do
  needsNew c
  fill c (← allocFor (.weakMap #[]) c.target .weakMapPrototype) "set" true

/-- Makes a weak set. -/
def weakSetConstructor (c : NativeCall) : Eval Value := do
  needsNew c
  fill c (← allocFor (.weakSet #[]) c.target .weakSetPrototype) "add" false

/-- The getter by which subclasses say what they make. -/
def collectionStatics : Array Native := #[getter "@species" returnThis]

/-- Functions of the constructor of maps. -/
def mapStatics : Array Native := #[
  method "groupBy" 2 fun c => do
    let groups ← groupItems (c.arg 0) (c.arg 1) Value.sameValueZero fun v => pure (normalKey v)
    let mut es : Entries := #[]
    for (k, xs) in groups do
      es := es.push (some (k, ← newArray xs))
    pure (.object (← alloc (.map es es.size) .mapPrototype)),
  getter "@species" returnThis]

/-- Does something with each entry, those added on the way too. -/
def eachEntry (id : Nat) (f : Value → Value → Eval Unit) : Nat → Nat → Eval Unit
  | 0, _ => pure ()
  | fuel + 1, i => do
    let es ← match ← body id with
      | .map es _ => pure es
      | .set es _ => pure es
      | _ => pure #[]
    if i < es.size then
      match es[i]?.join with
      | some (k, v) => f k v
      | none => pure ()
      eachEntry id f fuel (i + 1)

/-- A walk over a map. -/
def walkMap (walk : Walk) (c : NativeCall) : Eval Value := do
  let (id, _, _) ← thisMap c.this
  pure (.object (← alloc (.mapIterator (.object id) 0 walk) .mapIteratorPrototype))

/-- A walk over a set. -/
def walkSet (walk : Walk) (c : NativeCall) : Eval Value := do
  let (id, _, _) ← thisSet c.this
  pure (.object (← alloc (.setIterator (.object id) 0 walk) .setIteratorPrototype))

/-- What maps inherit. -/
def mapPrototype : Array Native := #[
  method "set" 2 fun c => do
    let (id, es, n) ← thisMap c.this
    let (es, n) := putEntry es n (c.arg 0) (c.arg 1)
    setBody id (.map es n)
    pure c.this,
  method "get" 1 fun c => do
    let (_, es, _) ← thisMap c.this
    pure (match findEntry es (c.arg 0) with
      | some i => (es[i]?.join.map (·.2)).getD .undefined
      | none => .undefined),
  method "has" 1 fun c => do
    let (_, es, _) ← thisMap c.this
    pure (.bool (findEntry es (c.arg 0)).isSome),
  method "delete" 1 fun c => do
    let (id, es, n) ← thisMap c.this
    match findEntry es (c.arg 0) with
    | some i => do
      setBody id (.map (es.setIfInBounds i none) (n - 1))
      pure (.bool true)
    | none => pure (.bool false),
  method "clear" 0 fun c => do
    let (id, es, _) ← thisMap c.this
    setBody id (.map (.replicate es.size none) 0)
    pure .undefined,
  getter "size" fun c => do
    let (_, _, n) ← thisMap c.this
    pure (Value.ofNat n),
  method "forEach" 1 fun c => do
    let (id, _, _) ← thisMap c.this
    let f ← functionArg c 0
    eachEntry id (fun k v => do
      let _ ← call f (c.arg 1) #[v, k, c.this]) itemLimit 0
    pure .undefined,
  method "values" 0 (walkMap .values),
  method "keys" 0 (walkMap .keys),
  method "entries" 0 (walkMap .entries)]

/-- The members of something that looks like a set. -/
structure SetLike where
  object : Value
  size : Float
  has : Value
  keys : Value

/-- An argument that looks like a set. -/
def setLike (v : Value) : Eval SetLike := do
  let id ← needObject v
  let n ← toFloat (← getNamed id "size")
  if n.isNaN then typeError ".size is not a number"
  if n < 0 then rangeError ".size must be positive"
  let has ← getNamed id "has"
  if !(← callable has) then typeError ".has is not a function"
  let keys ← getNamed id "keys"
  if !(← callable keys) then typeError ".keys is not a function"
  pure ⟨v, n, has, keys⟩

/-- Whether something that looks like a set has a value. -/
def SetLike.contains (s : SetLike) (v : Value) : Eval Bool := do
  pure (truthy (← call s.has s.object #[v]))

/-- The values of something that looks like a set. -/
def SetLike.values (s : SetLike) : Eval (Array Value) := do
  let it ← call s.keys s.object #[]
  if !it.isObject then typeError "not an object"
  foldItems ⟨it, ← getField it "next"⟩ #[] fun xs v => pure (xs.push v)

/-- The values of a set, in order. -/
def valuesOf (es : Entries) : Array Value := es.filterMap fun e => e.map (·.1)

/-- A new set. -/
def newSet (vs : Array Value) : Eval Value := do
  let (es, n) := vs.foldl (fun (es, n) v => putEntry es n v .undefined) ((#[] : Entries), 0)
  pure (.object (← alloc (.set es n) .setPrototype))

/-- What sets inherit. -/
def setPrototype : Array Native := #[
  method "add" 1 fun c => do
    let (id, es, n) ← thisSet c.this
    let (es, n) := putEntry es n (c.arg 0) .undefined
    setBody id (.set es n)
    pure c.this,
  method "has" 1 fun c => do
    let (_, es, _) ← thisSet c.this
    pure (.bool (findEntry es (c.arg 0)).isSome),
  method "delete" 1 fun c => do
    let (id, es, n) ← thisSet c.this
    match findEntry es (c.arg 0) with
    | some i => do
      setBody id (.set (es.setIfInBounds i none) (n - 1))
      pure (.bool true)
    | none => pure (.bool false),
  method "clear" 0 fun c => do
    let (id, es, _) ← thisSet c.this
    setBody id (.set (.replicate es.size none) 0)
    pure .undefined,
  getter "size" fun c => do
    let (_, _, n) ← thisSet c.this
    pure (Value.ofNat n),
  method "forEach" 1 fun c => do
    let (id, _, _) ← thisSet c.this
    let f ← functionArg c 0
    eachEntry id (fun k _ => do
      let _ ← call f (c.arg 1) #[k, k, c.this]) itemLimit 0
    pure .undefined,
  method "isDisjointFrom" 1 fun c => do
    let (_, es, _) ← thisSet c.this
    let s ← setLike (c.arg 0)
    pure (.bool (!(← (valuesOf es).anyM s.contains))),
  method "isSubsetOf" 1 fun c => do
    let (_, es, _) ← thisSet c.this
    let s ← setLike (c.arg 0)
    pure (.bool (← (valuesOf es).allM s.contains)),
  method "isSupersetOf" 1 fun c => do
    let (_, es, _) ← thisSet c.this
    let s ← setLike (c.arg 0)
    pure (.bool ((← s.values).all fun v => (findEntry es v).isSome)),
  method "intersection" 1 fun c => do
    let (_, es, n) ← thisSet c.this
    let s ← setLike (c.arg 0)
    if Float.ofNat n > s.size then newSet ((← s.values).filter fun v => (findEntry es v).isSome)
    else do newSet (← (valuesOf es).filterM s.contains),
  method "difference" 1 fun c => do
    let (_, es, _) ← thisSet c.this
    let s ← setLike (c.arg 0)
    newSet (← (valuesOf es).filterM fun v => do pure (!(← s.contains v))),
  method "symmetricDifference" 1 fun c => do
    let (_, es, _) ← thisSet c.this
    let s ← setLike (c.arg 0)
    let theirs ← s.values
    newSet ((valuesOf es).filter (fun v => !(theirs.any (·.sameValueZero v))) ++
      theirs.filter (fun v => (findEntry es v).isNone)),
  method "union" 1 fun c => do
    let (_, es, _) ← thisSet c.this
    let s ← setLike (c.arg 0)
    newSet (valuesOf es ++ (← s.values)),
  method "values" 0 (walkSet .values),
  method "entries" 0 (walkSet .entries)]

/-- The next entry at or after a position. -/
def nextEntry (es : Entries) : Nat → Nat → Option (Nat × Value × Value)
  | 0, _ => none
  | fuel + 1, i =>
    if h : i < es.size then
      match es[i] with
      | some (k, v) => some (i, k, v)
      | none => nextEntry es fuel (i + 1)
    else none

/-- What walks over maps inherit. -/
def mapIterator : Array Native := #[
  method "next" 0 fun c => do
    match ← bodyOf c.this with
    | some (id, .mapIterator target pos walk) => do
      match ← bodyOf target with
      | some (_, .map es _) =>
        match nextEntry es (es.size + 1) pos with
        | some (i, k, v) => do
          setBody id (.mapIterator target (i + 1) walk)
          match walk with
          | .keys => iterResult k false
          | .values => iterResult v false
          | .entries => do iterResult (← newArray #[k, v]) false
        | none => do
          setBody id (.mapIterator .undefined pos walk)
          iterResult .undefined true
      | _ => iterResult .undefined true
    | _ => typeError "Map Iterator object expected"]

/-- What walks over sets inherit. -/
def setIterator : Array Native := #[
  method "next" 0 fun c => do
    match ← bodyOf c.this with
    | some (id, .setIterator target pos walk) => do
      match ← bodyOf target with
      | some (_, .set es _) =>
        match nextEntry es (es.size + 1) pos with
        | some (i, k, _) => do
          setBody id (.setIterator target (i + 1) walk)
          match walk with
          | .entries => do iterResult (← newArray #[k, k]) false
          | _ => iterResult k false
        | none => do
          setBody id (.setIterator .undefined pos walk)
          iterResult .undefined true
      | _ => iterResult .undefined true
    | _ => typeError "Set Iterator object expected"]

/-- The entries of a weak map. -/
def thisWeakMap (v : Value) : Eval (Nat × Array (Value × Value)) := do
  match ← bodyOf v with
  | some (id, .weakMap es) => pure (id, es)
  | _ => typeError "WeakMap object expected"

/-- The values of a weak set. -/
def thisWeakSet (v : Value) : Eval (Nat × Array Value) := do
  match ← bodyOf v with
  | some (id, .weakSet vs) => pure (id, vs)
  | _ => typeError "WeakSet object expected"

/-- What weak maps inherit. -/
def weakMapPrototype : Array Native := #[
  method "set" 2 fun c => do
    let (id, es) ← thisWeakMap c.this
    if !canBeWeak (← get) (c.arg 0) then typeError "invalid value used as WeakMap key"
    let es := match es.findIdx? (·.1 == c.arg 0) with
      | some i => es.setIfInBounds i (c.arg 0, c.arg 1)
      | none => es.push (c.arg 0, c.arg 1)
    setBody id (.weakMap es)
    modify fun m => { m with watched := true }
    pure c.this,
  method "get" 1 fun c => do
    let (_, es) ← thisWeakMap c.this
    pure (((es.find? (·.1 == c.arg 0)).map (·.2)).getD .undefined),
  method "has" 1 fun c => do
    let (_, es) ← thisWeakMap c.this
    pure (.bool (es.any (·.1 == c.arg 0))),
  method "delete" 1 fun c => do
    let (id, es) ← thisWeakMap c.this
    let kept := es.filter (·.1 != c.arg 0)
    setBody id (.weakMap kept)
    pure (.bool (kept.size != es.size))]

/-- What weak sets inherit. -/
def weakSetPrototype : Array Native := #[
  method "add" 1 fun c => do
    let (id, vs) ← thisWeakSet c.this
    if !canBeWeak (← get) (c.arg 0) then typeError "invalid value used as WeakSet key"
    setBody id (.weakSet (if vs.contains (c.arg 0) then vs else vs.push (c.arg 0)))
    modify fun m => { m with watched := true }
    pure c.this,
  method "has" 1 fun c => do
    let (_, vs) ← thisWeakSet c.this
    pure (.bool (vs.contains (c.arg 0))),
  method "delete" 1 fun c => do
    let (id, vs) ← thisWeakSet c.this
    let kept := vs.filter (· != c.arg 0)
    setBody id (.weakSet kept)
    pure (.bool (kept.size != vs.size))]

/-! ## Weak references -/

/-- Makes a weak reference. -/
def weakRefConstructor (c : NativeCall) : Eval Value := do
  needsNew c
  if !canBeWeak (← get) (c.arg 0) then typeError "invalid target"
  let id ← allocFor (.weakRef (some (c.arg 0))) c.target .weakRefPrototype
  modify fun m => { m with watched := true }
  pure (.object id)

/-- What weak references inherit. -/
def weakRefPrototype : Array Native := #[
  method "deref" 0 fun c => do
    match ← bodyOf c.this with
    | some (_, .weakRef t) => pure (t.getD .undefined)
    | _ => typeError "WeakRef object expected"]

/-- Makes a registry of what to do when objects are gone. -/
def registryConstructor (c : NativeCall) : Eval Value := do
  needsNew c
  if !(← callable (c.arg 0)) then typeError "argument must be a function"
  let realm := (← get).realm
  let id ← allocFor (.registry (c.arg 0) realm #[]) c.target .registryPrototype
  modify fun m => { m with watched := true }
  pure (.object id)

/-- What registries inherit. -/
def registryPrototype : Array Native := #[
  method "register" 2 fun c => do
    match ← bodyOf c.this with
    | some (id, .registry f realm es) => do
      let m ← get
      if !canBeWeak m (c.arg 0) then typeError "invalid target"
      if (c.arg 0).sameValue (c.arg 1) then typeError "held value cannot be the target"
      if !canBeWeak m (c.arg 2) && !(c.arg 2).isUndefined then typeError "invalid unregister token"
      setBody id (.registry f realm (es.push (c.arg 0, c.arg 1, c.arg 2)))
      pure .undefined
    | _ => typeError "FinalizationRegistry object expected",
  method "unregister" 1 fun c => do
    match ← bodyOf c.this with
    | some (id, .registry f realm es) => do
      if !canBeWeak (← get) (c.arg 0) then typeError "invalid unregister token"
      let kept := es.filter fun (_, _, t) => t != c.arg 0
      setBody id (.registry f realm kept)
      pure (.bool (kept.size != es.size))
    | _ => typeError "FinalizationRegistry object expected"]

end Builtin

end ScriptHost
