import ScriptHost.Builtin.Table
/-!
# Realms

A realm is made in four rounds: the objects that others inherit from, their functions, the
constructors, and the global object.  Every round only allocates, so none of it can fail.
-/

namespace ScriptHost

namespace Builtin

open Eval (newNative memberKey ownName)

/-! ## What others inherit from -/

/-- An object that others inherit from. -/
structure Ancestor where
  place : Intrinsic
  family : Option Family := none
  feature : Feature := .base
  body : Body := .ordinary
  parent : Intrinsic := .objectPrototype
  /-- The word for its kind in the text of an object. -/
  label : String := ""

/-- The ancestor of errors of a kind. -/
def errorAncestor (kind : ErrorKind) : Ancestor :=
  { place := Eval.errorIntrinsic kind, parent := .errorPrototype }

/-- Every ancestor, each after the one that it inherits from itself. -/
def ancestors : List Ancestor :=
  [{ place := .errorPrototype, family := some .errorPrototype }] ++
  ([.eval, .range, .reference, .syntactic, .type, .uri, .internal, .aggregate].map errorAncestor) ++
  [{ place := .iteratorPrototype, family := some .iteratorPrototype, label := "Iterator" },
   { place := .arrayPrototype, family := some .arrayPrototype, body := .array },
   { place := .arrayIteratorPrototype, family := some .arrayIterator, parent := .iteratorPrototype
     label := "Array Iterator" },
   { place := .iteratorHelperPrototype, family := some .iteratorHelper, parent := .iteratorPrototype
     label := "Iterator Helper" },
   { place := .wrappedIteratorPrototype, family := some .wrappedIterator,
     parent := .iteratorPrototype },
   { place := .asyncIteratorPrototype, family := some .asyncIteratorPrototype },
   { place := .asyncFromSyncPrototype, family := some .asyncFromSync
     parent := .asyncIteratorPrototype },
   { place := .generatorPrototype, family := some .generator, parent := .iteratorPrototype
     label := "Generator" },
   { place := .asyncGeneratorPrototype, family := some .asyncGenerator
     parent := .asyncIteratorPrototype, label := "AsyncGenerator" },
   { place := .generatorFunctionPrototype, parent := .functionPrototype
     label := "GeneratorFunction" },
   { place := .asyncFunctionPrototype, parent := .functionPrototype, label := "AsyncFunction" },
   { place := .asyncGeneratorFunctionPrototype, parent := .functionPrototype
     label := "AsyncGeneratorFunction" },
   { place := .numberPrototype, family := some .numberPrototype, body := .number (.int 0) },
   { place := .booleanPrototype, family := some .booleanPrototype, body := .boolean false },
   { place := .stringPrototype, family := some .stringPrototype, body := .string .empty },
   { place := .stringIteratorPrototype, family := some .stringIterator, parent := .iteratorPrototype
     label := "String Iterator" },
   { place := .symbolPrototype, family := some .symbolPrototype, label := "Symbol" },
   { place := .bigintPrototype, family := some .bigintPrototype, feature := .bigint
     label := "BigInt" },
   { place := .mapPrototype, family := some .mapPrototype, feature := .collections,
     label := "Map" },
   { place := .setPrototype, family := some .setPrototype, feature := .collections,
     label := "Set" },
   { place := .weakMapPrototype, family := some .weakMapPrototype, feature := .collections
     label := "WeakMap" },
   { place := .weakSetPrototype, family := some .weakSetPrototype, feature := .collections
     label := "WeakSet" },
   { place := .mapIteratorPrototype, family := some .mapIterator, feature := .collections
     parent := .iteratorPrototype, label := "Map Iterator" },
   { place := .setIteratorPrototype, family := some .setIterator, feature := .collections
     parent := .iteratorPrototype, label := "Set Iterator" },
   { place := .bufferPrototype, family := some .bufferPrototype, feature := .typedArrays
     label := "ArrayBuffer" },
   { place := .sharedBufferPrototype, family := some .sharedBufferPrototype
     feature := .typedArrays, label := "SharedArrayBuffer" },
   { place := .typedArrayPrototype, family := some .typedArrayPrototype, feature := .typedArrays },
   { place := .dataViewPrototype, family := some .dataViewPrototype, feature := .typedArrays
     label := "DataView" }] ++
  (ElementKind.all.map fun k =>
    { place := .elementPrototype k, feature := .typedArrays, parent := .typedArrayPrototype }) ++
  [{ place := .promisePrototype, family := some .promisePrototype, feature := .promise
     label := "Promise" },
   { place := .weakRefPrototype, family := some .weakRefPrototype, feature := .weakRef
     label := "WeakRef" },
   { place := .registryPrototype, family := some .registryPrototype, feature := .weakRef
     label := "FinalizationRegistry" },
   { place := .datePrototype, family := some .datePrototype, feature := .date },
   { place := .regexpPrototype, family := some .regexpPrototype, feature := .regexp },
   { place := .regexpIteratorPrototype, family := some .regexpIterator, feature := .regexp
     parent := .iteratorPrototype, label := "RegExp String Iterator" }]

/-! ## Making objects -/

/-- An intrinsic object of the realm that is being made. -/
def intrinsic? (i : Intrinsic) : Mem (Option Nat) := do pure ((← get).intrinsic? i)

/-- Records an intrinsic object. -/
def setIntrinsic (i : Intrinsic) (id : Nat) : Mem Unit :=
  modify fun m => { m with
    realms := m.realms.modify m.realm fun r =>
      { r with intrinsics := r.intrinsics.setIfInBounds i.place (some id) } }

/-- A new supplied function, called by its name. -/
def newMember (family : Family) (index : Nat) (n : Native) : Mem Nat := do
  let lead := match n.role with
    | .method => Text.empty
    | .getter => txt "get "
    | .setter => txt "set "
  newNative ⟨family, index, #[], false⟩ (lead ++ ownName n.name) n.length
    (← intrinsic? .functionPrototype)

/-- Puts the functions of a family on an object. -/
def install (family : Family) (id : Nat) : Mem Unit := do
  let mut index := 0
  for n in table family do
    let f ← newMember family index n
    let k := memberKey n.name
    let old : Option Content := (((← get).obj id).props.get? k).map (·.content)
    let (g, s) : Option Nat × Option Nat := match old with
      | some (.accessor g s) => (g, s)
      | _ => (none, none)
    let content : Content := match n.role with
      | .method => .data (.object f) true
      | .getter => .accessor (some f) s
      | .setter => .accessor g (some f)
    Mem.putProperty id k ⟨content, false, true⟩
    index := index + 1

/-- Puts the member of one name also under a key. -/
def putAlias (id : Nat) (name : String) (k : Key) : Mem Unit := do
  match ((← get).obj id).props.get? (Key.str name) with
  | some p => Mem.putProperty id k p
  | none => pure ()

/-- Puts the word for its kind on an object. -/
def putLabel (id : Nat) (label : String) : Mem Unit := do
  if label != "" then
    Mem.putProperty id (.symbol WellKnown.toStringTag) (.fixedValue (.str label))

/-- Makes an ancestor. -/
def newAncestor (a : Ancestor) : Mem Unit := do
  let props : PropertyTable := match a.body with
    | .array => Eval.arrayProps #[]
    | .string _ => { members := #[(Key.str "length", .frozen (.int 0))] }
    | _ => {}
  let id ← Mem.alloc { body := a.body, proto := ← intrinsic? a.parent, props := props }
  setIntrinsic a.place id

/-- Puts the functions of an ancestor on it. -/
def furnish (a : Ancestor) : Mem Unit := do
  match ← intrinsic? a.place with
  | none => pure ()
  | some id => do
    match a.family with
    | some f => install f id
    | none => pure ()
    putLabel id a.label

/-- Makes the two objects that all others begin with. -/
def newRoots : Mem Unit := do
  let o ← Mem.alloc {}
  setIntrinsic .objectPrototype o
  let f ← newNative ⟨.inner, InnerFunction.nothing.ctorIdx, #[], false⟩ Text.empty 0 (some o)
  setIntrinsic .functionPrototype f
  install .objectPrototype o
  install .functionPrototype f
  let thrower ← newNative ⟨.inner, InnerFunction.throwType.ctorIdx, #[], false⟩ Text.empty 0
    (some f)
  setIntrinsic .throwTypeError thrower
  for name in ["caller", "arguments"] do
    Mem.putProperty f (Key.str name) ⟨.accessor (some thrower) (some thrower), false, true⟩

/-- Members that have more than one key. -/
def aliases : List (Intrinsic × String × Key) :=
  [(.arrayPrototype, "values", .symbol WellKnown.iterator),
   (.typedArrayPrototype, "values", .symbol WellKnown.iterator),
   (.mapPrototype, "entries", .symbol WellKnown.iterator),
   (.setPrototype, "values", Key.str "keys"),
   (.setPrototype, "values", .symbol WellKnown.iterator),
   (.stringPrototype, "trimEnd", Key.str "trimRight"),
   (.stringPrototype, "trimStart", Key.str "trimLeft")]

/-- Names that a `with` statement does not see in arrays. -/
def unscoped : List String :=
  ["at", "copyWithin", "entries", "fill", "find", "findIndex", "findLast", "findLastIndex", "flat",
    "flatMap", "includes", "keys", "toReversed", "toSorted", "toSpliced", "values"]

/-- Links the ancestors that refer to each other. -/
def linkAncestors : Mem Unit := do
  for (i, name, k) in aliases do
    match ← intrinsic? i with
    | some id => putAlias id name k
    | none => pure ()
  match ← intrinsic? .arrayPrototype, ← intrinsic? .typedArrayPrototype with
  | some a, some t =>
    -- The two share one function; scripts can compare them.
    match ((← get).obj a).props.get? (Key.str "toString") with
    | some p => Mem.putProperty t (Key.str "toString") p
    | none => pure ()
  | _, _ => pure ()
  match ← intrinsic? .arrayPrototype with
  | some id => do
    match (((← get).obj id).props.get? (Key.str "values")).bind (·.value?) with
    | some (.object f) => setIntrinsic .arrayValues f
    | _ => pure ()
    let list ← Mem.alloc { props := { members :=
      (unscoped.map fun n => (Key.str n, Property.plain (.bool true))).toArray } }
    Mem.putProperty id (.symbol WellKnown.unscopables) (.fixedValue (.object list))
  | none => pure ()
  for (f, p) in [(Intrinsic.generatorFunctionPrototype, Intrinsic.generatorPrototype),
      (.asyncGeneratorFunctionPrototype, .asyncGeneratorPrototype)] do
    match ← intrinsic? f, ← intrinsic? p with
    | some f, some p => do
      Mem.putProperty f (Key.str "prototype") (.fixedValue (.object p))
      Mem.putProperty p (Key.str "constructor") (.fixedValue (.object f))
    | _, _ => pure ()

/-! ## Constructors -/

/-- Makes a constructor. -/
def newConstructor (index : Nat) (k : Maker) (global : Nat) : Mem Unit := do
  let base ← intrinsic? .functionPrototype
  let parent ← match k.parent with
    | some p => do pure ((← intrinsic? p).orElse fun _ => base)
    | none => pure base
  -- The index counts all makers, those of features left out included, so it always finds its own.
  let id ← newNative ⟨.constructors, index, #[], true⟩ (txt k.name) k.length parent
  match k.prototype with
  | some p => do
    match ← intrinsic? p with
    | some p => do
      Mem.putProperty id (Key.str "prototype") (.frozen (.object p))
      Mem.putHidden p "constructor" (.object id)
    | none => pure ()
  | none => pure ()
  match k.statics with
  | some f => install f id
  | none => pure ()
  match k.place with
  | some p => setIntrinsic p id
  | none => pure ()
  if k.isGlobal then Mem.putHidden global k.name (.object id)

/-- Numbers kept by the constructor of numbers. -/
def numberConstants : List (String × Float) :=
  [("MAX_VALUE", Float.ofBits 0x7FEFFFFFFFFFFFFF), ("MIN_VALUE", Float.ofBits 1),
    ("NaN", Binary.nan),
    ("NEGATIVE_INFINITY", Binary.negInfinity), ("POSITIVE_INFINITY", Binary.infinity),
    ("EPSILON", Float.ofBits 0x3CB0000000000000), ("MAX_SAFE_INTEGER", Binary.ofInt (twoTo 53 - 1)),
    ("MIN_SAFE_INTEGER", Binary.ofInt (1 - twoTo 53))]

/-- Numbers of mathematics. -/
def mathConstants : List (String × UInt64) :=
  [("E", 0x4005BF0A8B145769), ("LN10", 0x40026BB1BBB55516), ("LN2", 0x3FE62E42FEFA39EF),
    ("LOG2E", 0x3FF71547652B82FE), ("LOG10E", 0x3FDBCB7B1526E50E), ("PI", 0x400921FB54442D18),
    ("SQRT1_2", 0x3FE6A09E667F3BCD), ("SQRT2", 0x3FF6A09E667F3BCD)]

/-- The constructor under a name among the globals. -/
def globalObject? (global : Nat) (name : String) : Mem (Option Nat) := do
  pure (match (((← get).obj global).props.get? (Key.str name)).bind (·.value?) with
    | some (.object id) => some id
    | _ => none)

/-- Puts constants on the constructors. -/
def putConstants (global : Nat) : Mem Unit := do
  match ← globalObject? global "Number" with
  | some id => do
    for (n, d) in numberConstants do
      Mem.putProperty id (Key.str n) (.frozen (.float d))
    for n in ["parseInt", "parseFloat"] do
      match ((← get).obj global).props.get? (Key.str n) with
      | some p => Mem.putProperty id (Key.str n) p
      | none => pure ()
  | none => pure ()
  match ← globalObject? global "Symbol" with
  | some id => do
    let mut i := 0
    for n in WellKnown.names do
      Mem.putProperty id (Key.str (n.drop 7).toString) (.frozen (.symbol i))
      i := i + 1
  | none => pure ()
  for k in ElementKind.all do
    let size : Property := .frozen (Value.ofNat k.size)
    for i in [Intrinsic.elementConstructor k, .elementPrototype k] do
      match ← intrinsic? i with
      | some id => Mem.putProperty id (Key.str "BYTES_PER_ELEMENT") size
      | none => pure ()

/-- Gives errors of each kind their name and an empty message. -/
def nameErrors : Mem Unit := do
  for (i, n) in [(Intrinsic.errorPrototype, "Error"), (.evalErrorPrototype, "EvalError"),
      (.rangeErrorPrototype, "RangeError"), (.referenceErrorPrototype, "ReferenceError"),
      (.syntaxErrorPrototype, "SyntaxError"), (.typeErrorPrototype, "TypeError"),
      (.uriErrorPrototype, "URIError"), (.internalErrorPrototype, "InternalError"),
      (.aggregateErrorPrototype, "AggregateError")] do
    match ← intrinsic? i with
    | some id => do
      Mem.putHidden id "name" (.str n)
      Mem.putHidden id "message" (.str "")
    | none => pure ()

/-! ## The global object -/

/-- Makes the object that measures time, which is the only global that scripts can enumerate. -/
def newClock (global : Nat) : Mem Unit := do
  let id ← Mem.alloc { proto := ← intrinsic? .objectPrototype }
  let fixed := fun (v : Value) => (⟨.data v false, true, false⟩ : Property)
  let mut index := 0
  for n in table .clock do
    let f ← newMember .clock index n
    Mem.putProperty id (memberKey n.name) (fixed (.object f))
    index := index + 1
  Mem.putProperty id (Key.str "timeOrigin") (fixed (.int 0))
  Mem.putProperty global (Key.str "performance") (.plain (.object id))

/-- Makes an object that only holds functions. -/
def newToolbox (global : Nat) (name : String) (family : Family) : Mem Nat := do
  let id ← Mem.alloc { proto := ← intrinsic? .objectPrototype }
  install family id
  putLabel id name
  Mem.putHidden global name (.object id)
  pure id

/-- Puts the values and functions of the base on the global object. -/
def furnishGlobal (global : Nat) : Mem Unit := do
  install .globals global
  match ← globalObject? global "eval" with
  | some id => setIntrinsic .evaluator id
  | none => pure ()
  Mem.putProperty global (Key.str "Infinity") (.frozen (.float Binary.infinity))
  Mem.putProperty global (Key.str "NaN") (.frozen (.float Binary.nan))
  Mem.putProperty global (Key.str "undefined") (.frozen .undefined)
  putLabel global "global"
  let m ← newToolbox global "Math" .math
  for (n, bits) in mathConstants do
    Mem.putProperty m (Key.str n) (.frozen (.float (Float.ofBits bits)))
  let _ ← newToolbox global "Reflect" .reflect
  Mem.putHidden global "globalThis" (.object global)

/-- A new realm with some features, which becomes the current one. -/
def newRealm (features : List Feature) : Mem Nat := do
  let number := (← get).realms.size
  modify fun m => { m with realms := m.realms.push {}, realm := number }
  let has (f : Feature) : Bool := features.contains f
  newRoots
  let root ← intrinsic? .objectPrototype
  let global ← Mem.alloc { proto := root }
  modify fun m => { m with
    realms := m.realms.modify number fun r =>
      { r with global := global, hasEval := has .evaluator } }
  let present := ancestors.filter fun a => has a.feature
  -- All are made before any is furnished, since what is put on them refers to others.
  for a in present do newAncestor a
  for a in present do furnish a
  linkAncestors
  if has .base then
    furnishGlobal global
    nameErrors
  let mut index := 0
  for k in makers do
    if has k.feature then newConstructor index k global
    index := index + 1
  if has .base then putConstants global
  if has .json then
    let _ ← newToolbox global "JSON" .json
  if has .clock then newClock global
  pure number

end Builtin

end ScriptHost
