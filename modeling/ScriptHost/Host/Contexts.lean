import ScriptHost.Host.Buffers
import ScriptHost.Host.Scripts
/-!
# The life of contexts and runtimes

A context that is made looks up the globals and keys that it will need; each of them is a reference
that it gives back when it is freed, in the order in which they were taken.  If one of them is
missing there is no context, and what was taken is given back at once.
-/

namespace ScriptHost

namespace Host

variable {σ : Type} [Engine σ]

/-! ## Giving back -/

/-- Gives references back, each by itself and the oldest first. -/
def drain (realm : RealmId) (taken : Array Ref) : Action σ Unit := do
  taken.toList.forM fun r =>
    match r with
    | .value v => ask (.release realm (Ref.ofValue v))
    | .key k => ask (.release realm [.key k])
  report (.releasesDrained taken.size)

/-! ## Looking up -/

/-- A computation that registers the references that it takes, and that ends early with the name of
what is missing. -/
abbrev Lookup (σ : Type) := ExceptT String (StateT (Array Ref) (Action σ))

/-- Registers a reference that was taken. -/
def take (r : Ref) : Lookup σ Unit := do
  modifyThe (Array Ref) (·.push r)
  let taken ← getThe (Array Ref)
  (report (.releaseDeferred taken.size) : Action σ Unit)

/-- A global that is an object. -/
def global? (realm : RealmId) (globals : Value) (name : String) : Lookup σ (Option Value) := do
  match ← (ask (.getNamed realm globals name) : Action σ Value) with
  | .object id => do
    take (.value (.object id))
    pure (some (.object id))
  | .exception => do
    let e ← (ask (.takeException realm) : Action σ Value)
    (ask (.release realm (Ref.ofValue e)) : Action σ Unit)
    pure none
  | v => do
    (ask (.release realm (Ref.ofValue v)) : Action σ Unit)
    pure none

/-- A global that must be an object. -/
def requiredGlobal (realm : RealmId) (globals : Value) (name : String) : Lookup σ Value := do
  match ← global? realm globals name with
  | some v => pure v
  | none => throw name

/-- A key. -/
def requiredKey (realm : RealmId) (name : String) : Lookup σ Key := do
  let k ← (ask (.keyOfText realm name) : Action σ Key)
  take (.key k)
  pure k

/-- The constructor of a kind of typed arrays; only that of short floats may be missing. -/
def kindConstructor (realm : RealmId) (globals : Value) (k : ElementKind) : Lookup σ Value := do
  if k == .float16 then pure ((← global? realm globals k.constructorName).getD .undefined)
  else requiredGlobal realm globals k.constructorName

/-- Everything that a context looks up once. -/
def load (realm : RealmId) : Lookup σ Cache := do
  let globals ← (ask (.globalObject realm) : Action σ Value)
  take (.value globals)
  let array ← requiredGlobal realm globals "Array"
  let map ← requiredGlobal realm globals "Map"
  let set ← requiredGlobal realm globals "Set"
  let weakMap ← requiredGlobal realm globals "WeakMap"
  let weakSet ← requiredGlobal realm globals "WeakSet"
  let buffer ← requiredGlobal realm globals "ArrayBuffer"
  let symbol ← requiredGlobal realm globals "Symbol"
  let elements ← ElementKind.all.mapM (kindConstructor realm globals)
  let length ← requiredKey realm "length"
  let size ← requiredKey realm "size"
  let byteLength ← requiredKey realm "byteLength"
  pure { global := globals, array, map, set, weakMap, weakSet, buffer, symbol, length, size,
         byteLength, elements := fun k => (elements[k.number]?).getD .undefined }

/-! ## Contexts -/

/-- Makes a context of a realm, if there is one. -/
def contextOf (c : ContextId) (realm : Option RealmId) : Action σ Unit := do
  match realm with
  | none => fail (.contextCreation "JS_NewContext returned null")
  | some realm => do
    let (cache, taken) ← (load realm).run.run #[]
    match cache with
    | .ok cache => do
      report (.contextCreated taken.size)
      modify fun h => { h with contexts := h.contexts.insert c ⟨some realm, cache, taken, false⟩ }
    -- What was looked up is given back while the realm is still open.
    | .error name => do
      drain realm taken
      ask (.closeRealm realm)
      report (.contextAborted (.missingGlobal name))
      fail (.missingGlobal name)

/-- Makes a context with everything in it. -/
def newContext (c : ContextId) : Action σ Unit := do contextOf c (← ask .openRealm)

/-- Makes a context with some features only; without any list of features there is no realm. -/
def newBareContext (c : ContextId) (features : Option (List Feature)) : Action σ Unit := do
  match features with
  | some fs => do contextOf c (← ask (.openBare fs))
  | none => contextOf c none

/-- Frees a context; one that was freed stays so. -/
def freeContext (c : ContextId) : Action σ Unit := do
  let x ← context c
  match x.realm with
  | none => pure ()
  | some realm => do
    -- The list is emptied first, so that whatever is deferred meanwhile is not given back twice.
    updateContext c fun x => { x with deferred := #[], drained := true }
    drain realm x.deferred
    ask (.closeRealm realm)
    updateContext c fun x => { x with realm := none }
    report (.contextFreed x.deferred.size)

/-- Frees a context and forgets it. -/
def dropContext (c : ContextId) : Action σ Unit := do
  freeContext c
  modify fun h => { h with contexts := h.contexts.erase c }

/-- The global object of a context, which the context keeps. -/
def globalOf (c : ContextId) : Action σ Handle := do pure ⟨c, (← context c).cache.global⟩

/-- A context in the words of a report. -/
def contextDiagnostic (c : ContextId) : Action σ String := do
  let x ← context c
  pure ("Context \x7b raw: " ++ (if x.realm.isNone then "null" else "PTR") ++
    ", pending_releases: " ++ toString x.deferred.size ++ " \x7d")

/-! ## Runtimes -/

/-- A host that was just started. -/
def start (engine : σ) (settings : Settings) : Host σ :=
  { engine, settings, log := #[.runtimeCreated settings.memoryLimit settings.maxStackSize] }

/-- Frees everything that is unreachable. -/
def runGc : Action σ Unit := ask .collect

/-- Frees the runtime. -/
def shutDown : Action σ Unit := do
  ask .shutDown
  report .runtimeFreed

/-- A runtime in the words of a report. -/
def runtimeDiagnostic (s : Settings) : String :=
  "Runtime \x7b raw: PTR, config: " ++ s.diagnostic ++ " \x7d"

end Host

end ScriptHost
