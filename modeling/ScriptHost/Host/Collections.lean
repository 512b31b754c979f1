import ScriptHost.Host.Calls
/-!
# Arrays and keyed collections

What a value is an instance of is asked of the constructors that its context looked up when it was
made, so a script that binds a global anew changes no answer.
-/

namespace ScriptHost

namespace Host

variable {σ : Type} [Engine σ]

/-! ## Making collections -/

/-- A new instance of a constructor that a context looked up, made without arguments. -/
def newCached (c : ContextId) (field : Cache → Value) : Action σ Handle := do
  construct ⟨c, field (← context c).cache⟩ []

/-- An empty map. -/
def newMap (c : ContextId) : Action σ Handle := newCached c (·.map)

/-- An empty set. -/
def newSet (c : ContextId) : Action σ Handle := newCached c (·.set)

/-- An empty weak map. -/
def newWeakMap (c : ContextId) : Action σ Handle := newCached c (·.weakMap)

/-- An empty weak set. -/
def newWeakSet (c : ContextId) : Action σ Handle := newCached c (·.weakSet)

/-! ## Asking what values are -/

/-- Whether a value is an instance of a constructor that its context looked up. -/
def isCached (h : Handle) (field : Cache → Value) : Action σ Bool := do
  isInstance h (field (← context h.context).cache)

/-- Whether a value is an array. -/
def isArray (h : Handle) : Action σ Bool := isCached h (·.array)

/-- Whether a value is a map. -/
def isMap (h : Handle) : Action σ Bool := isCached h (·.map)

/-- Whether a value is a set. -/
def isSet (h : Handle) : Action σ Bool := isCached h (·.set)

/-- Whether a value is a weak map. -/
def isWeakMap (h : Handle) : Action σ Bool := isCached h (·.weakMap)

/-- Whether a value is a weak set. -/
def isWeakSet (h : Handle) : Action σ Bool := isCached h (·.weakSet)

/-- Whether a value is an array buffer. -/
def isArrayBuffer (h : Handle) : Action σ Bool := isCached h (·.buffer)

/-- Whether a value is a typed array of a kind. -/
def isTypedArray (h : Handle) (k : ElementKind) : Action σ Bool := isCached h (·.elements k)

/-- The first kind for which a question is answered with yes. -/
def firstKind (test : ElementKind → Action σ Bool) : List ElementKind →
    Action σ (Option ElementKind)
  | [] => pure none
  | k :: ks => do if ← test k then pure (some k) else firstKind test ks

/-- The kind of a typed array; none for any other value. -/
def elementKind? (h : Handle) : Action σ (Option ElementKind) := do
  if h.value.isObject then firstKind (isTypedArray h) ElementKind.all else pure none

/-! ## Sizes -/

/-- The property that tells the size of a value. -/
def sizeKey? (h : Handle) : Action σ (Option Key) := do
  let cache := (← context h.context).cache
  -- The order matters: a value may inherit from several of these.
  if ← isArray h then pure (some cache.length)
  else if (← elementKind? h).isSome then pure (some cache.length)
  else if ← isMap h then pure (some cache.size)
  else if ← isSet h then pure (some cache.size)
  else if ← isArrayBuffer h then pure (some cache.byteLength)
  else pure none

/-- How many elements an array, entries a map or set, or bytes a buffer has. -/
def length (h : Handle) : Action σ Nat := do
  match ← sizeKey? h with
  | none => do fail (.contractViolation "len" ((← typeName h) ++ " has no length"))
  | some k => do
    match (← holding (← getKey h k) toInt64).toInt with
    | .ofNat n => pure n
    | n => fail (.internal ("negative length " ++ toString n))

/-- Whether there is nothing in it. -/
def isEmpty (h : Handle) : Action σ Bool := do pure ((← length h) == 0)

end Host

end ScriptHost
