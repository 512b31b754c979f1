import ScriptHost.Host.Keys
/-!
# Properties

Reading, writing, asking for and deleting properties.  The forms by key are the primitive ones; a
string or an index is made a key first, which is given back at the end, so all forms agree.  A
value that is written passes to the engine, or is given back if it never gets there.
-/

namespace ScriptHost

/-- How the caller names a property. -/
inductive PropertyName where
  | text (s : String)
  | index (i : Int)
  | key (k : KeyHandle)
deriving Inhabited

/-- The largest index by which a property can be named. -/
def maxIndex : Int := twoTo 31 - 1

namespace Host

variable {σ : Type} [Engine σ]

/-- Refuses anything but an object. -/
def requireObject (operation : String) (h : Handle) : Action σ Unit := do
  if !h.value.isObject then
    fail (.contractViolation operation ("target is not an object (got " ++ (← typeName h) ++ ")"))

/-- The key for an index, which must be in range. -/
def indexKey (h : Handle) (i : Int) : Action σ KeyHandle := do
  if 0 ≤ i ∧ i ≤ maxIndex then newIndexKey h.context (UInt32.ofNat i.toNat)
  else fail (.indexOutOfRange i)

/-- Does something with the key for a name. -/
def withKey {α : Type} (h : Handle) (n : PropertyName) (x : Key → Action σ α) : Action σ α := do
  match n with
  | .text s => do holdingKey (← newKey h.context s) fun k => x k.key
  | .index i => do holdingKey (← indexKey h i) fun k => x k.key
  | .key k => x k.key

/-! ## By key -/

/-- Reads a property. -/
def getKey (h : Handle) (k : Key) : Action σ Handle := do
  check h.context (← ask (.get (← live h.context) h.value k))

/-- Writes a property. -/
def setKey (h : Handle) (k : Key) (v : Handle) : Action σ Unit := do
  -- Up to here the value is still the host's; with the request it passes to the engine.
  let r ← tryCatch (do
      requireObject "set_atom" h
      live h.context) fun e => do
    drop v
    throw e
  let _ ← orViolation h.context "set_atom" (← ask (.set r h.value k v.value))

/-- Whether an object or a prototype of it has a property. -/
def hasKey (h : Handle) (k : Key) : Action σ Bool := do
  requireObject "has_atom" h
  orViolation h.context "has_atom" (← ask (.has (← live h.context) h.value k))

/-- Deletes a property; whether there was one and it is gone. -/
def deleteKey (h : Handle) (k : Key) : Action σ Bool := do
  requireObject "delete_atom" h
  -- Deleting what is not there succeeds, so that is asked first.
  if ← orViolation h.context "delete_atom" (← ask (.hasOwn (← live h.context) h.value k)) then
    orViolation h.context "delete_atom" (← ask (.delete (← live h.context) h.value k))
  else pure false

/-! ## By any name -/

/-- Reads a property. -/
def get (h : Handle) (n : PropertyName) : Action σ Handle := withKey h n (getKey h)

/-- Writes a property.  The value passes on or is given back, whatever comes of it. -/
def set (h : Handle) (n : PropertyName) (v : Handle) : Action σ Unit := do
  match n with
  | .key k => setKey h k.key v
  | n => do
    let k ← tryCatch (match n with
        | .text s => newKey h.context s
        | .index i => indexKey h i
        | .key k => pure k) fun e => do
      drop v
      throw e
    holdingKey k fun k => setKey h k.key v

/-- Whether an object or a prototype of it has a property. -/
def has (h : Handle) (n : PropertyName) : Action σ Bool := withKey h n (hasKey h)

/-- Deletes a property; whether there was one and it is gone. -/
def delete (h : Handle) (n : PropertyName) : Action σ Bool := withKey h n (deleteKey h)

/-! ## Keys of an object -/

/-- The own keys of an object that a filter chooses. -/
def ownKeys (h : Handle) (f : KeyFilter) : Action σ (List KeyHandle) := do
  requireObject "own_property_names" h
  let ks ← orViolation h.context "own_property_names"
    (← ask (.ownKeys (← live h.context) h.value f))
  pure (ks.map (⟨h.context, ·⟩))

/-- Gives keys back, the first one first. -/
def dropKeys (ks : List KeyHandle) : Action σ Unit := ks.forM dropKey

/-- The texts of the own enumerable string keys. -/
def keys (h : Handle) : Action σ (List String) := do
  let ks ← ownKeys h .enumerableStrings
  -- All keys are given back, also if one of them has no text.
  ensuring (ks.mapM keyText) (dropKeys ks)

end Host

end ScriptHost
