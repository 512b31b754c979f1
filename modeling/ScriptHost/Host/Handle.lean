import ScriptHost.Host.State
/-!
# Handles

A handle is a value or a key of a context.  Whoever made it owns one reference and gives it back;
an action that makes something for its own use gives it back however it ends.  This file also holds
what happens when the engine threw: the exception is taken off it, described and given back.
-/

namespace ScriptHost

/-- A value of a context. -/
structure Handle where
  context : ContextId
  value : Value
deriving DecidableEq, Inhabited

/-- A property key of a context. -/
structure KeyHandle where
  context : ContextId
  key : Key
deriving DecidableEq, Inhabited

namespace Host

variable {σ : Type} [Engine σ]

/-! ## References -/

/-- Gives the reference of a value back.  Values that are not counted need no engine for this. -/
def drop (h : Handle) : Action σ Unit := do
  if h.value.isCounted then ask (.release (← live h.context) [.value h.value])

/-- Gives the references of values back, all at once. -/
def dropAll (c : ContextId) (vs : List Value) : Action σ Unit := do
  ask (.release (← live c) (vs.flatMap Ref.ofValue))

/-- Gives the reference of a key back, if it is one. -/
def dropKey (k : KeyHandle) : Action σ Unit := do
  if !k.key.isNull then ask (.release (← live k.context) [.key k.key])

/-- A second reference to a value. -/
def dupe (h : Handle) : Action σ Handle := do
  ask (.retain (← live h.context) (.value h.value))
  pure h

/-- A second reference to a key. -/
def dupeKey (k : KeyHandle) : Action σ KeyHandle := do
  ask (.retain (← live k.context) (.key k.key))
  pure k

/-- Uses a value and gives it back. -/
def holding {α : Type} (h : Handle) (x : Handle → Action σ α) : Action σ α :=
  ensuring (x h) (drop h)

/-- Uses a key and gives it back. -/
def holdingKey {α : Type} (k : KeyHandle) (x : KeyHandle → Action σ α) : Action σ α :=
  ensuring (x k) (dropKey k)

/-- Hands the reference of a value to the end of its context. -/
def keepToEnd (h : Handle) : Action σ Handle := do
  defer h.context (.value h.value)
  pure h

/-! ## Exceptions -/

/-- Takes an exception off the engine and forgets it. -/
def discardException (c : ContextId) : Action σ Unit := do
  let r ← live c
  let e ← ask (.takeException r)
  ask (.release r (Ref.ofValue e))

/-- The text of a value; empty if there is none to be had. -/
def textLossy (h : Handle) : Action σ String := do
  match ← ask (.toText (← live h.context) h.value) with
  | some s => pure s
  | none => do
    discardException h.context
    pure ""

/-- The text of a member; empty if it is undefined or cannot be read. -/
def memberText (h : Handle) (name : String) : Action σ String := do
  match ← ask (.getNamed (← live h.context) h.value name) with
  -- A getter that throws must not leave its exception behind: the next request would meet it.
  | .exception => do
    discardException h.context
    pure ""
  | .undefined => pure ""
  | v => holding ⟨h.context, v⟩ textLossy

/-- Whether a value is an object of the engine's own errors. -/
def isError (h : Handle) : Action σ Bool := do
  if h.value.isObject then ask (.isError (← live h.context) h.value) else pure false

/-- The record of an error; none for any other value. -/
def errorRecord? (h : Handle) : Action σ (Option ExceptionRecord) := do
  if ← isError h then
    -- Any of these may be a getter, so their order can be observed.
    let name ← memberText h "name"
    let message ← memberText h "message"
    let cause ← memberText h "cause"
    let stack ← memberText h "stack"
    pure (some ⟨name, message, cause, stack⟩)
  else pure none

/-- The record of anything thrown. -/
def recordOf (h : Handle) : Action σ ExceptionRecord := do
  match ← errorRecord? h with
  | some r => pure r
  -- Anything may be thrown, not only errors.
  | none => do pure (.ofMessage (← textLossy h))

/-- Takes an exception off the engine and describes it. -/
def takeException (c : ContextId) : Action σ ExceptionRecord := do
  let v ← ask (.takeException (← live c))
  holding ⟨c, v⟩ recordOf

/-- Fails with what the engine threw. -/
def throwPending {α : Type} (c : ContextId) : Action σ α := do fail (.exception (← takeException c))

/-- A handle for what the engine gave, unless it is the sentinel. -/
def check (c : ContextId) (v : Value) : Action σ Handle := do
  if v == .exception then throwPending c else pure ⟨c, v⟩

/-- What the engine gave, or a failure with what it threw. -/
def orThrow {α : Type} (c : ContextId) (r : Option α) : Action σ α := do
  match r with
  | some a => pure a
  | none => throwPending c

/-- What the engine gave, or a broken precondition of an operation in the words of what it threw. -/
def orViolation {α : Type} (c : ContextId) (operation : String) (r : Option α) : Action σ α := do
  match r with
  | some a => pure a
  | none => do fail (.contractViolation operation (← takeException c).text)

end Host

end ScriptHost
