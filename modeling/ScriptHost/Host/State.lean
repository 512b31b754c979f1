import ScriptHost.Buffer.ElementKind
import ScriptHost.Host.Event
import ScriptHost.Host.Pins
import ScriptHost.Host.Request
/-!
# The state of a host

An engine, the contexts opened in it, the memory lent to it and the events that were reported.  An
action of the host changes this state and may fail, or stop because a context was used that is
gone.  All that an action does to the engine it does by `ask`.
-/

namespace ScriptHost

/-- The name that the caller gave to a context. -/
abbrev ContextId := Nat

/-- Objects and keys that a context looks up once.  What is absent is undefined. -/
structure Cache where
  global : Value := .undefined
  array : Value := .undefined
  map : Value := .undefined
  set : Value := .undefined
  weakMap : Value := .undefined
  weakSet : Value := .undefined
  buffer : Value := .undefined
  symbol : Value := .undefined
  elements : ElementKind → Value := fun _ => .undefined
  length : Key := .index 0
  size : Key := .index 0
  byteLength : Key := .index 0
deriving Inhabited

/-- A context: a realm of the engine with what the host keeps for it. -/
structure Context where
  /-- The realm; none once the context was freed. -/
  realm : Option RealmId
  cache : Cache := {}
  /-- References that are given back when the context is freed, the oldest first. -/
  deferred : Array Ref := #[]
  /-- Whether they were given back. -/
  drained : Bool := false
deriving Inhabited

/-- The state of a host. -/
structure Host (σ : Type) where
  engine : σ
  settings : Settings := {}
  contexts : Std.TreeMap ContextId Context := {}
  pins : Pins := .empty
  /-- What was reported and not read yet. -/
  log : Array Event := #[]

/-- Misuse that stops an action. -/
inductive Panic where
  | usedAfterFree
  | deferredAfterTeardown
deriving DecidableEq, Inhabited, Repr

/-- The misuse in words. -/
def Panic.message : Panic → String
  | usedAfterFree => "context used after free"
  | deferredAfterTeardown => "deferred release registered after teardown"

/-- Why an action did not come to its end. -/
inductive Stop where
  | failed (error : HostError)
  | panicked (panic : Panic)
deriving DecidableEq, Inhabited, Repr

/-- What a host does. -/
abbrev Action (σ : Type) := ExceptT Stop (StateM (Host σ))

namespace Host

variable {σ : Type}

/-! ## Basics -/

/-- Fails. -/
def fail {α : Type} (e : HostError) : Action σ α := throw (.failed e)

/-- Stops because of misuse. -/
def misuse {α : Type} (p : Panic) : Action σ α := throw (.panicked p)

/-- Reports an event. -/
def report (e : Event) : Action σ Unit := modify fun h => { h with log := h.log.push e }

/-- The state after the engine gave back lent memory. -/
def takeBack (h : Host σ) (token : Token) : Host σ :=
  if token == 0 then h
  else
    match h.pins.region? token with
    | some r =>
      { h with pins := h.pins.giveBack token, log := h.log.push (.regionReleased r.length) }
    | none => { h with log := h.log.push .regionUnknown }

/-- Puts a request to the engine. -/
def ask [Engine σ] (q : Request) : Action σ q.Reply := fun h =>
  match h with
  | ⟨engine, settings, contexts, pins, log⟩ =>
    match Engine.answer q engine with
    | ⟨reply, engine, freed⟩ =>
        (.ok reply, freed.foldl takeBack ⟨engine, settings, contexts, pins, log⟩)

/-- Does something at the end of an action, however it ends. -/
def ensuring {α : Type} (x : Action σ α) (last : Action σ Unit) : Action σ α := do
  let a ← tryCatch x fun e => do
    last
    throw e
  last
  pure a

/-! ## Contexts -/

/-- A context; a freed one for a name that names none. -/
def context (c : ContextId) : Action σ Context := do
  pure (((← get).contexts.get? c).getD { realm := none })

/-- Changes a context. -/
def updateContext (c : ContextId) (f : Context → Context) : Action σ Unit :=
  modify fun h => { h with contexts := h.contexts.modify c f }

/-- Whether a context was freed. -/
def isFreed (c : ContextId) : Action σ Bool := do pure (← context c).realm.isNone

/-- The realm of a context, which must not be freed. -/
def live (c : ContextId) : Action σ RealmId := do
  match (← context c).realm with
  | some r => pure r
  | none => misuse .usedAfterFree

/-- How many references wait for the end of a context. -/
def pendingReleases (c : ContextId) : Action σ Nat := do pure (← context c).deferred.size

/-- Lets a reference wait for the end of a context. -/
def defer (c : ContextId) (r : Ref) : Action σ Unit := do
  let x ← context c
  if x.drained || x.realm.isNone then misuse .deferredAfterTeardown
  updateContext c fun x => { x with deferred := x.deferred.push r }
  report (.releaseDeferred (← pendingReleases c))

end Host

end ScriptHost
