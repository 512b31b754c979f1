import Std.Data.TreeMap
import ScriptHost.Session.Answer
/-!
# Slots

The handles that a session keeps from step to step.  A slot owns what it holds, unless it is a view,
which borrows.  What a slot held before is given back once it holds something new.
-/

namespace ScriptHost

open Session

/-- What a slot holds. -/
inductive Slot where
  | value (h : Handle)
  /-- A value whose reference another one owns. -/
  | view (h : Handle)
  | key (k : KeyHandle)
  /-- A key whose reference another one owns. -/
  | keyView (k : KeyHandle)
  | bound (b : BoundFunction)
deriving Inhabited

/-- The context that a slot belongs to. -/
def Slot.context : Slot → ContextId
  | value h | view h => h.context
  | key k | keyView k => k.context
  | bound b => b.func.context

/-- The state of a session. -/
structure Session (σ : Type) where
  host : Host σ
  slots : Std.TreeMap SlotName Slot := {}

/-- What a session does. -/
abbrev Play (σ : Type) := ExceptT Trouble (StateM (Session σ))

namespace Session

variable {σ : Type} [Engine σ]

/-! ## Basics -/

/-- Lets the host act. -/
def act {α : Type} (x : Action σ α) : Play σ α := fun s =>
  match s with
  | ⟨host, slots⟩ =>
    match x host with
    | (.ok a, host) => (.ok a, ⟨host, slots⟩)
    | (.error e, host) => (.error (.stopped e), ⟨host, slots⟩)

/-- Has trouble. -/
def trouble {α : Type} (t : Trouble) : Play σ α := throw t

/-- Does something at the end, however the rest ends. -/
def finishing {α : Type} (x : Play σ α) (last : Play σ Unit) : Play σ α := do
  let a ← tryCatch x fun e => do
    last
    throw e
  last
  pure a

/-- The context of a number, which must exist. -/
def context (c : ContextId) : Play σ Context := do
  match (← getThe (Session σ)).host.contexts.get? c with
  | some x => pure x
  | none => trouble (.noContext c)

/-! ## Looking into slots -/

/-- What a slot holds. -/
def slot (name : SlotName) : Play σ Slot := do
  match (← getThe (Session σ)).slots.get? name with
  | some s => pure s
  | none => trouble (.noSlot name)

/-- The value in a slot. -/
def value (name : SlotName) : Play σ Handle := do
  match ← slot name with
  | .value h | .view h => pure h
  | _ => trouble (.wrongSlot name "a value")

/-- The key in a slot. -/
def key (name : SlotName) : Play σ KeyHandle := do
  match ← slot name with
  | .key k | .keyView k => pure k
  | _ => trouble (.wrongSlot name "an atom")

/-- The bound function in a slot. -/
def bound (name : SlotName) : Play σ BoundFunction := do
  match ← slot name with
  | .bound b => pure b
  | _ => trouble (.wrongSlot name "bound")

/-! ## Emptying and filling slots -/

/-- Empties a slot without giving anything back. -/
def clear (name : SlotName) : Play σ Unit :=
  modifyThe (Session σ) fun s => { s with slots := s.slots.erase name }

/-- Takes the value out of a slot that owns it. -/
def takeValue (name : SlotName) : Play σ Handle := do
  match ← slot name with
  | .value h => do
    clear name
    pure h
  | .view _ => do
    clear name
    trouble (.wasView name)
  | _ => trouble (.wrongSlot name "a value")

/-- Takes the key out of a slot that owns it. -/
def takeKey (name : SlotName) : Play σ KeyHandle := do
  match ← slot name with
  | .key k => do
    clear name
    pure k
  | .keyView _ => do
    clear name
    trouble (.wasView name)
  | _ => trouble (.wrongSlot name "an atom")

/-- Gives back what a slot owns. -/
def giveBack (s : Slot) : Play σ Unit :=
  match s with
  | .value h => act (Host.drop h)
  | .key k => act (Host.dropKey k)
  | .bound b => act (Host.dropBound b)
  | .view _ | .keyView _ => pure ()

/-- Keeps something in a slot and gives back what was there; without a slot, gives it back. -/
def keep (dest : Option SlotName) (s : Slot) : Play σ Unit := do
  match dest with
  | none => giveBack s
  | some name => do
    let old := (← getThe (Session σ)).slots.get? name
    modifyThe (Session σ) fun x => { x with slots := x.slots.insert name s }
    match old with
    | some old => giveBack old
    | none => pure ()

/-- Empties a slot and gives back what was there. -/
def dropSlot (name : SlotName) : Play σ Unit := do
  let s ← slot name
  clear name
  giveBack s

/-- Empties the slots that belong to a context, in the order of their names. -/
def dropSlotsOf (c : ContextId) : Play σ Unit := do
  for (name, s) in (← getThe (Session σ)).slots.toList do
    if s.context == c then dropSlot name

/-- The answer to a step that made a value: its description.  The value is kept first. -/
def made (dest : Option SlotName) (h : Handle) : Play σ Answer := do
  match dest with
  | some _ => do
    keep dest (.value h)
    pure (.value (← act (Host.describe h)))
  | none => do pure (.value (← act (Host.holding h Host.describe)))

end Session

end ScriptHost
