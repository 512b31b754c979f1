import ScriptHost.Host.Contexts
import ScriptHost.Host.Exchange
import ScriptHost.Session.Step
/-!
# Answers of a session

What a step tells when it succeeds, how values and keys are described in answers, and why a step may
have no answer.
-/

namespace ScriptHost

open Session

/-- A plain piece of an answer. -/
inductive Scalar where
  | flag (b : Bool)
  | integer (n : Int)
  /-- An integer of more than 32 bits. -/
  | decimal (n : Int)
  | real (d : Float)
  | text (s : String)
deriving Inhabited

/-- A value as it is described: the word for its type, and what a primitive value is. -/
structure Description where
  typeName : String
  payload : Option Scalar := none
deriving Inhabited

/-- A key as it is described. -/
structure KeyDescription where
  isIndex : Bool
  text : Except HostError String
  value : Except HostError Description
  report : String
deriving Inhabited

/-- What there is to know about a context. -/
structure ContextState where
  isFreed : Bool
  pending : Nat
  hasRealm : Bool
  report : String
deriving Inhabited

/-- What a step tells. -/
inductive Answer where
  | nothing
  | scalar (s : Scalar)
  | texts (ss : List String)
  | bytes (b : ByteArray)
  | value (d : Description)
  | key (d : KeyDescription)
  | keys (ds : List KeyDescription)
  | pending (n : Nat)
  | leading (n : Nat)
  | boundInfo (leading : Nat) (report : String)
  | context (s : ContextState)
  | runtime (s : Settings) (report : String)
  | lending (refused : Option HostError) (balanced : Bool) (pinned : Nat)
  | reference (counted : Bool) (tag : Int)
  | conversions (results : List (Conversion × Except HostError Scalar))
  | record (e : ExceptionRecord)
  | document (d : Document)
  /-- A number that is told by its bits. -/
  | bits (d : Float)
  | arrayInfo (offset length elementSize : Nat) (report : String)
deriving Inhabited

namespace Answer

/-- Yes or no. -/
def flag (b : Bool) : Answer := scalar (.flag b)

/-- A natural number. -/
def count (n : Nat) : Answer := scalar (.integer n)

/-- A text. -/
def text (s : String) : Answer := scalar (.text s)

/-- Data of an expected shape. -/
def ofDocument (s : Schema) (d : Document) : Answer :=
  match s, d with
  | .f64, .real x => bits x
  | _, d => document d

/-- A text that may be missing. -/
def maybeText : Option String → Answer
  | some s => text s
  | none => nothing

end Answer

/-- Why a step has no answer. -/
inductive Trouble where
  /-- The host failed or was misused. -/
  | stopped (stop : Stop)
  | noContext (context : ContextId)
  | noSlot (slot : SlotName)
  /-- A slot holds something else than the step works on. -/
  | wrongSlot (slot : SlotName) (wanted : String)
  /-- A slot holds a view and so nothing to give up. -/
  | wasView (slot : SlotName)
  | badInput (why : String)
deriving DecidableEq, Inhabited, Repr

namespace Trouble

/-- The word that names the kind of trouble. -/
def kind : Trouble → String
  | stopped (.failed e) => e.kind
  | stopped (.panicked _) => "Panic"
  | noContext _ => "NoContext"
  | noSlot _ | wrongSlot _ _ | wasView _ => "NoSlot"
  | badInput _ => "BadInput"

/-- The trouble in words. -/
def message : Trouble → String
  | stopped (.failed e) => e.message
  | stopped (.panicked p) => p.message
  | noContext c => "no context " ++ toString c
  | noSlot s => "no slot " ++ s
  | wrongSlot s wanted => "slot " ++ s ++ " is not " ++ wanted
  | wasView s => "slot " ++ s ++ " was a view"
  | badInput why => why

/-- The failure of the host, if it is one. -/
def error? : Trouble → Option HostError
  | stopped (.failed e) => some e
  | _ => none

end Trouble

namespace Host

variable {σ : Type} [Engine σ]

/-! ## Describing -/

/-- What an action gives, or how it failed; misuse still stops everything. -/
def attempt {α : Type} (x : Action σ α) : Action σ (Except HostError α) :=
  tryCatch (do pure (.ok (← x))) fun e =>
    match e with
    | .failed e => pure (.error e)
    | e => throw e

/-- Describes a value. -/
def describe (h : Handle) : Action σ Description := do
  let name ← typeName h
  match h.value with
  | .int _ | .float _ => do pure ⟨name, some (.real (← toFloat h))⟩
  | .string _ => do pure ⟨name, some (.text (← toText h))⟩
  | .bool _ => do pure ⟨name, some (.flag (← toBool h))⟩
  | .bigint _ => do pure ⟨name, some (.decimal (← toBigInt h))⟩
  | _ => pure ⟨name, none⟩

/-- Describes a key. -/
def describeKey (k : KeyHandle) : Action σ KeyDescription := do
  let text ← attempt (keyText k)
  let value ← attempt (do holding (← keyValue k) describe)
  pure ⟨isIndexKey k, text, value, ← keyDiagnostic k⟩

/-- Converts a value. -/
def convertTo (h : Handle) : Conversion → Action σ Scalar
  | .bool => do pure (.flag (← toBool h))
  | .int32 => do pure (.integer (← toInt32 h).toInt)
  | .uint32 => do pure (.integer (← toUInt32 h).toNat)
  | .int64 => do pure (.decimal (← toInt64 h).toInt)
  | .float => do pure (.real (← toFloat h))
  | .bigInt64 => do pure (.decimal (← toBigInt64 h).toInt)
  | .bigInt => do pure (.decimal (← toBigInt h))
  | .text => do pure (.text (← toText h))

/-- The questions about what a value is, in order, with their words. -/
def questions : List (String × (Handle → Action σ Bool)) :=
  [("number", fun h => pure (isNumber h)),
   ("bigint", fun h => pure (isBigInt h)),
   ("bool", fun h => pure (hasTag Tag.bool h)),
   ("null", fun h => pure (hasTag Tag.null h)),
   ("undefined", fun h => pure (hasTag Tag.undefined h)),
   ("exception", fun h => pure (hasTag Tag.exception h)),
   ("uninitialized", fun h => pure (hasTag Tag.uninitialized h)),
   ("string", fun h => pure (hasTag Tag.string h)),
   ("symbol", fun h => pure (hasTag Tag.symbol h)),
   ("object", fun h => pure (hasTag Tag.object h)),
   ("error", isError),
   ("function", isFunction),
   ("constructor", isConstructor),
   ("array", isArray),
   ("map", isMap),
   ("set", isSet),
   ("weak_map", isWeakMap),
   ("weak_set", isWeakSet),
   ("array_buffer", isArrayBuffer),
   ("ref_count", fun h => pure h.value.isCounted)]

/-- The words of the questions that are answered with yes. -/
def holds (h : Handle) : Action σ (List String) := do
  let yes ← questions.filterM fun q => q.2 h
  pure (yes.map (·.1))

/-- What there is to know about a context. -/
def contextState (c : ContextId) : Action σ ContextState := do
  let x ← context c
  pure ⟨x.realm.isNone, x.deferred.size, x.realm.isSome, ← contextDiagnostic c⟩

/-- What a typed array looks at, in the words of a report. -/
def infoDiagnostic (i : ArrayInfo) : Action σ String := do
  pure ("TypedArrayInfo \x7b buffer: " ++ (← diagnostic i.buffer) ++ ", byte_offset: " ++
    toString i.offset ++
    ", byte_length: " ++ toString i.length ++ ", bytes_per_element: " ++ toString i.elementSize ++
      " \x7d")

/-! ## Lending until it is refused -/

/-- How many regions are lent. -/
def pinned : Action σ Nat := do pure (← getThe (Host σ)).pins.live

/-- Lends small regions until one is refused; the buffers made and the refusal. -/
def lendAgain (c : ContextId) : Nat → List Handle → Action σ (List Handle × Option HostError)
  | 0, made => pure (made, none)
  | fuel + 1, made => do
    match ← attempt (newSharedBuffer c (ByteArray.mk #[0, 0, 0])) with
    | .ok h => lendAgain c fuel (h :: made)
    | .error e => pure (made, some e)

/-- Lends small regions until one is refused and gives all of them back; the refusal, and whether
exactly the buffers made were lent in between. -/
def lendUntilRefused (c : ContextId) : Action σ (Option HostError × Bool) := do
  let before ← pinned
  let (made, refused) ← lendAgain c 100000 []
  let between ← pinned
  if !made.isEmpty then dropAll c (made.reverse.map (·.value))
  pure (refused, between == before + made.length)

end Host

end ScriptHost
