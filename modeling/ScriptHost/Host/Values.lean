import ScriptHost.Host.Handle
/-!
# Values

Making values, asking what they are, and converting them.  Questions that a tag answers need no
engine; the others do, and a question that the engine fails to answer is answered with no.
-/

namespace ScriptHost

namespace Host

variable {σ : Type} [Engine σ]

/-! ## Making values -/

/-- The null value. -/
def newNull (c : ContextId) : Handle := ⟨c, .null⟩

/-- The undefined value. -/
def newUndefined (c : ContextId) : Handle := ⟨c, .undefined⟩

/-- What a binding holds before it is initialized. -/
def newUninitialized (c : ContextId) : Handle := ⟨c, .uninitialized⟩

/-- The sentinel that stands for a failure. -/
def newException (c : ContextId) : Handle := ⟨c, .exception⟩

/-- A boolean. -/
def newBool (c : ContextId) (b : Bool) : Handle := ⟨c, .bool b⟩

/-- A number from a 32-bit integer. -/
def newInt32 (c : ContextId) (n : Int32) : Handle := ⟨c, .int n⟩

/-- A number from a double. -/
def newFloat (c : ContextId) (d : Float) : Handle := ⟨c, .float d⟩

/-- A number from a 32-bit natural. -/
def newUInt32 (c : ContextId) (n : UInt32) : Action σ Handle := do
  let _ ← live c
  pure ⟨c, Value.ofInt n.toNat⟩

/-- A number from a 64-bit integer, rounded if it needs more than 53 bits. -/
def newInt64 (c : ContextId) (n : Int64) : Action σ Handle := do
  let _ ← live c
  pure ⟨c, Value.ofInt n.toInt⟩

/-- A big integer from a 64-bit integer. -/
def newBigInt64 (c : ContextId) (n : Int64) : Action σ Handle := do
  pure ⟨c, ← ask (.newBig (← live c) n.toInt)⟩

/-- A big integer from a 64-bit natural. -/
def newBigUInt64 (c : ContextId) (n : UInt64) : Action σ Handle := do
  pure ⟨c, ← ask (.newBig (← live c) n.toNat)⟩

/-- A string. -/
def newString (c : ContextId) (s : String) : Action σ Handle := do
  pure ⟨c, ← ask (.newText (← live c) s)⟩

/-- An empty object. -/
def newObject (c : ContextId) : Action σ Handle := do pure ⟨c, ← ask (.newObject (← live c))⟩

/-- An empty array. -/
def newArray (c : ContextId) : Action σ Handle := do pure ⟨c, ← ask (.newArray (← live c))⟩

/-! ## Asking what values are -/

/-- Whether a value is a number. -/
def isNumber (h : Handle) : Bool := h.value.tag == Tag.int || h.value.tag == Tag.float

/-- Whether a value is a big integer. -/
def isBigInt (h : Handle) : Bool := Tag.isBigInt h.value.tag

/-- Whether a value has a tag. -/
def hasTag (t : Int) (h : Handle) : Bool := h.value.tag == t

/-- Whether a value can be called. -/
def isFunction (h : Handle) : Action σ Bool := do
  if h.value.isObject then ask (.isFunction (← live h.context) h.value) else pure false

/-- Whether a value can be constructed. -/
def isConstructor (h : Handle) : Action σ Bool := do
  if h.value.isObject then ask (.isConstructor (← live h.context) h.value) else pure false

/-- Whether an object is an instance of a constructor; no, if that cannot be told. -/
def isInstance (h : Handle) (constructor : Value) : Action σ Bool := do
  if h.value.isObject && constructor.isObject then
    match ← ask (.isInstance (← live h.context) h.value constructor) with
    | some b => pure b
    -- The check can run scripts, by which it can throw; then the answer is no.
    | none => do
      discardException h.context
      pure false
  else pure false

/-- The word for the type of a value. -/
def typeName (h : Handle) : Action σ String := do
  match h.value with
  | .int _ | .float _ => pure "number"
  | .bool _ => pure "boolean"
  | .null => pure "null"
  | .undefined => pure "undefined"
  | .uninitialized => pure "uninitialized"
  | .exception => pure "exception"
  | .string _ => pure "string"
  | .symbol _ => pure "symbol"
  | .bigint _ => pure "bigint"
  -- Only here is the engine asked, so only here does it matter whether the context is live.
  | .object _ => do pure (if ← isFunction h then "function" else "object")

/-! ## Converting values -/

/-- Whether a value counts as true. -/
def toBool (h : Handle) : Action σ Bool := do ask (.toBool (← live h.context) h.value)

/-- The 32-bit integer for a value. -/
def toInt32 (h : Handle) : Action σ Int32 := do
  orThrow h.context (← ask (.toInt32 (← live h.context) h.value))

/-- The 32-bit natural for a value. -/
def toUInt32 (h : Handle) : Action σ UInt32 := do
  orThrow h.context (← ask (.toUInt32 (← live h.context) h.value))

/-- The 64-bit integer for a value: its integer part, without what lies above 64 bits. -/
def toInt64 (h : Handle) : Action σ Int64 := do
  orThrow h.context (← ask (.toInt64 (← live h.context) h.value))

/-- The double for a value. -/
def toFloat (h : Handle) : Action σ Float := do
  orThrow h.context (← ask (.toFloat (← live h.context) h.value))

/-- The low 64 bits of the big integer for a value. -/
def toBigInt64 (h : Handle) : Action σ Int64 := do
  orThrow h.context (← ask (.toBigInt64 (← live h.context) h.value))

/-- The text of a value. -/
def toText (h : Handle) : Action σ String := do
  orThrow h.context (← ask (.toText (← live h.context) h.value))

/-- The integer that a decimal numeral writes. -/
def ofDecimal? (s : String) : Option Int :=
  match s.toList with
  | '-' :: ds => (natural? ds).map fun n => -(n : Int)
  | ds => (natural? ds).map fun n => (n : Int)
where
  /-- The natural that digits write. -/
  natural? (ds : List Char) : Option Nat :=
    if !ds.isEmpty && ds.all Char.isDigit then
      some (ds.foldl (fun n c => n * 10 + (c.toNat - 48)) 0)
    else none

/-- The integer that the text of a big integer stands for. -/
def readDecimal (text : String) : Action σ Int := do
  match ofDecimal? text with
  | some n => pure n
  | none =>
      fail (.internal ("bigint decimal " ++ Quoted.quote text ++ ": invalid digit found in string"))

/-- The big integer that a value is. -/
def toBigInt (h : Handle) : Action σ Int := do
  if !isBigInt h then fail (.wrongType "bigint" (← typeName h))
  readDecimal (← toText h)

/-- A value in the words of a report. -/
def diagnostic (h : Handle) : Action σ String := do
  match h.value with
  | .int _ | .float _ | .bool _ | .string _ => do pure ("Value(" ++ (← textLossy h) ++ ")")
  | _ => do pure ("Value(<" ++ (← typeName h) ++ ">)")

end Host

end ScriptHost
