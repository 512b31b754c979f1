import ScriptHost.Host.Values
/-!
# Property keys

Keys are made from strings, indices and values, and read back.  A key that writes an index below
2^31 is an index key and reads back as a number.
-/

namespace ScriptHost

namespace Key

/-- One more than the largest index of an index key. -/
def handleLimit : Nat := twoTo 31

/-- The index of an index key. -/
def handleIndex? : Key → Option Nat
  | index n => if n < handleLimit then some n else none
  | _ => none

/-- The number that is no key's. -/
def noNumber : Nat := 0

end Key

namespace Host

variable {σ : Type} [Engine σ]

/-- The key for a string. -/
def newKey (c : ContextId) (s : String) : Action σ KeyHandle := do
  pure ⟨c, ← ask (.keyOfText (← live c) s)⟩

/-- The key for an index. -/
def newIndexKey (c : ContextId) (n : UInt32) : Action σ KeyHandle := do
  pure ⟨c, ← ask (.keyOfIndex (← live c) n)⟩

/-- The key that a value names. -/
def toKey (h : Handle) : Action σ KeyHandle := do
  let k ← ask (.keyOfValue (← live h.context) h.value)
  pure ⟨h.context, ← orThrow h.context k⟩

/-- Whether a key is an index key. -/
def isIndexKey (k : KeyHandle) : Bool := k.key.handleIndex?.isSome

/-- The value of a key: a number for an index key, else its string or symbol. -/
def keyValue (k : KeyHandle) : Action σ Handle := do
  match k.key.handleIndex? with
  | some n => newUInt32 k.context (UInt32.ofNat n)
  | none => do check k.context (← ask (.valueOfKey (← live k.context) k.key))

/-- The text of a key; for a symbol its description. -/
def keyText (k : KeyHandle) : Action σ String := do
  let v ← check k.context (← ask (.textOfKey (← live k.context) k.key))
  holding v toText

/-- Hands the reference of a key to the end of its context. -/
def keepKeyToEnd (k : KeyHandle) : Action σ KeyHandle := do
  defer k.context (.key k.key)
  pure k

/-- The number that stands for a key whose text cannot be had. -/
def keyNumber (k : Key) : Nat := (k.handleIndex?).getD Key.noNumber

/-- A key in the words of a report. -/
def keyDiagnostic (k : KeyHandle) : Action σ String := do
  let text ← tryCatch (do pure (some (← keyText k))) fun e =>
    match e with
    | .failed _ => pure none
    | e => throw e
  pure (match text with
    | some s => "Atom(" ++ Quoted.quote s ++ ")"
    | none => "Atom(#" ++ toString (keyNumber k.key) ++ ")")

end Host

end ScriptHost
