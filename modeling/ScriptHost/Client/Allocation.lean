import ScriptHost.Client.Thrown
/-!
# What is made without a failure being told

Texts, objects, arrays, big integers of 64 bits and keys are handed to a client as the engine gives
them.  There is no failure in the result, whatever the engine answers.
-/

namespace ScriptHost

variable {σ : Type} [Engine σ]

/-- An engine that refuses to make something new throws. -/
structure Refusing (pending : σ → Option Value) : Prop where
  throws : ∀ (q : Request) (e : σ), q.isAllocation → q.fails (Engine.answer q e).reply = true →
    (pending (Engine.answer q e).state).isSome

namespace Client

/-- Something new. -/
inductive Allocation where
  | text (s : String)
  | object | array
  | bigInt64 (n : Int64)
  | bigUInt64 (n : UInt64)
  | key (s : String)
  | indexKey (n : UInt32)

namespace Allocation

/-- What the engine is asked for. -/
def request (r : RealmId) : Allocation → Request
  | text s => .newText r s
  | object => .newObject r
  | array => .newArray r
  | bigInt64 n => .newBig r n.toInt
  | bigUInt64 n => .newBig r n.toNat
  | key s => .keyOfText r s
  | indexKey n => .keyOfIndex r n

/-- Makes something new in a context. -/
def run (c : ContextId) : Allocation → Action σ Item
  | text s => do pure (.value (← Host.newString c s))
  | object => do pure (.value (← Host.newObject c))
  | array => do pure (.value (← Host.newArray c))
  | bigInt64 n => do pure (.value (← Host.newBigInt64 c n))
  | bigUInt64 n => do pure (.value (← Host.newBigUInt64 c n))
  | key s => do pure (.key (← Host.newKey c s))
  | indexKey n => do pure (.key (← Host.newIndexKey c n))

end Allocation

/-- Whether an item is what it looks like: a value that is not the sentinel, or a key that is
one. -/
def Item.isReal : Item → Bool
  | value h => h.value != .exception
  | key k => !k.key.isNull
  | bound _ | bare _ => true

/-- Makes things one after another, each in a context. -/
def allocate (as : List (ContextId × Allocation)) : Action σ (List Item) :=
  as.mapM fun a => a.2.run a.1

end Client

end ScriptHost
