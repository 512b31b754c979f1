import ScriptHost.Session.Slot
/-!
# Making values in a session

The makers of values, and operands, which are taken from slots or made for one step and given back
after it.
-/

namespace ScriptHost

open Session

/-- A value that a step works with. -/
structure Loan where
  handle : Handle
  /-- Whether it was made for the step. -/
  isOwn : Bool
deriving Inhabited

namespace Session

variable {σ : Type} [Engine σ]

/-- Gives back what was made for a step. -/
def release (l : Loan) : Play σ Unit := if l.isOwn then act (Host.drop l.handle) else pure ()

/-- The kind of typed arrays with a number. -/
def elementKind (n : Int) : Play σ ElementKind :=
  match ElementKind.ofNumber n with
  | .ok k => pure k
  | .error e => trouble (.stopped (.failed e))

/-- Lets the host act in a context, which must exist. -/
def inside {α : Type} (c : ContextId) (x : Action σ α) : Play σ α := do
  let _ ← context c
  act x

/-- A typed array of a kind that a number names, made in a context. -/
def makeTyped (c : ContextId) (n : Int) (x : ElementKind → Action σ Handle) : Play σ Handle := do
  let _ ← context c
  act (x (← elementKind n))

mutual

/-- Makes a value. -/
def make (c : ContextId) : Maker → Play σ Handle
  | .null => inside c (pure (Host.newNull c))
  | .undefined => inside c (pure (Host.newUndefined c))
  | .uninitialized => inside c (pure (Host.newUninitialized c))
  | .exception => inside c (pure (Host.newException c))
  | .bool b => inside c (pure (Host.newBool c b))
  | .int32 n => inside c (pure (Host.newInt32 c n))
  | .uint32 n => inside c (Host.newUInt32 c n)
  | .int64 n => inside c (Host.newInt64 c n)
  | .bigInt64 n => inside c (Host.newBigInt64 c n)
  | .bigUInt64 n => inside c (Host.newBigUInt64 c n)
  | .bigInt n => inside c (Host.newBigInt c n)
  | .float d => inside c (pure (Host.newFloat c d))
  | .string s => inside c (Host.newString c s)
  | .symbol => inside c (Host.newSymbol c none)
  | .symbolOf d => do
    let _ ← context c
    let d ← resolve c d
    finishing (act (Host.newSymbol c (some d.handle))) (release d)
  | .object => inside c (Host.newObject c)
  | .array => inside c (Host.newArray c)
  | .map => inside c (Host.newMap c)
  | .set => inside c (Host.newSet c)
  | .weakMap => inside c (Host.newWeakMap c)
  | .weakSet => inside c (Host.newWeakSet c)
  | .error m => inside c (Host.newError c m)
  | .arrayBuffer b => inside c (Host.newArrayBuffer c b)
  | .sharedBuffer b => inside c (Host.newSharedBuffer c b)
  | .typedArray n length => makeTyped c n fun k => Host.newTypedArray c k length
  | .typedArrayOf n b => makeTyped c n fun k => Host.newTypedArrayOf c k b
  | .typedArrayOver b n => do
    let _ ← context c
    let b ← resolve c b
    finishing (makeTyped c n fun k => Host.newTypedArrayOver c k b.handle) (release b)
  | .parseJson s => inside c (Host.parseJson c s)
  | .serialize d => inside c (Host.serialize c d)
  | .eval s => inside c (Host.eval c s)
  | .evalAsync s => inside c (Host.evalAsync c s)
  | .evalWith s file mode => inside c (Host.evalWith c s file mode)
  | .dupe name => do act (Host.dupe (← value name))

/-- Gets the value of an operand. -/
def resolve (c : ContextId) : Operand → Play σ Loan
  | .slot name => do pure ⟨← value name, false⟩
  | .made own m => do pure ⟨← make (own.getD c) m, true⟩

end

/-- Gets the values of operands, the first one first. -/
def resolveAll (c : ContextId) : List Operand → Play σ (List Loan)
  | [] => pure []
  | o :: os => do
    let l ← resolve c o
    let ls ← tryCatch (resolveAll c os) fun e => do
      release l
      throw e
    pure (l :: ls)

/-- Works with the values of operands and gives back what was made for it. -/
def withOperands {α : Type} (c : ContextId) (os : List Operand) (x : List Handle → Play σ α) :
    Play σ α := do
  let ls ← resolveAll c os
  finishing (x (ls.map (·.handle))) (ls.forM release)

/-- Works with the value of an operand. -/
def withOperand {α : Type} (c : ContextId) (o : Operand) (x : Handle → Play σ α) : Play σ α := do
  let l ← resolve c o
  finishing (x l.handle) (release l)

/-- Works with the value of an operand that may be missing. -/
def withOperand? {α : Type} (c : ContextId) (o : Option Operand) (x : Option Handle → Play σ α) :
    Play σ α :=
  match o with
  | none => x none
  | some o => withOperand c o fun h => x (some h)

end Session

end ScriptHost
