import ScriptHost.Host.Properties
/-!
# Calls

Calling and constructing, and functions with a receiver and leading arguments bound to them.  The
arguments stay the caller's own; a bound function holds references of its own.
-/

namespace ScriptHost

/-! ## Rows of arguments -/

/-- Up to how many arguments a call needs no memory of its own for them. -/
def inlineArguments : Nat := 4

/-- A row of values that the engine reads during a call. -/
structure ArgBuffer where
  values : List Value := []
  /-- For how many values there is room; memory is taken if they do not fit in place. -/
  room : Nat := inlineArguments
deriving Inhabited

namespace ArgBuffer

/-- An empty row with room for a number of values. -/
def withRoom (n : Nat) : ArgBuffer := { room := max inlineArguments n }

/-- The row with more values at its end. -/
def extend (b : ArgBuffer) (vs : List Value) : ArgBuffer :=
  { values := b.values ++ vs, room := max b.room (b.values.length + vs.length) }

/-- Whether memory was taken. -/
def spilled (b : ArgBuffer) : Bool := inlineArguments < b.room

/-- The number of values, as the engine is told. -/
def count (b : ArgBuffer) : Int32 := Int32.ofNat b.values.length

/-- What the engine is pointed to; nothing if there are no values. -/
def pointer (b : ArgBuffer) : Option (List Value) :=
  if b.values.isEmpty then none else some b.values

/-- What the engine reads: as many values as it was told, from where it was pointed to. -/
def passed (b : ArgBuffer) : List Value := (b.pointer.getD []).take b.count.toInt.toNat

end ArgBuffer

/-- The row of the values of some handles. -/
def marshal (hs : List Handle) : ArgBuffer :=
  (ArgBuffer.withRoom hs.length).extend (hs.map (·.value))

/-! ## Bound functions -/

/-- A function with a receiver and leading arguments. -/
structure BoundFunction where
  func : Handle
  this : Handle
  leading : List Handle := []
deriving DecidableEq, Inhabited

namespace BoundFunction

/-- How many leading arguments there are. -/
def leadingCount (b : BoundFunction) : Nat := b.leading.length

/-- Everything that the function holds, in the order in which it is given back. -/
def handles (b : BoundFunction) : List Handle := b.func :: b.this :: b.leading

end BoundFunction

namespace Host

variable {σ : Type} [Engine σ]

/-! ## Calling -/

/-- Calls a function. -/
def invoke (f : Handle) (this : Value) (args : ArgBuffer) : Action σ Handle := do
  check f.context (← ask (.call (← live f.context) f.value this args.passed))

/-- Calls a function; without a receiver, that is undefined. -/
def call (f : Handle) (this : Option Handle) (args : List Handle) : Action σ Handle :=
  invoke f ((this.map (·.value)).getD .undefined) (marshal args)

/-- Constructs with a constructor. -/
def construct (f : Handle) (args : List Handle) : Action σ Handle := do
  check f.context (← ask (.construct (← live f.context) f.value (marshal args).passed))

/-- Calls the method under a name. -/
def callMethod (h : Handle) (name : String) (args : List Handle) : Action σ Handle := do
  holding (← get h (.text name)) fun f => call f (some h) args

/-- Second references to values; if one cannot be had, those before it are given back. -/
def dupeEach : List Handle → Action σ (List Handle)
  | [] => pure []
  | h :: hs => do
    let d ← dupe h
    -- No one else would give back the reference that was just taken.
    let ds ← tryCatch (dupeEach hs) fun e => do
      drop d
      throw e
    pure (d :: ds)

/-- Binds a receiver and leading arguments to a function. -/
def bind (f : Handle) (this : Option Handle) (leading : List Handle) : Action σ BoundFunction := do
  let this := this.getD (newUndefined f.context)
  match ← dupeEach (this :: leading ++ [f]) with
  -- The function is the last of them; its second reference is held under the handle it had.
  | t :: rest => pure { func := f, this := t, leading := rest.dropLast }
  | [] => pure { func := f, this := this, leading := [] }

/-- Calls a bound function. -/
def callBound (b : BoundFunction) (args : List Handle) : Action σ Handle :=
  -- Room is made for all of them at once, so the row is moved out of place at most once.
  let row := (ArgBuffer.withRoom (b.leadingCount + args.length)).extend (b.leading.map (·.value))
  invoke b.func b.this.value (row.extend (args.map (·.value)))

/-- Gives back everything that a bound function holds. -/
def dropBound (b : BoundFunction) : Action σ Unit := b.handles.forM drop

/-- A bound function in the words of a report. -/
def boundDiagnostic (b : BoundFunction) : Action σ String := do
  pure ("BoundFunction \x7b func: " ++ (← diagnostic b.func) ++ ", prefix_len: " ++
    toString b.leadingCount ++ " \x7d")

/-! ## Values made by calls -/

/-- A new symbol, with a description if one is given. -/
def newSymbol (c : ContextId) (description : Option Handle) : Action σ Handle := do
  let symbol : Handle := ⟨c, (← context c).cache.symbol⟩
  call symbol none description.toList

/-- A new error with a message. -/
def newError (c : ContextId) (message : String) : Action σ Handle := do
  let e ← check c (← ask (.newError (← live c)))
  tryCatch (do
      -- Setting may run a setter of the prototype, so it can fail like any other request.
      set e (.text "message") (← newString c message)
      pure e) fun x => do
    drop e
    throw x

end Host

end ScriptHost
