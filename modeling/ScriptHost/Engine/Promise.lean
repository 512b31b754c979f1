import ScriptHost.Engine.Function
/-!
# Promises

A promise is settled once; what waits for it becomes work that is done when no script runs.
-/

namespace ScriptHost

namespace Eval

/-- A promise with the functions that settle it. -/
structure Capability where
  promise : Value := .undefined
  resolve : Value := .undefined
  reject : Value := .undefined
deriving Inhabited

/-- Lets a reaction wait among the work to do. -/
def enqueueReaction (r : Reaction) (rejected : Bool) (v : Value) : Eval Unit :=
  Mem.enqueue (.reaction r rejected v)

/-- Settles a promise that is pending. -/
def settle (id : Nat) (rejected : Bool) (v : Value) : Eval Unit := do
  match ← body id with
  | .promise .pending onFulfilled onRejected handled => do
    let state : PromiseState := if rejected then .rejected v else .fulfilled v
    setBody id (.promise state #[] #[] handled)
    let waiting := if rejected then onRejected else onFulfilled
    waiting.forM fun r => enqueueReaction r rejected v
  | _ => pure ()

/-- Settles a promise with a value, which may be a promise to wait for. -/
def resolveWith (id : Nat) (v : Value) : Eval Unit := do
  if v == .object id then
    let e ← newError .type (txt "promise self resolution") (traceText (← get) 0)
    settle id true e
  else if !v.isObject then settle id false v
  else
    let method ← try
        let f ← getField v "then"
        pure (Except.ok f)
      catch e => pure (Except.error e)
    match method with
    | .error e => settle id true e
    | .ok f =>
      if ← callable f then Mem.enqueue (.follow (.object id) v f)
      else settle id false v

/-- The two functions that settle a promise; only the first call of either counts. -/
def settlers (id : Nat) : Eval Capability := do
  let used ← Mem.newCell (.bool false)
  let data := #[.object id, Value.ofNat used]
  let resolve ← newInner .resolvePromise 1 data
  let reject ← newInner .rejectPromise 1 data
  pure ⟨.object id, resolve, reject⟩

/-- A new pending promise. -/
def newPromise : Eval Nat := alloc (.promise .pending #[] #[] false) .promisePrototype

/-- A new pending promise with the functions that settle it. -/
def plainCapability : Eval Capability := do settlers (← newPromise)

/-- A new promise made by a constructor, with the functions that settle it. -/
def newCapability (ctor : Value) : Eval Capability := do
  if !(← get).constructs ctor then typeError "not a constructor"
  if ctor == (← intrinsicValue .promiseConstructor) then plainCapability
  else
    let a ← Mem.newCell .undefined
    let b ← Mem.newCell .undefined
    let executor ← newInner .keepCapability 2 #[Value.ofNat a, Value.ofNat b]
    let p ← construct ctor #[executor] ctor
    let resolve ← getCell a
    let reject ← getCell b
    if !(← callable resolve) || !(← callable reject) then typeError "not a function"
    pure ⟨p, resolve, reject⟩

/-- The constructor that an object says its kind is made with. -/
def speciesOf (v : Value) (fallback : Value) : Eval Value := do
  let c ← getField v "constructor"
  match c with
  | .undefined => pure fallback
  | .object _ => do
    let s ← getOf c (.symbol WellKnown.species)
    if s.isNullish then pure fallback
    else if (← get).constructs s then pure s
    else typeError "not a constructor"
  | _ => typeError "not an object"

/-- A promise for a value: the value itself if the constructor made it. -/
def promiseFor (ctor v : Value) : Eval Value := do
  let own ← match v with
    | .object id => do
      match ← body id with
      | .promise _ _ _ _ => do pure ((← getField v "constructor") == ctor)
      | _ => pure false
    | _ => pure false
  if own then pure v
  else
    let c ← newCapability ctor
    let _ ← call c.resolve .undefined #[v]
    pure c.promise

/-- Lets handlers wait for a promise. -/
def await (id : Nat) (onFulfilled onRejected : Value) (c : Capability) : Eval Unit := do
  let handler (f : Value) : Eval Value := do if ← callable f then pure f else pure .undefined
  let good : Reaction := ⟨c.promise, c.resolve, c.reject, ← handler onFulfilled⟩
  let bad : Reaction := ⟨c.promise, c.resolve, c.reject, ← handler onRejected⟩
  match ← body id with
  | .promise state fs rs _ => do
    match state with
    | .pending => setBody id (.promise .pending (fs.push good) (rs.push bad) true)
    | .fulfilled v => do
      setBody id (.promise state fs rs true)
      enqueueReaction good false v
    | .rejected v => do
      setBody id (.promise state fs rs true)
      enqueueReaction bad true v
  | _ => pure ()

/-- Calls the `then` of a promise. -/
def thenOf (p onFulfilled onRejected : Value) : Eval Value :=
  invoke p (Key.str "then") #[onFulfilled, onRejected]

/-- Does one piece of work. -/
def perform (j : Job) : Eval Unit := do
  match j with
  | .reaction r rejected v => do
    -- Whatever the handler throws goes to the promise behind it and not to who runs the job.
    let result ← try
        if r.handler.isUndefined then
          if rejected then pure (Except.error v) else pure (Except.ok v)
        else do
          let x ← call r.handler .undefined #[v]
          pure (Except.ok x)
      catch e => pure (Except.error e)
    match result with
    | .ok x => if !r.resolve.isUndefined then let _ ← call r.resolve .undefined #[x]
    | .error e => if !r.reject.isUndefined then let _ ← call r.reject .undefined #[e]
  | .follow promise thenable method => do
    match promise with
    | .object id => do
      let c ← settlers id
      try
        let _ ← call method thenable #[c.resolve, c.reject]
      catch e =>
        let _ ← call c.reject .undefined #[e]
    | _ => pure ()
  | .finalize callback held => do
    let _ ← call callback .undefined #[held]

end Eval

end ScriptHost
