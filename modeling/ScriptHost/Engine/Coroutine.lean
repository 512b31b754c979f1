import ScriptHost.Engine.Step
/-!
# Functions that wait

Generators give values on the way, asynchronous functions wait for promises, and asynchronous
generators do both, answering what is asked of them one after the other.
-/

namespace ScriptHost

/-- How a suspended function is taken up again. -/
inductive Resumption where
  | next | throw | ret
deriving DecidableEq, Inhabited, Repr

/-- The number by which code knows a resumption. -/
def Resumption.code : Resumption → Int32
  | next => 0
  | throw => 1
  | ret => 2

namespace Frame

/-- Goes on after waiting for a promise. -/
def afterAwait (f : Frame) (rejected : Bool) (v : Value) : Frame :=
  if rejected then { f with raising := some v } else f.push v

/-- Goes on after giving a value. -/
def afterYield (f : Frame) (how : Resumption) (v : Value) : Frame :=
  match f.code.instrs[f.pc - 1]? with
  | some .initialYield => if how == .throw then { f with raising := some v } else f
  | some .yieldRaw => (f.push v).push (.int how.code)
  | _ => if how == .throw then { f with raising := some v } else (f.push v).push (.int how.code)

end Frame

namespace Eval

/-- Runs code, with what it threw as a result. -/
def attempt (f : Frame) : Eval (Except Value Outcome) := do
  try
    let o ← (← read).run f
    pure (.ok o)
  catch e => pure (.error e)

/-- Lets a function of the engine wait for a value. -/
def awaitValue (v onFulfilled onRejected : Value) : Eval Unit := do
  let p ← promiseFor (← intrinsicValue .promiseConstructor) v
  match p with
  | .object id => await id onFulfilled onRejected {}
  | _ => pure ()

/-! ## Asynchronous functions -/

/-- Runs an asynchronous function until it waits or ends. -/
def drive (id : Nat) (f : Frame) : Eval Unit := do
  match ← body id with
  | .coroutine _ resolve reject => do
    match ← attempt f with
    | .ok (.awaiting v rest) => do
      setBody id (.coroutine (some rest) resolve reject)
      let waiting ← try
          awaitValue v (← newInner .resumeValue 1 #[.object id])
            (← newInner .resumeThrow 1 #[.object id])
          pure none
        catch e => pure (some e)
      match waiting with
      | none => pure ()
      | some e => do
        -- the value could not even be waited for
        let _ ← call reject .undefined #[e]
    | .ok (.returned v) => do
      setBody id .ordinary
      let _ ← call resolve .undefined #[v]
    | .ok (.yielded _ _) => pure ()
    | .error e => do
      setBody id .ordinary
      let _ ← call reject .undefined #[e]
  | _ => pure ()

/-- Starts an asynchronous function; gives its promise. -/
def startAsync (f : Frame) : Eval Value := do
  let c ← plainCapability
  let id ← allocWith (.coroutine none c.resolve c.reject) none
  drive id f
  pure c.promise

/-! ## Generators -/

/-- Takes up a generator. -/
def resumeGenerator (this : Value) (how : Resumption) (v : Value) : Eval Value := do
  match this with
  | .object id => do
    match ← body id with
    | .generator .running _ => typeError "cannot invoke a running generator"
    | .generator .done _ =>
      match how with
      | .next => iterResult .undefined true
      | .ret => iterResult v true
      | .throw => throw v
    | .generator state (some f) => do
      -- Nothing of the body has run, so nothing in it can catch a throw or hold up a return.
      if state == .start && how != .next then
        setBody id (.generator .done none)
        match how with
        | .throw => throw v
        | _ => iterResult v true
      else
        setBody id (.generator .running none)
        match ← attempt (f.afterYield how v) with
        | .ok (.yielded x rest) => do
          setBody id (.generator .suspended (some rest))
          -- Whether the value is a result already is told by the instruction that gave it.
          match rest.code.instrs[rest.pc - 1]? with
          | some .yieldRaw => pure x
          | _ => iterResult x false
        | .ok (.returned x) => do
          setBody id (.generator .done none)
          iterResult x true
        | .ok (.awaiting _ _) => pure .undefined
        | .error e => do
          setBody id (.generator .done none)
          throw e
    | _ => typeError "not a generator"
  | _ => typeError "not a generator"

/-! ## Asynchronous generators -/

/-- Answers the oldest request of an asynchronous generator. -/
def answerRequest (id : Nat) (rejected : Bool) (v : Value) (done : Bool) : Eval Unit := do
  match ← body id with
  | .asyncGenerator state f queue => do
    match queue[0]? with
    | some r => do
      setBody id (.asyncGenerator state f (queue.extract 1 queue.size))
      if rejected then
        let _ ← call r.reject .undefined #[v]
      else
        let _ ← call r.resolve .undefined #[← iterResult v done]
    | none => pure ()
  | _ => pure ()

/-- Works on the requests of an asynchronous generator until it waits or none is left. -/
def serveRequests (id : Nat) : Nat → Eval Unit
  | 0 => pure ()
  | fuel + 1 => do
    match ← body id with
    | .asyncGenerator state f queue => do
      match queue[0]? with
      | none => pure ()
      | some r => do
        match state with
        -- Whoever took it up serves the rest of the queue.
        | .running | .awaitingReturn => pure ()
        | .done => finished r fuel
        | .start => do
          if r.mode != 0 then
            setBody id (.asyncGenerator .done none queue)
            finished r fuel
          else takeUp f queue r fuel
        | .suspended => takeUp f queue r fuel
    | _ => pure ()
where
  /-- Answers a request to a generator that is over. -/
  finished (r : GeneratorRequest) (fuel : Nat) : Eval Unit := do
    match r.mode with
    | 0 => do
      answerRequest id false .undefined true
      serveRequests id fuel
    | 1 => do
      answerRequest id true r.value true
      serveRequests id fuel
    | _ => do
      match ← body id with
      | .asyncGenerator _ f queue => setBody id (.asyncGenerator .awaitingReturn f queue)
      | _ => pure ()
      try
        -- A value that is returned is waited for; the answer is given when it settles.
        awaitValue r.value (← newInner .asyncReturnDone 1 #[.object id])
          (← newInner .asyncReturnFail 1 #[.object id])
      catch e => do
        match ← body id with
        | .asyncGenerator _ f queue => setBody id (.asyncGenerator .done f queue)
        | _ => pure ()
        answerRequest id true e true
        serveRequests id fuel
  /-- Lets the generator go on with a request. -/
  takeUp (f : Option Frame) (queue : Array GeneratorRequest) (r : GeneratorRequest) (fuel : Nat) :
      Eval Unit := do
    match f with
    | some f => do
      setBody id (.asyncGenerator .running none queue)
      let how : Resumption := match r.mode with
        | 0 => .next
        | 1 => .throw
        | _ => .ret
      advance (f.afterYield how r.value) fuel
    | none => pure ()
  /-- Runs the code of the generator until it rests. -/
  advance (f : Frame) (fuel : Nat) : Eval Unit := do
    match ← attempt f with
    | .ok (.awaiting v rest) => do
      match ← body id with
      | .asyncGenerator _ _ queue => setBody id (.asyncGenerator .running (some rest) queue)
      | _ => pure ()
      awaitValue v (← newInner .resumeValue 1 #[.object id])
        (← newInner .resumeThrow 1 #[.object id])
    | .ok (.yielded v rest) => do
      match ← body id with
      | .asyncGenerator _ _ queue => setBody id (.asyncGenerator .suspended (some rest) queue)
      | _ => pure ()
      answerRequest id false v false
      serveRequests id fuel
    | .ok (.returned v) => do
      close
      answerRequest id false v true
      serveRequests id fuel
    | .error e => do
      close
      answerRequest id true e true
      serveRequests id fuel
  /-- The generator is over. -/
  close : Eval Unit := do
    match ← body id with
    | .asyncGenerator _ _ queue => setBody id (.asyncGenerator .done none queue)
    | _ => pure ()

/-- How many requests are worked on in one go. -/
def requestLimit : Nat := twoTo 32

/-- Takes up what waited for a promise. -/
def resumeWaiting (v : Value) (rejected : Bool) (result : Value) : Eval Unit := do
  match v with
  | .object id => do
    match ← body id with
    | .coroutine (some f) resolve reject => do
      setBody id (.coroutine none resolve reject)
      drive id (f.afterAwait rejected result)
    | .asyncGenerator .running (some f) queue => do
      setBody id (.asyncGenerator .running none queue)
      serveRequests.advance id (f.afterAwait rejected result) requestLimit
    | _ => pure ()
  | _ => pure ()

/-- Asks something of an asynchronous generator; gives a promise for the answer. -/
def askGenerator (this : Value) (mode : Nat) (v : Value) : Eval Value := do
  let c ← plainCapability
  let refused : Eval Value := do
    let e ← newError .type (txt "not an AsyncGenerator object") (traceText (← get) 0)
    let _ ← call c.reject .undefined #[e]
    pure c.promise
  match this with
  | .object id => do
    match ← body id with
    | .asyncGenerator state f queue => do
      setBody id (.asyncGenerator state f (queue.push ⟨mode, v, c.promise, c.resolve, c.reject⟩))
      serveRequests id requestLimit
      pure c.promise
    | _ => refused
  | _ => refused

end Eval

end ScriptHost
