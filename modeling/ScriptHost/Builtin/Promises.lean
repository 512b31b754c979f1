import ScriptHost.Builtin.Iterators
/-!
# Promises, and functions that the engine makes as it goes
-/

namespace ScriptHost

namespace Builtin

open Eval

/-- Makes a promise. -/
def promiseConstructor (c : NativeCall) : Eval Value := do
  needsNew c
  let executor ← functionArg c 0
  let id ← allocFor (.promise .pending #[] #[] false) c.target .promisePrototype
  let s ← settlers id
  try
    let _ ← call executor .undefined #[s.resolve, s.reject]
  catch e =>
    let _ ← call s.reject .undefined #[e]
  pure (.object id)

/-- Makes a failure reject the promise of a capability. -/
def rejecting (p : Capability) (x : Eval Unit) : Eval Value := do
  try x
  catch e =>
    let _ ← call p.reject .undefined #[e]
  pure p.promise

/-- Lets each item of the first argument be waited for. -/
def eachPromise (c : NativeCall) (f : Nat → Value → Eval Unit) : Eval Nat := do
  let resolve ← getField c.this "resolve"
  if !(← callable resolve) then typeError "not a function"
  let it ← openItems (c.arg 0)
  foldItems it 0 fun i v => do
    let next ← call resolve c.this #[v]
    f i next
    pure (i + 1)

/-- Puts a value at a place of an array that is being gathered. -/
def gather (values : Value) (i : Nat) (v : Value) : Eval Unit := do
  match values with
  | .object id => do
    let m ← get
    if arrayLength m id ≤ i then storeLength id (i + 1) true
    Mem.putProperty id (Key.ofNat i) (.plain v)
  | _ => pure ()

/-- Counts in a cell; tells what is left. -/
def countDown (cell : Value) (by' : Int) : Eval Int := do
  match cell with
  | .int c => do
    let id := c.toNatClampNeg
    match ← getCell id with
    | .int n => do
      let left := n.toInt + by'
      setCell id (Value.ofInt left)
      pure left
    | _ => pure 0
  | _ => pure 0

/-- Waits for every item, in one of three ways. -/
def promiseAll (c : NativeCall) (settled anyOne : Bool) : Eval Value := do
  if !c.this.isObject then typeError "not an object"
  let p ← newCapability c.this
  rejecting p do
    let values ← newArray #[]
    -- Counting starts at one, so that nothing is finished before all items are asked for.
    let left ← Mem.newCell (.int 1)
    let finish : Eval Unit := do
      if anyOne then
        let id ← alloc .error .aggregateErrorPrototype
        Mem.putHidden id "errors" values
        let _ ← call p.reject .undefined #[.object id]
      else
        let _ ← call p.resolve .undefined #[values]
    let _ ← eachPromise c fun i next => do
      gather values i .undefined
      let _ ← countDown (Value.ofNat left) 1
      let used ← Mem.newCell (.bool false)
      let data := #[Value.ofNat used, Value.ofNat i, values, Value.ofNat left, p.resolve, p.reject]
      if anyOne then
        let bad ← newInner .anyReject 1 data
        let _ ← thenOf next p.resolve bad
      else if settled then
        let good ← newInner .allSettledResolve 1 data
        let bad ← newInner .allSettledReject 1 data
        let _ ← thenOf next good bad
      else
        let good ← newInner .allResolve 1 data
        let _ ← thenOf next good p.reject
    if (← countDown (Value.ofNat left) (-1)) == 0 then finish

/-- Functions of the constructor of promises. -/
def promiseStatics : Array Native := #[
  method "resolve" 1 fun c => do
    if !c.this.isObject then typeError "not an object"
    promiseFor c.this (c.arg 0),
  method "reject" 1 fun c => do
    if !c.this.isObject then typeError "not an object"
    let p ← newCapability c.this
    let _ ← call p.reject .undefined #[c.arg 0]
    pure p.promise,
  method "all" 1 fun c => promiseAll c false false,
  method "allSettled" 1 fun c => promiseAll c true false,
  method "any" 1 fun c => promiseAll c false true,
  method "try" 1 fun c => do
    if !c.this.isObject then typeError "not an object"
    let p ← newCapability c.this
    rejecting p do
      let v ← call (c.arg 0) .undefined (c.args.extract 1 c.args.size)
      let _ ← call p.resolve .undefined #[v],
  method "race" 1 fun c => do
    if !c.this.isObject then typeError "not an object"
    let p ← newCapability c.this
    rejecting p do
      let _ ← eachPromise c fun _ next => do
        let _ ← thenOf next p.resolve p.reject,
  method "withResolvers" 0 fun c => do
    if !c.this.isObject then typeError "not an object"
    let p ← newCapability c.this
    newRecord [("promise", p.promise), ("resolve", p.resolve), ("reject", p.reject)],
  getter "@species" returnThis]

/-- What promises inherit. -/
def promisePrototype : Array Native := #[
  method "then" 2 fun c => do
    match ← bodyOf c.this with
    | some (id, .promise _ _ _ _) => do
      let ctor ← speciesOf c.this (← intrinsicValue .promiseConstructor)
      let p ← newCapability ctor
      await id (c.arg 0) (c.arg 1) p
      pure p.promise
    | _ => typeError "Promise object expected",
  method "catch" 1 fun c => invoke c.this (Key.str "then") #[.undefined, c.arg 0],
  method "finally" 1 fun c => do
    if !c.this.isObject then typeError "not an object"
    let ctor ← speciesOf c.this (← intrinsicValue .promiseConstructor)
    let f := c.arg 0
    if ← callable f then
      let good ← newInner .thenFinally 1 #[ctor, f]
      let bad ← newInner .catchFinally 1 #[ctor, f]
      thenOf c.this good bad
    else thenOf c.this f f]

/-! ## Functions made on the way -/

/-- Marks a function that counts once as used; tells whether it was used before. -/
def useOnce (cell : Value) : Eval Bool := do
  match cell with
  | .int c => do
    let id := c.toNatClampNeg
    let was ← getCell id
    setCell id (.bool true)
    pure (was == .bool true)
  | _ => pure true

/-- Keeps one result among those that are gathered, and finishes with the last. -/
def keepResult (c : NativeCall) (v : Eval Value) (finish : Value → Eval Unit) : Eval Value := do
  if !(← useOnce (c.datum 0)) then
    match c.datum 1 with
    | .int i => gather (c.datum 2) i.toNatClampNeg (← v)
    | _ => pure ()
    if (← countDown (c.datum 3) (-1)) == 0 then finish (c.datum 2)
  pure .undefined

/-- What a function made on the way does. -/
def runInner (f : InnerFunction) (c : NativeCall) : Eval Value := do
  match f with
  | .resolvePromise => do
    if !(← useOnce (c.datum 1)) then
      match c.datum 0 with
      | .object id => resolveWith id (c.arg 0)
      | _ => pure ()
    pure .undefined
  | .rejectPromise => do
    if !(← useOnce (c.datum 1)) then
      match c.datum 0 with
      | .object id => settle id true (c.arg 0)
      | _ => pure ()
    pure .undefined
  | .keepCapability => do
    match c.datum 0, c.datum 1 with
    | .int a, .int b => do
      let x ← getCell a.toNatClampNeg
      let y ← getCell b.toNatClampNeg
      if !x.isUndefined || !y.isUndefined then typeError "resolving function already set"
      setCell a.toNatClampNeg (c.arg 0)
      setCell b.toNatClampNeg (c.arg 1)
    | _, _ => pure ()
    pure .undefined
  | .resumeValue => do
    resumeWaiting (c.datum 0) false (c.arg 0)
    pure .undefined
  | .resumeThrow => do
    resumeWaiting (c.datum 0) true (c.arg 0)
    pure .undefined
  | .thenFinally => do
    let r ← call (c.datum 1) .undefined #[]
    let p ← promiseFor (c.datum 0) r
    thenOf p (← newInner .returnKept 0 #[c.arg 0]) .undefined
  | .catchFinally => do
    let r ← call (c.datum 1) .undefined #[]
    let p ← promiseFor (c.datum 0) r
    thenOf p (← newInner .throwKept 0 #[c.arg 0]) .undefined
  | .returnKept => pure (c.datum 0)
  | .throwKept => throw (c.datum 0)
  | .allResolve => keepResult c (pure (c.arg 0)) fun vs => do
      let _ ← call (c.datum 4) .undefined #[vs]
  | .allSettledResolve =>
    keepResult c (newRecord [("status", .str "fulfilled"), ("value", c.arg 0)]) fun vs => do
      let _ ← call (c.datum 4) .undefined #[vs]
  | .allSettledReject =>
    keepResult c (newRecord [("status", .str "rejected"), ("reason", c.arg 0)]) fun vs => do
      let _ ← call (c.datum 4) .undefined #[vs]
  | .anyReject => keepResult c (pure (c.arg 0)) fun vs => do
      let id ← alloc .error .aggregateErrorPrototype
      Mem.putHidden id "errors" vs
      let _ ← call (c.datum 5) .undefined #[.object id]
  | .revokeProxy => do
    match ← bodyOf (c.datum 0) with
    | some (id, .proxy _ _ callable constructs) => setBody id (.proxy none none callable constructs)
    | _ => pure ()
    pure .undefined
  | .throwType => typeError "invalid property access"
  | .asyncUnwrap => iterResult (c.arg 0) (truthy (c.datum 0))
  | .asyncReturnDone => finishReturn c false
  | .asyncReturnFail => finishReturn c true
  | .syncUnwrap => iterResult (c.arg 0) (truthy (c.datum 0))
  | .syncClose => do
    closeQuietly ⟨c.datum 0, .undefined⟩
    throw (c.arg 0)
  | .nothing => pure .undefined
where
  /-- Answers a request to return, once its value is there. -/
  finishReturn (c : NativeCall) (rejected : Bool) : Eval Value := do
    match c.datum 0 with
    | .object id => do
      match ← body id with
      | .asyncGenerator _ f queue => setBody id (.asyncGenerator .done f queue)
      | _ => pure ()
      answerRequest id rejected (c.arg 0) true
      serveRequests id requestLimit
    | _ => pure ()
    pure .undefined

/-- Functions made on the way, in the order of their kinds. -/
def inner : Array Native :=
  (#[.resolvePromise, .rejectPromise, .keepCapability, .resumeValue, .resumeThrow, .thenFinally,
    .catchFinally, .returnKept, .throwKept, .allResolve, .allSettledResolve, .allSettledReject,
    .anyReject, .revokeProxy, .throwType, .asyncUnwrap,
    .asyncReturnDone, .asyncReturnFail, .syncUnwrap, .syncClose, .nothing] :
      Array InnerFunction).map fun f =>
    method "" 0 (runInner f)

end Builtin

end ScriptHost
