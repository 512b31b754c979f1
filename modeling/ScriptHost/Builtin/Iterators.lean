import ScriptHost.Builtin.Arrays
/-!
# Iterators and generators
-/

namespace ScriptHost

namespace Builtin

open Eval

/-- The iterator that a value is. -/
def directItems (v : Value) : Eval Items := do
  if !v.isObject then typeError "not an object"
  pure ⟨v, ← getField v "next"⟩

/-- A new iterator that works on the items of another. -/
def newHelper (c : NativeCall) (kind : HelperKind) (fn : Value) (count : Float) : Eval Value := do
  let it ← directItems c.this
  pure (.object (← alloc
    (.iteratorHelper kind it.iterator it.next fn count .undefined .undefined 0 false false)
    .iteratorHelperPrototype))

/-- A number of items that is asked for. -/
def countArg (c : NativeCall) : Eval Float := do
  let d ← toFloat (c.arg 0)
  if d.isNaN then rangeError "must be positive"
  let t := Binary.truncate d
  if t < 0 then rangeError "must be positive"
  pure t

/-- The items that a mapping function gave. -/
def innerItems (v : Value) : Eval Items := do
  match v with
  | .object _ => do
    match ← getMethod v (.symbol WellKnown.iterator) with
    | some m => openWith v m
    | none => directItems v
  | _ => typeError "not an object"

/-- Folds the items of the receiver with its first argument. -/
def consume {β : Type} (c : NativeCall) (start : β) (f : β → Nat → Value → Eval (β × Bool)) :
    Eval β := do
  let it ← directItems c.this
  go it itemLimit 0 start
where
  /-- The same from an item on; a result may say that nothing more is wanted. -/
  go (it : Items) : Nat → Nat → β → Eval β
    | 0, _, b => pure b
    | fuel + 1, i, b => do
      match ← nextItem it with
      | none => pure b
      | some v => do
        let (b, stop) ← try f b i v
          catch e =>
            -- What closing throws is dropped in favour of the error that is on its way.
            closeQuietly it
            throw e
        if stop then
          closeItems it
          pure b
        else go it fuel (i + 1) b

/-- Makes an iterator for a class that extends iterators. -/
def iteratorConstructor (c : NativeCall) : Eval Value := do
  if !c.target.isObject then typeError "constructor requires 'new'"
  if c.target == (← intrinsicValue .iteratorConstructor) then
    typeError "abstract class not constructable"
  pure (.object (← allocFor .ordinary c.target .iteratorPrototype))

/-- Functions of the constructor of iterators. -/
def iteratorStatics : Array Native := #[
  method "from" 1 fun c => do
    let v := c.arg 0
    let it ← match v with
      | .string _ | .object _ => do
        match ← getMethod v (.symbol WellKnown.iterator) with
        | some m => openWith v m
        | none => directItems v
      | _ => typeError "Iterator.from called on non-object"
    match ← intrinsic .iteratorConstructor with
    | some ctor =>
      if ← ordinaryInstanceOf proxyDepth it.iterator (.object ctor) then pure it.iterator
      else pure (.object (← alloc (.wrappedIterator it.iterator it.next) .wrappedIteratorPrototype))
    | none => pure it.iterator]

/-- What iterators inherit. -/
def iteratorPrototype : Array Native := #[
  method "drop" 1 fun c => do newHelper c .drop .undefined (← countArg c),
  method "filter" 1 fun c => do newHelper c .filter (← functionArg c 0) 0,
  method "flatMap" 1 fun c => do newHelper c .flatMap (← functionArg c 0) 0,
  method "map" 1 fun c => do newHelper c .map (← functionArg c 0) 0,
  method "take" 1 fun c => do newHelper c .take .undefined (← countArg c),
  method "every" 1 fun c => do
    let f ← functionArg c 0
    let r ← consume c true fun _ i v => do
      let b := truthy (← call f .undefined #[v, Value.ofNat i])
      pure (b, !b)
    pure (.bool r),
  method "find" 1 fun c => do
    let f ← functionArg c 0
    consume c Value.undefined fun _ i v => do
      if truthy (← call f .undefined #[v, Value.ofNat i]) then pure (v, true)
      else pure (.undefined, false),
  method "forEach" 1 fun c => do
    let f ← functionArg c 0
    consume c Value.undefined fun _ i v => do
      let _ ← call f .undefined #[v, Value.ofNat i]
      pure (.undefined, false),
  method "some" 1 fun c => do
    let f ← functionArg c 0
    let r ← consume c false fun _ i v => do
      let b := truthy (← call f .undefined #[v, Value.ofNat i])
      pure (b, b)
    pure (.bool r),
  method "reduce" 1 fun c => do
    let f ← functionArg c 0
    let start : Option Value := if c.args.size ≥ 2 then some (c.arg 1) else none
    let r ← consume c start fun acc i v => do
      match acc with
      | some a => do pure (some (← call f .undefined #[a, v, Value.ofNat i]), false)
      | none => pure (some v, false)
    match r with
    | some v => pure v
    | none => typeError "empty iterator",
  method "toArray" 0 fun c => do
    let r ← consume c (#[] : Array Value) fun acc _ v => pure (acc.push v, false)
    newArray r,
  method "@iterator" 0 returnThis]

/-- What an iterator that works on another gives next. -/
def helperNext (id : Nat) : Nat → Eval Value
  | 0 => pure .undefined
  | fuel + 1 => do
    match ← body id with
    | .iteratorHelper kind iterator next fn count inner innerNext pos done running => do
      if done then return ← iterResult .undefined true
      let it : Items := ⟨iterator, next⟩
      let finish : Eval Value := do
        setBody id
          (.iteratorHelper kind iterator next fn count .undefined .undefined pos true false)
        iterResult .undefined true
      -- The state is written back before scripts run, so that what they see of it is up to date.
      let keep (count : Float) (inner innerNext : Value) (pos : Nat) : Eval Unit :=
        setBody id (.iteratorHelper kind iterator next fn count inner innerNext pos false running)
      let guarded {α : Type} (x : Eval α) : Eval α := do
        try x
        catch e =>
          setBody id
            (.iteratorHelper kind iterator next fn count .undefined .undefined pos true false)
          closeQuietly it
          throw e
      match kind with
      | .map => do
        match ← nextItem it with
        | none => finish
        | some v => do
          keep count inner innerNext (pos + 1)
          let x ← guarded (call fn .undefined #[v, Value.ofNat pos])
          iterResult x false
      | .filter => do
        match ← nextItem it with
        | none => finish
        | some v => do
          keep count inner innerNext (pos + 1)
          if truthy (← guarded (call fn .undefined #[v, Value.ofNat pos])) then iterResult v false
          else helperNext id fuel
      | .take => do
        if count ≤ 0 then
          let r ← finish
          closeItems it
          pure r
        else
          keep (count - 1) inner innerNext pos
          match ← nextItem it with
          | none => finish
          | some v => iterResult v false
      | .drop => do
        match ← nextItem it with
        | none => finish
        | some v =>
          if count > 0 then
            keep (count - 1) inner innerNext pos
            helperNext id fuel
          else iterResult v false
      | .flatMap => do
        if inner.isUndefined then
          match ← nextItem it with
          | none => finish
          | some v => do
            let x ← guarded (do innerItems (← call fn .undefined #[v, Value.ofNat pos]))
            keep count x.iterator x.next (pos + 1)
            helperNext id fuel
        else
          match ← guarded (nextItem ⟨inner, innerNext⟩) with
          | some v => iterResult v false
          | none => do
            keep count .undefined .undefined pos
            helperNext id fuel
    | _ => typeError "Iterator Helper object expected"

/-- What iterators that work on another inherit. -/
def iteratorHelper : Array Native := #[
  method "next" 0 fun c => do
    match ← bodyOf c.this with
    | some (id, _) => helperNext id itemLimit
    | none => typeError "Iterator Helper object expected",
  method "return" 0 fun c => do
    match ← bodyOf c.this with
    | some (id, .iteratorHelper kind iterator next fn count inner innerNext pos done _) => do
      setBody id (.iteratorHelper kind iterator next fn count .undefined .undefined pos true false)
      if !done then
        if !inner.isUndefined then closeQuietly ⟨inner, innerNext⟩
        closeItems ⟨iterator, next⟩
      iterResult .undefined true
    | _ => typeError "Iterator Helper object expected"]

/-- What iterators that wrap another inherit. -/
def wrappedIterator : Array Native := #[
  method "next" 0 fun c => do
    match ← bodyOf c.this with
    | some (_, .wrappedIterator it next) => call next it #[]
    | _ => typeError "Wrap Iterator object expected",
  method "return" 0 fun c => do
    match ← bodyOf c.this with
    | some (_, .wrappedIterator it _) => do
      match ← getMethod it (Key.str "return") with
      | some f => call f it #[]
      | none => iterResult .undefined true
    | _ => typeError "Wrap Iterator object expected"]

/-- What generators inherit. -/
def generator : Array Native := #[
  method "next" 1 fun c => resumeGenerator c.this .next (c.arg 0),
  method "return" 1 fun c => resumeGenerator c.this .ret (c.arg 0),
  method "throw" 1 fun c => resumeGenerator c.this .throw (c.arg 0)]

/-- What asynchronous iterators inherit. -/
def asyncIteratorPrototype : Array Native := #[method "@asyncIterator" 0 returnThis]

/-- What asynchronous generators inherit. -/
def asyncGenerator : Array Native := #[
  method "next" 1 fun c => askGenerator c.this 0 (c.arg 0),
  method "return" 1 fun c => askGenerator c.this 2 (c.arg 0),
  method "throw" 1 fun c => askGenerator c.this 1 (c.arg 0)]

/-- Hands the result of an ordinary iterator on as a promise. -/
def fromSync (r : Value) (p : Capability) (it : Items) (closing : Bool) : Eval Value := do
  let fail (e : Value) : Eval Value := do
    let _ ← call p.reject .undefined #[e]
    pure p.promise
  try
    match r with
    | .object id => do
      let done := truthy (← getNamed id "done")
      let v ← getNamed id "value"
      let wrapped ← try promiseFor (← intrinsicValue .promiseConstructor) v
        catch e =>
          -- A promise that cannot be made ends the walk, unless it was over anyway.
          if !done && closing then closeQuietly it
          throw e
      let unwrap ← newInner .syncUnwrap 1 #[.bool done]
      let onReject ← if done || !closing then pure Value.undefined
        else newInner .syncClose 1 #[it.iterator]
      match wrapped with
      | .object w => await w unwrap onReject p
      | _ => pure ()
      pure p.promise
    | _ => typeError "iterator must return an object"
  catch e => fail e

/-- What asynchronous views of ordinary iterators inherit. -/
def asyncFromSync : Array Native := #[
  method "next" 1 fun c => do
    match ← bodyOf c.this with
    | some (_, .asyncFromSync it next) => do
      let p ← plainCapability
      try fromSync (← call next it (if c.args.isEmpty then #[] else #[c.arg 0])) p ⟨it, next⟩ true
      catch e =>
        let _ ← call p.reject .undefined #[e]
        pure p.promise
    | _ => typeError "not an Async-from-Sync Iterator",
  method "return" 1 fun c => do
    match ← bodyOf c.this with
    | some (_, .asyncFromSync it next) => do
      let p ← plainCapability
      try
        match ← getMethod it (Key.str "return") with
        | none => do
          let _ ← call p.resolve .undefined #[← iterResult (c.arg 0) true]
          pure p.promise
        | some f =>
            fromSync (← call f it (if c.args.isEmpty then #[] else #[c.arg 0])) p ⟨it, next⟩ false
      catch e =>
        let _ ← call p.reject .undefined #[e]
        pure p.promise
    | _ => typeError "not an Async-from-Sync Iterator",
  method "throw" 1 fun c => do
    match ← bodyOf c.this with
    | some (_, .asyncFromSync it next) => do
      let p ← plainCapability
      try
        match ← getMethod it (Key.str "throw") with
        | none => do
          closeItems ⟨it, next⟩
          typeError "throw is not a method"
        | some f => fromSync (← call f it #[c.arg 0]) p ⟨it, next⟩ true
      catch e =>
        let _ ← call p.reject .undefined #[e]
        pure p.promise
    | _ => typeError "not an Async-from-Sync Iterator"]

end Builtin

end ScriptHost
