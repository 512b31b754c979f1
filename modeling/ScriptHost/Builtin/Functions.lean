import ScriptHost.Builtin.Member
/-!
# Functions and errors
-/

namespace ScriptHost

namespace Builtin

open Eval

/-- Makes a function from text. -/
def functionConstructor (kind : Script.BodyKind) (c : NativeCall) : Eval Value := do
  let n := c.args.size
  let parts ← (c.args.extract 0 (n - 1)).toList.mapM toText
  let last ← if n == 0 then pure Text.empty else toText (c.arg (n - 1))
  if !((← get).currentRealm.hasEval) then typeError "eval is not supported"
  functionFromText kind (Text.joinWith (txt ",") parts) last

/-- The text of a function. -/
def functionText (v : Value) : Eval Value := do
  match v with
  | .object id => do
    let m ← get
    if !m.isCallable id then typeError "not a function"
    match m.body id with
    | .closure c =>
      if c.code.source.isEmpty then native id "" else pure (.string c.code.source)
    | _ => native id ""
  | _ => typeError "not a function"
where
  /-- The text of a function without a text of its own. -/
  native (id : Nat) (lead : String) : Eval Value := do
    let name ← getNamed id "name"
    let name ← match name with
      | .undefined => pure Text.empty
      | v => toText v
    pure (.string (txt ("function " ++ lead) ++ name ++ txt "() \x7b\n    [native code]\n\x7d"))

/-- Judges whether a value is an instance of a constructor that has no opinion of its own. -/
def hasInstance (c : NativeCall) : Eval Value := do
  pure (.bool (← ordinaryInstanceOf proxyDepth (c.arg 0) c.this))

/-- What functions inherit. -/
def functionPrototype : Array Native := #[
  method "call" 1 fun c => do
    if !(← callable c.this) then typeError "not a function"
    call c.this (c.arg 0) (c.args.extract 1 c.args.size),
  method "apply" 2 fun c => do
    if !(← callable c.this) then typeError "not a function"
    if (c.arg 1).isNullish then call c.this (c.arg 0) #[]
    else call c.this (c.arg 0) (← listOf (c.arg 1)),
  method "bind" 1 fun c => do
    match c.this with
    | .object id => do
      if !(← callable c.this) then typeError "not a function"
      let proto ← protoOf id
      let extra := c.args.size - 1
      -- What is left of the length after the arguments that are bound; only numbers count.
      let len ← if ← hasOwn id (Key.str "length") then
          match ← getNamed id "length" with
          | v =>
            match v.number? with
            | some d =>
              match integerPart d with
              | .ok n => pure (Value.ofInt (max 0 (n - extra)))
              | .error neg => pure (if neg then .int 0 else .float Binary.infinity)
            | none => pure (.int 0)
        else pure (.int 0)
      let name ← match ← getNamed id "name" with
        | .string t => pure t
        | _ => pure Text.empty
      let bid ← Mem.alloc
        { body := .bound c.this (c.arg 0) (c.args.extract 1 c.args.size), proto := proto
          props := { members := #[(Key.str "length", .fixedValue len),
            (Key.str "name", .fixedValue (.string (txt "bound " ++ name)))] } }
      pure (.object bid)
    | _ => typeError "not a function",
  method "toString" 0 fun c => functionText c.this,
  method "@hasInstance" 1 hasInstance,
  getter "fileName" fun c => do
    match ← bodyOf c.this with
    | some (_, .closure f) => pure (.str f.code.file)
    | _ => pure .undefined,
  getter "lineNumber" fun c => do
    match ← bodyOf c.this with
    | some (_, .closure f) => pure (Value.ofNat f.code.place.line)
    | _ => pure .undefined,
  getter "columnNumber" fun c => do
    match ← bodyOf c.this with
    | some (_, .closure f) => pure (Value.ofNat f.code.place.column)
    | _ => pure .undefined]

/-! ## Errors -/

/-- Makes an error of a kind. -/
def errorConstructor (kind : ErrorKind) (c : NativeCall) : Eval Value := do
  let target := if c.target.isUndefined then .object c.callee else c.target
  let id ← allocFor .error target (errorIntrinsic kind)
  let first := if kind == .aggregate then 1 else 0
  if !(c.arg first).isUndefined then
    Mem.putHidden id "message" (.string (← toText (c.arg first)))
  match c.arg (first + 1) with
  | .object o => do
    if ← hasProperty o (Key.str "cause") then
      Mem.putHidden id "cause" (← getNamed o "cause")
  | _ => pure ()
  if kind == .aggregate then
    Mem.putHidden id "errors" (← newArray (← itemsOf (c.arg 0)))
  Mem.putHidden id "stack" (.string (traceText (← get) 1))
  pure (.object id)

/-- Functions of the constructor of errors. -/
def errorStatics : Array Native := #[
  method "captureStackTrace" 2 fun c => do
    let id ← needObject (c.arg 0)
    let t := traceText (← get) 1
    orThrow (← define id (Key.str "stack")
      { value := some (.string t), writable := some true, enumerable := some false
        configurable := some true })
    pure .undefined,
  getter "stackTraceLimit" fun _ => do pure (← get).currentRealm.traceLimit,
  setter "stackTraceLimit" fun c => do
    let v := c.arg 0
    modify fun m =>
      { m with realms := m.realms.modify m.realm fun r => { r with traceLimit := v } }
    pure .undefined]

/-- The text of an error: its name and message. -/
def errorText (v : Value) : Eval Text := do
  let id ← needObject v
  let name ← match ← getNamed id "name" with
    | .undefined => pure (txt "Error")
    | n => toText n
  let message ← match ← getNamed id "message" with
    | .undefined => pure Text.empty
    | m => toText m
  if name.isEmpty then pure message
  else if message.isEmpty then pure name
  else pure (name ++ txt ": " ++ message)

/-- What errors inherit. -/
def errorPrototype : Array Native := #[
  method "toString" 0 fun c => do pure (.string (← errorText c.this))]

end Builtin

end ScriptHost
