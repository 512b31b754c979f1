import ScriptHost.Builtin.Objects
/-!
# Proxies and reflection
-/

namespace ScriptHost

namespace Builtin

open Eval

/-- A new proxy. -/
def newProxy (target handler : Value) : Eval Nat := do
  let t ← needObject target
  let h ← needObject handler
  let m ← get
  allocWith (.proxy (some t) (some h) (m.isCallable t) (m.constructs target)) none

/-- Makes a proxy. -/
def proxyConstructor (c : NativeCall) : Eval Value := do
  needsNew c
  pure (.object (← newProxy (c.arg 0) (c.arg 1)))

/-- Functions of the constructor of proxies. -/
def proxyStatics : Array Native := #[
  method "revocable" 2 fun c => do
    let p ← newProxy (c.arg 0) (c.arg 1)
    let f ← newInner .revokeProxy 0 #[.object p]
    newRecord [("proxy", .object p), ("revoke", f)]]

/-- Whether a change was made. -/
def asBool (c : Change) : Value := .bool (c == .done)

/-- Operations on objects as functions. -/
def reflect : Array Native := #[
  method "apply" 3 fun c => do
    if !(← callable (c.arg 0)) then typeError "not a function"
    call (c.arg 0) (c.arg 1) (← listOf (c.arg 2)),
  method "construct" 2 fun c => do
    if !(← get).constructs (c.arg 0) then typeError "not a constructor"
    let target ← if c.args.size > 2 then do
        if !(← get).constructs (c.arg 2) then typeError "not a constructor"
        pure (c.arg 2)
      else pure (c.arg 0)
    construct (c.arg 0) (← listOf (c.arg 1)) target,
  method "defineProperty" 3 fun c => do
    let id ← needObject (c.arg 0)
    let k ← toKey (c.arg 1)
    let d ← toDescriptor (c.arg 2)
    pure (asBool (← define id k d)),
  method "deleteProperty" 2 fun c => do
    let id ← needObject (c.arg 0)
    pure (asBool (← delete id (← toKey (c.arg 1)))),
  method "get" 2 fun c => do
    let id ← needObject (c.arg 0)
    let k ← toKey (c.arg 1)
    getFor id k (if c.args.size > 2 then c.arg 2 else c.arg 0),
  method "getOwnPropertyDescriptor" 2 fun c => do
    let id ← needObject (c.arg 0)
    match ← ownProperty id (← toKey (c.arg 1)) with
    | some p => fromDescriptor (Descriptor.ofProperty p)
    | none => pure .undefined,
  method "getPrototypeOf" 1 fun c => do pure (protoValue (← protoOf (← needObject (c.arg 0)))),
  method "has" 2 fun c => do
    let id ← needObject (c.arg 0)
    pure (.bool (← hasProperty id (← toKey (c.arg 1)))),
  method "isExtensible" 1 fun c => do pure (.bool (← isExtensible (← needObject (c.arg 0)))),
  method "ownKeys" 1 fun c => do
    let id ← needObject (c.arg 0)
    keyList (← selectKeys id true true false false),
  method "preventExtensions" 1 fun c => do
    pure (asBool (← preventExtensions (← needObject (c.arg 0)))),
  method "set" 3 fun c => do
    let id ← needObject (c.arg 0)
    let k ← toKey (c.arg 1)
    pure (asBool (← setFor id k (c.arg 2) (if c.args.size > 3 then c.arg 3 else c.arg 0))),
  method "setPrototypeOf" 2 fun c => do
    let id ← needObject (c.arg 0)
    pure (asBool (← setProto id (← protoArg (c.arg 1))))]

end Builtin

end ScriptHost
