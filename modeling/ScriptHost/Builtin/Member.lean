import ScriptHost.Engine.Interpreter
/-!
# Members of builtin objects

Short forms for the tables of functions, and what many of them begin with.
-/

namespace ScriptHost

namespace Builtin

open Eval

/-- A method. -/
def method (name : String) (length : Nat) (run : NativeCall → Eval Value) : Native :=
  ⟨name, length, .method, run⟩

/-- A getter. -/
def getter (name : String) (run : NativeCall → Eval Value) : Native := ⟨name, 0, .getter, run⟩

/-- A setter. -/
def setter (name : String) (run : NativeCall → Eval Value) : Native := ⟨name, 1, .setter, run⟩

/-- The receiver as an object. -/
def thisObject (c : NativeCall) : Eval Nat := toObject c.this

/-- An argument that must be a function. -/
def functionArg (c : NativeCall) (i : Nat) : Eval Value := do
  let f := c.arg i
  if ← callable f then pure f else typeError "not a function"

/-- Refuses to be called without `new`. -/
def needsNew (c : NativeCall) : Eval Unit := do
  if c.target.isUndefined then typeError "must be called with new"

/-- The receiver itself. -/
def returnThis (c : NativeCall) : Eval Value := pure c.this

/-- Whether a value has a body of some kind. -/
def bodyOf (v : Value) : Eval (Option (Nat × Body)) := do
  match v with
  | .object id => do pure (some (id, ← body id))
  | _ => pure none

end Builtin

end ScriptHost
