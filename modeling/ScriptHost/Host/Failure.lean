import ScriptHost.Text.Quoted
/-!
# Failures of the host interface

What a script threw travels to the host as an `ExceptionRecord`, four texts that are empty when the
thrown value did not carry them.  Breaking a documented precondition is a failure of another kind,
so that a host can tell a failing script from its own mistake.
-/

namespace ScriptHost

/-- What the host keeps of a thrown value. -/
structure ExceptionRecord where
  /-- The name of the error, such as `TypeError`. -/
  name : String := ""
  /-- The message of the error, or the text of a thrown value that is no error. -/
  message : String := ""
  /-- The text of the cause. -/
  cause : String := ""
  /-- The call stack at the place where the error was made. -/
  stack : String := ""
deriving DecidableEq, Inhabited, Repr

namespace ExceptionRecord

/-- A record with nothing but a message. -/
def ofMessage (message : String) : ExceptionRecord := ⟨"", message, "", ""⟩

/-- The record on one line: name, message, and the cause in parentheses. -/
def text (e : ExceptionRecord) : String :=
  (if e.name.isEmpty then e.message else e.name ++ ": " ++ e.message) ++
    (if e.cause.isEmpty then "" else " (cause: " ++ e.cause ++ ")")

/-- The record with its fields named. -/
def diagnostic (e : ExceptionRecord) : String :=
  "JsException \x7b name: " ++ Quoted.quote e.name ++ ", message: " ++ Quoted.quote e.message ++
    ", cause: " ++ Quoted.quote e.cause ++ ", stack: " ++ Quoted.quote e.stack ++ " \x7d"

/-- Whether every field is empty. -/
def isBlank (e : ExceptionRecord) : Bool := e == {}

end ExceptionRecord

/-- Why an operation of the host interface failed. -/
inductive HostError where
  /-- The engine gave no runtime. -/
  | runtimeCreation (message : String)
  /-- The engine gave no context. -/
  | contextCreation (message : String)
  /-- A global that every context needs is not an object. -/
  | missingGlobal (name : String)
  /-- The context was torn down before. -/
  | contextFreed
  /-- A script, or the engine on its behalf, threw. -/
  | exception (record : ExceptionRecord)
  /-- An operation was used against its precondition. -/
  | contractViolation (operation detail : String)
  /-- A value has not the type that the operation needs. -/
  | wrongType (expected actual : String)
  /-- A property index lies outside the supported range. -/
  | indexOutOfRange (index : Int)
  /-- A number names no element kind of typed arrays. -/
  | invalidElementKind (number : Int)
  /-- A host string has no form that the engine takes. -/
  | stringEncoding (message : String)
  /-- A document could not be written or read. -/
  | json (message : String)
  /-- Something that should not happen. -/
  | internal (message : String)
deriving DecidableEq, Inhabited, Repr

namespace HostError

/-- The word that names the kind of failure in reports. -/
def kind : HostError → String
  | runtimeCreation _ => "RuntimeCreation"
  | contextCreation _ => "ContextCreation"
  | missingGlobal _ => "MissingGlobal"
  | contextFreed => "ContextFreed"
  | exception _ => "Exception"
  | contractViolation _ _ => "ContractViolation"
  | wrongType _ _ => "TypeError"
  | indexOutOfRange _ => "IndexOutOfRange"
  | invalidElementKind _ => "InvalidTypedArrayKind"
  | stringEncoding _ => "StringEncoding"
  | json _ => "Json"
  | internal _ => "Internal"

/-- The failure in words. -/
def message : HostError → String
  | runtimeCreation m => "Runtime creation failed: " ++ m
  | contextCreation m => "Context creation failed: " ++ m
  | missingGlobal n => "Missing global: " ++ n
  | contextFreed => "Context has been freed"
  | exception e => e.text
  | contractViolation op detail => "Contract violation in " ++ op ++ ": " ++ detail
  | wrongType expected actual => "Type error: expected " ++ expected ++ ", got " ++ actual
  | indexOutOfRange i => "Property index " ++ toString i ++ " is outside [0, 2^31-1]"
  | invalidElementKind n => "Invalid typed array kind: " ++ toString n
  | stringEncoding m => "String encoding error: " ++ m
  | json m => "JSON error: " ++ m
  | internal m => "Internal error: " ++ m

/-- The failure with its fields named. -/
def diagnostic : HostError → String
  | runtimeCreation m => "RuntimeCreation \x7b message: " ++ Quoted.quote m ++ " \x7d"
  | contextCreation m => "ContextCreation \x7b message: " ++ Quoted.quote m ++ " \x7d"
  | missingGlobal n => "MissingGlobal(" ++ Quoted.quote n ++ ")"
  | contextFreed => "ContextFreed"
  | exception e => "Exception(" ++ e.diagnostic ++ ")"
  | contractViolation op detail =>
    "ContractViolation \x7b operation: " ++ Quoted.quote op ++ ", detail: " ++
      Quoted.quote detail ++ " \x7d"
  | wrongType expected actual =>
    "TypeError \x7b expected: " ++ Quoted.quote expected ++ ", actual: " ++ Quoted.quote actual ++
      " \x7d"
  | indexOutOfRange i => "IndexOutOfRange(" ++ toString i ++ ")"
  | invalidElementKind n => "InvalidTypedArrayKind(" ++ toString n ++ ")"
  | stringEncoding m => "StringEncoding(" ++ Quoted.quote m ++ ")"
  | json m => "Json(" ++ Quoted.quote m ++ ")"
  | internal m => "Internal(" ++ Quoted.quote m ++ ")"

/-- Whether a script or the engine threw. -/
def isException : HostError → Bool
  | exception _ => true
  | _ => false

/-- Whether a precondition was broken. -/
def isContractViolation : HostError → Bool
  | contractViolation _ _ | indexOutOfRange _ | invalidElementKind _ => true
  | _ => false

/-- The exception record, if there is one. -/
def record? : HostError → Option ExceptionRecord
  | exception e => some e
  | _ => none

/-- The call stack, if the failure has one. -/
def stackTrace? (e : HostError) : Option String :=
  match e.record? with
  | some r => if r.stack.isEmpty then none else some r.stack
  | none => none

/-- The name of the thrown error, if it has one. -/
def errorName? (e : HostError) : Option String :=
  match e.record? with
  | some r => if r.name.isEmpty then none else some r.name
  | none => none

end HostError

end ScriptHost
