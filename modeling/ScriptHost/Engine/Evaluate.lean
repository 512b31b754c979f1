import ScriptHost.Engine.Coroutine
import ScriptHost.Engine.Options
/-!
# Running sources for the host

The host hands in scripts, scripts that may wait, and modules.  The last two give a promise.
-/

namespace ScriptHost

namespace Eval

open Script Compile

/-- Reads and compiles a module. -/
def moduleCode (file : String) (text : Text) : Eval ModuleCode := do
  let scope : Scope := { strict := true, isModule := true, regexps := ← hasRegexps }
  match Grammar.parseProgram scope text with
  | .error fault => throwFault file fault
  | .ok p => compiled file (compileModule file p)

/-- Throws an error that has no call stack. -/
def throwBare {α : Type} (kind : ErrorKind) (message : Text) : Eval α := do
  throw (← newError kind message Text.empty)

/-- Runs a module; gives the promise of its end. -/
def runModule (code : ModuleCode) : Eval Value := do
  match code.missing with
  | some n => throwBare .syntactic (txt "exported variable '" ++ n ++ txt "' does not exist")
  | none => pure ()
  -- No loader is there, so the first import that is asked for already fails.
  match code.requests with
  | n :: _ => throwBare .reference (txt "could not load module '" ++ n ++ txt "'")
  | [] => pure ()
  let f ← topFrame code.code .undefined #[]
  let c ← plainCapability
  match code.code.body with
  | .async => do
    match ← startAsync f with
    | .object id => await id c.resolve c.reject {}
    | _ => pure ()
  | _ => do
    try
      let _ ← runToEnd f
      let _ ← call c.resolve .undefined #[.undefined]
    catch e =>
      let _ ← call c.reject .undefined #[e]
  pure c.promise

/-- Runs a source. -/
def evaluateSource (file : String) (mode : EvalMode) (text : Text) : Eval Value := do
  let realm := (← get).currentRealm
  if !realm.hasEval then typeError "eval is not supported"
  match mode with
  | .script => do
    let code ← compileText .script file text
    runToEnd (← topFrame code (.object realm.global) #[])
  | .async => do
    let code ← compileText .async file text
    startAsync (← topFrame code (.object realm.global) #[])
  | .module => do runModule (← moduleCode file text)

end Eval

end ScriptHost
