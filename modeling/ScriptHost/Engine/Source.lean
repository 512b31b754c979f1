import ScriptHost.Code.Program
import ScriptHost.Engine.Promise
/-!
# Running text

Scripts are read, compiled and run in the current realm.
-/

namespace ScriptHost

open Script Compile

namespace Eval

/-- Throws what the reader of scripts found. -/
def throwFault {α : Type} (file : String) (fault : ParseFault) : Eval α := do
  match fault with
  | .tooDeep => stackOverflow
  | .malformed message line => do
    let here := txt ("    at " ++ file ++ ":" ++ toString line ++ ":1\n")
    let m ← get
    let stack := if traceLimit m == 0 then Text.empty else here ++ traceText m 0
    throw (← newError .syntactic (txt message) stack)

/-- Makes what the compiler found an error. -/
def compiled {α : Type} (file : String) (r : Except String α) : Eval α := do
  match r with
  | .ok a => pure a
  | .error "stack overflow" => stackOverflow
  | .error message => throwFault file (.malformed message 1)

/-- Whether the current realm has regular expressions. -/
def hasRegexps : Eval Bool := do pure ((← get).currentRealm.intrinsic? .regexpPrototype).isSome

/-- What the reader has to know of the place of a direct `eval`. -/
def scopeOf (mode : Mode) (regexps : Bool) : Scope :=
  match mode with
  | .direct s =>
    { strict := s.strict, newTarget := s.newTarget, superCall := s.superCall
      superMember := s.superMember, initializer := s.initializer, regexps }
  | .async => { async := true, regexps }
  | _ => { regexps }

/-- Reads and compiles a script. -/
def compileText (mode : Mode) (file : String) (text : Text) : Eval FunctionCode := do
  match Grammar.parseProgram (scopeOf mode (← hasRegexps)) text with
  | .error fault => throwFault file fault
  | .ok p => compiled file (compileScript mode file p)

/-- An activation of code that belongs to no function. -/
def topFrame (code : FunctionCode) (this : Value) (captured : Array Nat) : Eval Frame := do
  let mut cells := #[]
  for _ in [0:code.slots] do
    cells := cells.push (← Mem.newCell .uninitialized)
  for (i, slot) in code.implicit do
    match i, cells[slot]? with
    | .this, some c => setCell c this
    | _, some c => setCell c .undefined
    | _, none => pure ()
  pure
    { code := code, this := this, cells := cells, captured := captured
      regs := .replicate code.regs .undefined, place := code.place }

/-- Runs an activation that gives no values on the way. -/
def runToEnd (f : Frame) : Eval Value := do
  match ← (← read).run f with
  | .returned v => pure v
  | _ => pure .undefined

/-- Runs text given to the evaluator from elsewhere than inside a function. -/
def evalIndirect (text : Text) : Eval Value := do
  let code ← compileText .indirect "<input>" text
  let this : Value := .object (← get).currentRealm.global
  runToEnd (← topFrame code this #[])

/-- Runs text given to the evaluator inside a function. -/
def evalDirect (text : Text) (scope : EvalScope) (f : Frame) : Eval Value := do
  let code ← compileText (.direct scope) "<input>" text
  let captured := scope.visible.toArray.map fun v =>
    match v.ref with
    | .slot i => f.cells[i]?.getD 0
    | .captured i => f.captured[i]?.getD 0
  runToEnd (← topFrame code f.this captured)

/-- A function from the texts of its parameters and body. -/
def functionFromText (kind : BodyKind) (parameters body : Text) : Eval Value := do
  let lead := match kind with
    | .plain => "function anonymous("
    | .generator => "function* anonymous("
    | .async => "async function anonymous("
    | .asyncGenerator => "async function* anonymous("
  let source := txt lead ++ parameters ++ txt "\n) \x7b\n" ++ body ++ txt "\n\x7d"
  match Grammar.parseFunction { regexps := ← hasRegexps } source with
  | .error fault => throwFault "<input>" fault
  | .ok e => do
    let p : Program := { body := [.expr e], strict := false, isModule := false }
    let code ← compiled "<input>" (compileScript .indirect "<input>" p)
    let this : Value := .object (← get).currentRealm.global
    runToEnd (← topFrame code this #[])

end Eval

end ScriptHost
