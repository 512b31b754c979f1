import ScriptHost.Script.Tree
/-!
# Code of functions

A function is compiled to instructions for a machine with an operand stack, registers for what the
statements keep to themselves, and variables.  Variables live in cells of the machine, so that
closures and the function that made them share them; a function finds its own cells by slots and
those it captured by their place among the captures.
-/

namespace ScriptHost

open Script (UnaryOp BinaryOp BodyKind FuncRole)

/-- Where a function finds the cell of a variable. -/
inductive VarRef where
  | slot (i : Nat)
  | captured (i : Nat)
deriving DecidableEq, Inhabited, Repr

/-- What a function may refer to without declaring it. -/
inductive Implicit where
  | this | newTarget | arguments | home | callee
deriving DecidableEq, Inhabited, Repr

/-- How a member is put on an object. -/
inductive DefineKind where
  | method | getter | setter
deriving DecidableEq, Inhabited, Repr

/-- How a variable was declared. -/
inductive VarKind where
  | var | lexical | const
  /-- The name of a function expression inside itself: writes are ignored or refused. -/
  | selfName
  /-- Names of private members, and what they stand for. -/
  | privateField | privateMethod | privateGetter | privateSetter | privateAccessor
deriving DecidableEq, Inhabited, Repr

/-- A name that a direct `eval` can see, and where it is found. -/
structure Visible where
  name : Text
  ref : VarRef
  kind : VarKind
deriving Inhabited

/-- What a direct `eval` needs to know of the place of its call. -/
structure EvalScope where
  visible : List Visible := []
  strict : Bool := false
  /-- Whether the call stands inside a function, and what that function allows. -/
  inFunction : Bool := false
  newTarget : Bool := false
  superMember : Bool := false
  superCall : Bool := false
  initializer : Bool := false
deriving Inhabited

/-- Errors that code raises by itself. -/
inductive ErrorKind where
  | error | eval | range | reference | syntactic | type | uri | internal | aggregate
deriving DecidableEq, Inhabited, Repr

/-- Instructions.  In the comments the operand stack grows to the right. -/
inductive Instr where
  /-- `→ v` -/
  | push (v : Value)
  /-- `a →` -/
  | pop
  /-- `a → a a` -/
  | dup
  /-- `a b → a b a b` -/
  | dup2
  /-- `a b → b a` -/
  | swap
  /-- Moves the top below `n` others. -/
  | sink (n : Nat)
  /-- Moves what lies below `n` others to the top. -/
  | lift (n : Nat)
  /-- Remembers the place in the text for reports. -/
  | mark (place : Place)
  | getReg (r : Nat)
  | setReg (r : Nat)
  /-- Gives slots new cells that are not initialized. -/
  | fresh (slots : List Nat)
  /-- Gives slots new cells with the old contents. -/
  | renew (slots : List Nat)
  | getVar (v : VarRef) (name : Text)
  | setVar (v : VarRef) (name : Text)
  | initVar (v : VarRef)
  /-- Refuses to write a constant. -/
  | constError (name : Text)
  | getGlobal (name : Text)
  | getGlobalOrUndefined (name : Text)
  | setGlobal (name : Text) (strict : Bool)
  | deleteGlobal (name : Text)
  | initGlobal (name : Text)
  /-- Declares the names of a script: functions, other variables and lexical names with their
  constancy; `deletable` if `eval` declares them. -/
  | declareGlobals (functions vars : List Text) (lexicals : List (Text × Bool)) (deletable : Bool)
  /-- `f →`, defining a global function. -/
  | defineGlobalFunction (name : Text) (deletable : Bool)
  | arg (i : Nat)
  | restArgs (start : Nat)
  | this
  | newTarget
  | callee
  /-- `this →`, completing a derived constructor; refuses a second time. -/
  | bindThis (v : VarRef)
  /-- `o → o.name` -/
  | getField (key : Key)
  /-- `o k → o[k]` -/
  | getElement
  /-- `o v → v` -/
  | setField (key : Key) (strict : Bool)
  /-- `o k v → v` -/
  | setElement (strict : Bool)
  /-- `o k → b` -/
  | deleteElement (strict : Bool)
  /-- `this home k → v` -/
  | getSuper
  /-- `this home k v → v` -/
  | setSuper (strict : Bool)
  /-- `o s → v` -/
  | getPrivate
  /-- `o s v → v` -/
  | setPrivate
  /-- `o s v → o` -/
  | definePrivate
  /-- `o s → b` -/
  | hasPrivate
  /-- `o s → o`, refusing objects without the mark. -/
  | checkBrand
  /-- Makes a private name. -/
  | newPrivate (name : Text)
  /-- `v → k` -/
  | toKey
  /-- `o v → o k`, refusing an `o` that has no properties. -/
  | toKeyOf
  /-- `v → n` -/
  | toNumeric
  /-- `v → s` -/
  | toText
  /-- Refuses null and undefined. -/
  | checkObject
  | unary (op : UnaryOp)
  | binary (op : BinaryOp)
  | increment
  | decrement
  | newObject
  | newArray
  /-- `a v → a` -/
  | append
  /-- `a → a` with one more place left out -/
  | appendHole
  /-- `a v → a` with all items of `v` -/
  | appendAll
  /-- `o v → o` -/
  | defineField (key : Key)
  /-- `o k v → o` -/
  | defineElement
  /-- `o k f → o` -/
  | defineMember (kind : DefineKind) (enumerable : Bool)
  /-- `o v → o` -/
  | setProto
  /-- `o v → o` with the own properties of `v` -/
  | copyAll
  /-- `v k₁ … kₙ → o` with the own properties of `v` but those named -/
  | copyRest (n : Nat)
  /-- Makes a closure over the current variables. -/
  | closure (child : Nat)
  /-- `f → f`, named if it has no name. -/
  | nameAs (name : Text)
  /-- `k f → k f`, named after the key. -/
  | nameByKey
  /-- `f this a₁ … aₙ → v` -/
  | call (n : Nat)
  /-- `f this args → v` -/
  | callSpread
  /-- `f a₁ … aₙ → v` -/
  | construct (n : Nat)
  /-- `f args → v` -/
  | constructSpread
  /-- `f args target → v` -/
  | constructAs
  /-- `f → p`, the parent of the class whose constructor is `f`. -/
  | parentOf
  /-- `f o → o`, running the initializer of the class of `f`. -/
  | initFields
  /-- `f this a₁ … aₙ → v`, evaluating text if `f` is the evaluator. -/
  | directEval (n : Nat) (scope : Nat)
  | templateObject (cooked : List (Option Text)) (raw : List Text) (site : Nat)
  | regexp (body : Text) (pattern : Pattern)
  | jump (label : Nat)
  | jumpIfFalse (label : Nat)
  | jumpIfTrue (label : Nat)
  /-- `v → v`, jumping if nullish. -/
  | jumpIfNullish (label : Nat)
  /-- `v → v`, jumping if undefined. -/
  | jumpIfDefined (label : Nat)
  /-- `v k → v`, jumping unless the generator was asked to return. -/
  | jumpUnlessReturn (label : Nat)
  /-- `→`, from here on going to the label when something is thrown, with it on the stack. -/
  | enterTry (label : Nat)
  | leaveTry
  | throw
  | raise (kind : ErrorKind) (message : String)
  /-- Goes to the label with the number in a register; with none, throws what the next register
  holds. -/
  | dispatch (reg : Nat) (labels : List Nat)
  /-- `v →`, opening the items of `v`, held by three registers. -/
  | iterStart (reg : Nat) (async : Bool)
  /-- `→ v done`, from the registers. -/
  | iterStep (reg : Nat)
  /-- `→ r`, the next result as it is. -/
  | iterNext (reg : Nat)
  /-- `r → v done` -/
  | iterUnpack (reg : Nat)
  /-- `→ a`, all that is left -/
  | iterRest (reg : Nat)
  /-- Closes the items, unless they are used up. -/
  | iterClose (reg : Nat)
  /-- Closes the items after something was thrown. -/
  | iterCloseQuiet (reg : Nat)
  /-- `→ r b`, calling what closes asynchronous items. -/
  | iterCloseAsync (reg : Nat)
  /-- `r →`, refusing what is no object. -/
  | checkResult
  /-- `v →`, opening the names of `v`, held by a register. -/
  | namesStart (reg : Nat)
  /-- `→ k done` -/
  | namesStep (reg : Nat)
  | initialYield
  /-- `v → w k`, or throws what comes in. -/
  | yield
  /-- `v → w k`, handing on results and requests as they are. -/
  | yieldRaw
  /-- `v → w`, or throws what comes in. -/
  | await
  /-- `w k → r e`: passes a request on; `e` tells that `r` is the result of a return, 2 that there
  was nothing to ask. -/
  | delegate (reg : Nat)
  /-- `v →`, ending the function. -/
  | ret
  /-- `v → v`, what a derived constructor may return. -/
  | checkReturn
  /-- `h? → c p`: a class from the code of its constructor. -/
  | makeClass (child : Nat) (name : Text) (hasHeritage : Bool)
  /-- `c p f → c p`, the initializer of the fields. -/
  | setInitializer
  /-- `c f → c`, running an initializer of the class itself. -/
  | runStatic
  /-- `p f → p f`, making `p` the home of `f`. -/
  | setHome
  | importMeta
  /-- `s → p` -/
  | importCall
  /-- `o → b`: whether the object holds the name for `with`. -/
  | withHas (name : Text)
deriving Inhabited

/-- A compiled function. -/
structure FunctionCode where
  name : Text := Text.empty
  body : BodyKind := .plain
  role : FuncRole := .ordinary
  strict : Bool := false
  /-- How many parameters come before the first with a default. -/
  length : Nat := 0
  source : Text := Text.empty
  file : String := ""
  place : Place := {}
  instrs : Array Instr := #[]
  /-- Where labels stand. -/
  labels : Array Nat := #[]
  slots : Nat := 0
  regs : Nat := 0
  children : Array FunctionCode := #[]
  captures : Array VarRef := #[]
  implicit : List (Implicit × Nat) := []
  /-- The slots of the parameters, if `arguments` shares them. -/
  sharedParams : Option (List Nat) := none
  evalScopes : Array EvalScope := #[]
  /-- Whether the code belongs to no function. -/
  isTop : Bool := false
deriving Inhabited

end ScriptHost
