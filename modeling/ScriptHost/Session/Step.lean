import ScriptHost.Document.HostData
import ScriptHost.Document.Schema
import ScriptHost.Host.State
/-!
# Steps of a session

A session drives a host by steps.  A step works on slots, which have names, and on contexts, which
have numbers; where it needs a value it takes one from a slot or makes one for the time being.
-/

namespace ScriptHost

namespace Session

/-- The name of a slot. -/
abbrev SlotName := String

mutual

/-- How to make a value. -/
inductive Maker where
  | null | undefined | uninitialized | exception
  | bool (b : Bool)
  | int32 (n : Int32)
  | uint32 (n : UInt32)
  | int64 (n : Int64)
  | bigInt64 (n : Int64)
  | bigUInt64 (n : UInt64)
  | bigInt (n : Int)
  | float (d : Float)
  | string (s : String)
  | symbol
  | symbolOf (description : Operand)
  | object | array | map | set | weakMap | weakSet
  | error (message : String)
  | arrayBuffer (bytes : ByteArray)
  | sharedBuffer (bytes : ByteArray)
  | typedArray (kind : Int) (length : UInt32)
  | typedArrayOf (kind : Int) (bytes : ByteArray)
  | typedArrayOver (buffer : Operand) (kind : Int)
  | parseJson (text : String)
  | serialize (data : HostData)
  | eval (source : String)
  | evalAsync (source : String)
  | evalWith (source file : String) (mode : EvalMode)
  /-- A second reference to the value of a slot. -/
  | dupe (slot : SlotName)

/-- Where a step gets a value from. -/
inductive Operand where
  /-- The value of a slot. -/
  | slot (name : SlotName)
  /-- A value that is made for the step, in a context of its own choice if it names one. -/
  | made (context : Option ContextId) (maker : Maker)

end

instance : Inhabited Maker := ⟨.null⟩

instance : Inhabited Operand := ⟨.slot ""⟩

/-- How a step names a property. -/
inductive PropertyPath where
  | text (s : String)
  | index (i : Int)
  /-- By the key in a slot. -/
  | slot (name : SlotName)
deriving DecidableEq, Inhabited, Repr

/-- The conversions of a value. -/
inductive Conversion where
  | bool | int32 | uint32 | int64 | float | bigInt64 | bigInt | text
deriving DecidableEq, Inhabited, Repr

/-- Every conversion, in the order in which a step for all of them does them. -/
def Conversion.all : List Conversion :=
  [.bool, .int32, .uint32, .int64, .float, .bigInt64, .bigInt, .text]

/-- What a step does. -/
inductive Operation where
  /-- Makes a value. -/
  | make (m : Maker)
  -- Contexts and the runtime
  | openContext
  | openBare (features : Option (List Feature))
  | freeContext | dropContext | contextState | pending | runJobs | runGc | pinned | runtime
  | sameRuntime (other : ContextId)
  | global
  | slots
  | lendUntilRefused
  -- Keys
  | key (s : String)
  | indexKey (n : UInt32)
  | toKey (value : SlotName)
  | describeKey (key : SlotName)
  | reportKey (key : SlotName)
  | keyValue (key : SlotName)
  | sameKey (key other : SlotName)
  | dupeKey (key : SlotName)
  | freeKey (key : SlotName)
  | keepKeyToEnd (key : SlotName)
  -- Calls
  | call (f : SlotName) (this : Option Operand) (args : List Operand)
  | construct (f : SlotName) (args : List Operand)
  | callMethod (target : SlotName) (name : String) (args : List Operand)
  | bind (f : SlotName) (this : Option Operand) (leading : List Operand)
  | callBound (f : SlotName) (args : List Operand)
  | boundInfo (f : SlotName)
  -- Values
  | drop (slot : SlotName)
  | free (value : SlotName)
  /-- Gives a reference up and back by hand. -/
  | giveUp (value : SlotName)
  | keepToEnd (value : SlotName)
  | describe (value : SlotName)
  | typeName (value : SlotName)
  | report (value : SlotName)
  | queries (value : SlotName)
  | isInstance (value : SlotName) (constructor : Operand)
  | isTypedArray (value : SlotName) (kind : Int)
  | elementKind (value : SlotName)
  | sameContext (value : SlotName) (other : ContextId)
  | convertTo (value : SlotName) (goal : Conversion)
  | convert (value : SlotName)
  | toError (value : SlotName)
  | get (target : SlotName) (path : PropertyPath)
  | has (target : SlotName) (path : PropertyPath)
  | delete (target : SlotName) (path : PropertyPath)
  /-- Writes a property; a value from a slot is moved out of it, unless it is to be kept. -/
  | set (target : SlotName) (path : PropertyPath) (value : Operand) (keep : Bool)
  | ownKeys (target : SlotName) (filter : Int32)
  | keys (target : SlotName)
  | length (value : SlotName)
  | isEmpty (value : SlotName)
  | toJson (value : SlotName)
  | deserialize (value : SlotName) (schema : Schema)
  | arrayInfo (value : SlotName)
  | bytes (value : SlotName)
  | readShared (value : SlotName)
  | writeShared (value : SlotName) (bytes : ByteArray) (start : Nat)
  /-- A step that cannot be understood. -/
  | malformed (why : String)
deriving Inhabited

/-- A step: what to do, in which context, and which slot keeps what is made. -/
structure Step where
  operation : Operation
  context : ContextId := 0
  /-- The slot for what the step makes. -/
  dest : Option SlotName := none
deriving Inhabited

end Session

end ScriptHost
