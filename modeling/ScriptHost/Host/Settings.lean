import ScriptHost.Text.Quoted
/-!
# Settings of a runtime

Limits that a runtime is made with, and the file name that anonymous scripts are reported under.
-/

namespace ScriptHost

/-- Settings of a runtime; a limit that is absent is the engine's own. -/
structure Settings where
  /-- How many bytes the heap may hold. -/
  memoryLimit : Option Nat := none
  /-- How many bytes of stack nested calls may use. -/
  maxStackSize : Option Nat := none
  /-- How many bytes may be in use before the collector of cycles runs by itself. -/
  gcThreshold : Option Nat := none
  /-- The file name of scripts that have none. -/
  evalFilename : String := "<eval>"
deriving DecidableEq, Inhabited, Repr

namespace Settings

/-- Settings with nothing but a heap limit. -/
def constrained (bytes : Nat) : Settings := { memoryLimit := some bytes }

/-- A limit, or its absence, in words. -/
def limitText : Option Nat → String
  | none => "None"
  | some n => "Some(" ++ toString n ++ ")"

/-- The settings with their fields named. -/
def diagnostic (s : Settings) : String :=
  "RuntimeConfig \x7b memory_limit: " ++ limitText s.memoryLimit ++ ", max_stack_size: " ++
    limitText s.maxStackSize ++ ", gc_threshold: " ++ limitText s.gcThreshold ++
    ", eval_filename: " ++ Quoted.quote s.evalFilename ++ " \x7d"

/-- One change of the settings. -/
inductive Change where
  /-- Sets the heap limit. -/
  | memoryLimit (bytes : Nat)
  /-- Sets the stack limit. -/
  | maxStackSize (bytes : Nat)
  /-- Sets the collector's threshold. -/
  | gcThreshold (bytes : Nat)
  /-- Sets the file name of anonymous scripts. -/
  | evalFilename (name : String)
deriving DecidableEq, Repr

/-- The settings after one change. -/
def apply (s : Settings) : Change → Settings
  | .memoryLimit n => { s with memoryLimit := some n }
  | .maxStackSize n => { s with maxStackSize := some n }
  | .gcThreshold n => { s with gcThreshold := some n }
  | .evalFilename n => { s with evalFilename := n }

/-- The settings after changes, in order: the last of two changes of one field counts. -/
def build (start : Settings) (changes : List Change) : Settings := changes.foldl apply start

end Settings

end ScriptHost
