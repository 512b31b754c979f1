import ScriptHost.Host.Failure
import ScriptHost.Host.Settings
/-!
# Events of the host

What the host reports of its own doings: runtimes and contexts that come and go, releases that wait
for the end of a context, and memory lent to an engine.
-/

namespace ScriptHost

/-- How much attention an event asks for. -/
inductive Level where
  | debug | trace
deriving DecidableEq, Repr

/-- Something that the host reports. -/
inductive Event where
  | runtimeCreated (memoryLimit maxStackSize : Option Nat)
  | runtimeFreed
  | contextCreated (cached : Nat)
  | contextAborted (error : HostError)
  | contextFreed (released : Nat)
  | releaseDeferred (pending : Nat)
  | releasesDrained (released : Nat)
  | regionLent (length : Nat)
  | regionReleased (length : Nat)
  /-- An engine gave back memory that is not lent. -/
  | regionUnknown
deriving DecidableEq, Inhabited, Repr

namespace Event

/-- How much attention an event asks for. -/
def level : Event → Level
  | runtimeCreated _ _ | runtimeFreed | contextCreated _ | contextAborted _ | contextFreed _ =>
      .debug
  | releaseDeferred _ | releasesDrained _ | regionLent _ | regionReleased _ | regionUnknown =>
      .trace

/-- The event in words. -/
def message : Event → String
  | runtimeCreated _ _ => "runtime created"
  | runtimeFreed => "runtime freed"
  | contextCreated _ => "context created"
  | contextAborted _ => "context creation aborted"
  | contextFreed _ => "context freed"
  | releaseDeferred _ => "deferred release registered"
  | releasesDrained _ => "deferred releases drained"
  | regionLent _ => "pinned region lent to engine"
  | regionReleased _ => "pinned region released"
  | regionUnknown => "release for unknown or already released region"

/-- What the event tells beside its words, as names and texts. -/
def fields : Event → List (String × String)
  | runtimeCreated memory stack =>
    [("memory_limit", Settings.limitText memory), ("max_stack_size", Settings.limitText stack)]
  | runtimeFreed | regionUnknown => []
  | contextCreated n => [("cached", toString n)]
  | contextAborted e => [("error", e.message)]
  | contextFreed n | releasesDrained n => [("released", toString n)]
  | releaseDeferred n => [("pending", toString n)]
  | regionLent n | regionReleased n => [("len", toString n)]

end Event

end ScriptHost
