import ScriptHost.Client.Run
import ScriptHost.Host.History
/-!
# What is told of the steps of a client

What a step makes the host ask of its engine, and what it makes the host report.  A step that is not
taken makes the host do neither.
-/

namespace ScriptHost

namespace Event

/-- Whether an event is about lent memory.  Such events come of the engine's own doings, so any
request can bring them about. -/
def isOfRegion : Event → Bool
  | regionLent _ | regionReleased _ | regionUnknown => true
  | _ => false

/-- How many references wait, if the event tells that one more does. -/
def registered? : Event → Option Nat
  | releaseDeferred n => some n
  | _ => none

end Event

/-- The request by which a reference is given back that waited for the end of its context. -/
def Ref.release (realm : RealmId) : Ref → Request
  | value v => .release realm (Ref.ofValue v)
  | key k => .release realm [.key k]

/-- The requests in a history, the oldest first. -/
def History.requests {σ : Type} (history : History σ) : List Request :=
  (history.map (·.request)).reverse

/-- The events that were reported, but for those about lent memory. -/
def Host.told {σ : Type} (h : Host σ) : List Event := h.log.toList.filter fun e => !e.isOfRegion

namespace Client

/-! ## Places of operations -/

/-- The context whose value is got. -/
def Getter.place : Getter → ContextId
  | dupe h | bufferOf h | get h _ | call h _ _ | construct h _ | callMethod h _ _ => h.context
  | symbolOf c _ | typedArrayOver c _ _ => c
  | keyValue k => k.context
  | callBound b _ => b.func.context

/-- The context whose key is made. -/
def KeyMaker.place : KeyMaker → ContextId
  | text c _ | index c _ => c
  | ofValue h => h.context
  | dupe k => k.context

/-- The context in which an item is given back. -/
def Item.place? : Item → Option ContextId
  | value h => some h.context
  | key k => some k.context
  | bound b => some b.func.context
  | bare _ => none

/-- The context that an operation is carried out on, or on whose handle it is; none if it is one of
the runtime. -/
def Operation.place? : Operation → Option ContextId
  | make c _ | global c | runJobs c | openContext c | openBare c _ | freeContext c
  | dropContext c => some c
  | get g => some g.place
  | key k => some k.place
  | ownKeys h _ | bind h _ _ | ask h _ | set h _ _ | keepToEnd h | bareValue h => some h.context
  | keyText k | keyDiagnostic k | keepKeyToEnd k | bareKey k => some k.context
  | boundDiagnostic b => some b.func.context
  | drop i => i.place?
  | runGc => none

/-! ## Steps -/

variable {σ : Type} [Engine σ]

/-- What an operation makes the host ask of its engine, the first request first. -/
def requests (s : Client (Recorded σ)) (op : Operation) : List Request :=
  (History.requests (s.step op).host.engine.history).drop s.host.engine.history.length

/-- What an operation makes the host report, but for events about lent memory. -/
def reported (s : Client σ) (op : Operation) : List Event :=
  (s.step op).host.told.drop s.host.told.length

/-! ## References that wait for the end of one context -/

/-- The reference that an operation lets wait for the end of a context. -/
def Operation.kept? (c : ContextId) : Operation → Option Ref
  | keepToEnd h => if h.context = c then some (.value h.value) else none
  | keepKeyToEnd k => if k.context = c then some (.key k.key) else none
  | _ => none

/-- The references that an operation, if it is taken, lets wait for the end of a context. -/
def keeps (s : Client σ) (c : ContextId) (op : Operation) : List Ref :=
  if s.permits op then (op.kept? c).toList else []

/-- The numbers that an operation on a context, or on a handle of it, reports of references that
wait. -/
def registers (s : Client σ) (c : ContextId) (op : Operation) : List Nat :=
  if op.place? = some c then (s.reported op).filterMap Event.registered? else []

/-- The references that a run lets wait for the end of a context, the first one first. -/
def kept (c : ContextId) : Client σ → List Operation → List Ref
  | _, [] => []
  | s, op :: ops => s.keeps c op ++ kept c (s.step op) ops

/-- The numbers that a run reports of references that wait for the end of a context. -/
def registrations (c : ContextId) : Client σ → List Operation → List Nat
  | _, [] => []
  | s, op :: ops => s.registers c op ++ registrations c (s.step op) ops

/-- Whether a context is live before, during and after a run. -/
def staysLive (c : ContextId) : Client σ → List Operation → Bool
  | s, [] => s.isLive c
  | s, op :: ops => s.isLive c && staysLive c (s.step op) ops

end Client

end ScriptHost
