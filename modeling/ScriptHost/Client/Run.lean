import ScriptHost.Client.Operation
/-!
# Clients

A client drives a host by operations.  It owns items and has views; an operation that needs
something else, that names a new context by a name in use, or that ends a context of which the client
still owns items is not taken.  Views of a context that is ended are gone.  Whether an operation
succeeds, fails or stops makes no difference to what it consumes.
-/

namespace ScriptHost

/-- A host with what its client has. -/
structure Client (σ : Type) where
  host : Host σ
  /-- The items that the client owns. -/
  owned : List Client.Item := []
  /-- The items that the client was lent. -/
  views : List Client.Item := []

namespace Client

variable {σ : Type}

/-! ## References -/

/-- The references in the items that a client owns. -/
def ownedRefs (s : Client σ) : List Ref := s.owned.flatMap Item.refs

/-- The references that wait for the ends of contexts. -/
def waitingRefs (s : Client σ) : List Ref := Contexts.waiting s.host.contexts

/-- Whether a context is there and was not freed. -/
def isLive (s : Client σ) (c : ContextId) : Bool := Contexts.isLive s.host.contexts c

/-! ## Steps -/

/-- What a client owns beside the item that an operation consumes. -/
def rest (s : Client σ) (op : Operation) : List Item :=
  match op.consumed with
  | some i => s.owned.erase i
  | none => s.owned

/-- The views that outlast an operation. -/
def lasting (s : Client σ) (op : Operation) : List Item :=
  match op.closed? with
  | some c => s.views.filter fun i => !i.isOf c
  | none => s.views

/-- Whether an operation can be taken. -/
def permits (s : Client σ) (op : Operation) : Bool :=
  op.consumed.toList.all (· ∈ s.owned) &&
    op.uses.all (fun u => u.2 ∈ s.rest op || u.2 ∈ s.views) &&
    op.opened?.toList.all (fun c => !s.host.contexts.contains c) &&
    op.closed?.toList.all fun c => !s.owned.any (Item.isOf c)

/-- Whether an operation, if it can be taken, uses in a live context only what belongs to live
contexts. -/
def borrowsLive (s : Client σ) (op : Operation) : Bool :=
  !s.permits op ||
    op.uses.all fun u => !s.isLive u.1 || u.2.parts.all fun p => p.2.isEmpty || s.isLive p.1

/-- Whether an operation asks no context for its global object that is not live. -/
def asksLive (s : Client σ) (op : Operation) : Bool :=
  match op with
  | .global c => s.isLive c
  | _ => true

variable [Engine σ]

/-- Takes an operation. -/
def step (s : Client σ) (op : Operation) : Client σ :=
  if s.permits op then
    match op.run s.host with
    | (.ok y, host) => ⟨host, y.owned ++ s.rest op, y.views ++ s.lasting op⟩
    | (.error _, host) => ⟨host, s.rest op, s.lasting op⟩
  else s

/-- Takes operations, one after the other. -/
def run (s : Client σ) (ops : List Operation) : Client σ := ops.foldl step s

/-- Whether operations, taken one after the other, use in live contexts only what belongs to live
contexts. -/
def runBorrowsLive : Client σ → List Operation → Bool
  | _, [] => true
  | s, op :: ops => s.borrowsLive op && (s.step op).runBorrowsLive ops

/-- Whether operations, taken one after the other, ask only live contexts for their global
objects. -/
def runAsksLive : Client σ → List Operation → Bool
  | _, [] => true
  | s, op :: ops => s.asksLive op && (s.step op).runAsksLive ops

/-- A client of a runtime that was just made. -/
def start (engine : σ) (settings : Settings) : Client σ := { host := Host.start engine settings }

end Client

end ScriptHost
