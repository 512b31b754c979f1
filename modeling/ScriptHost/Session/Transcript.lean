import ScriptHost.Session.Perform
/-!
# Transcripts

A whole session, from a fresh engine to its end.  A step that fails does not end the session.  At
the end the slots are emptied in the order of their names, the contexts are dropped in the order of
their numbers, and the runtime is freed last.
-/

namespace ScriptHost

open Session

/-- What one step of a session brought. -/
structure Entry where
  outcome : Except Trouble Answer
  /-- What the host reported since the entry before. -/
  events : Array Event := #[]
deriving Inhabited

/-- What a session brought. -/
structure Transcript where
  /-- The entry for the context that the session began with, if it did. -/
  opening : Option Entry
  entries : List Entry
  /-- How many regions are still lent at the end. -/
  pinned : Nat
  /-- What the host reported at the end. -/
  events : Array Event := #[]
deriving Inhabited

namespace Session

variable {σ : Type} [Engine σ]

/-- Takes what was reported. -/
def takeEvents : Session σ → Array Event × Session σ
  | ⟨⟨engine, settings, contexts, pins, log⟩, slots⟩ =>
      (log, ⟨⟨engine, settings, contexts, pins, #[]⟩, slots⟩)

/-- The entry for a step. -/
def entry (s : Step) (x : Session σ) : Entry × Session σ :=
  match take s x with
  | (outcome, x) =>
    let (events, x) := takeEvents x
    (⟨outcome, events⟩, x)

/-- The entries for steps, one after the other. -/
def entries : List Step → Session σ → List Entry → List Entry × Session σ
  | [], x, acc => (acc.reverse, x)
  | s :: ss, x, acc =>
    let (e, x) := entry s x
    entries ss x (e :: acc)

/-- Ends a session. -/
def finish : Play σ Unit := do
  for name in (← getThe (Session σ)).slots.keys do dropSlot name
  for c in (← getThe (Session σ)).host.contexts.keys do act (Host.dropContext c)
  act Host.shutDown

/-- Plays a session on an engine, with or without a context to begin with. -/
def play (engine : σ) (settings : Settings) (opens : Bool) (steps : List Step) : Transcript :=
  let x : Session σ := { host := Host.start engine settings }
  let (opening, x) :=
    if opens then
      let (e, x) := entry { operation := .openContext } x
      (some e, x)
    else (none, x)
  let (es, x) := entries steps x []
  let (_, x) := finish x
  { opening, entries := es, pinned := x.host.pins.live, events := x.host.log }

end Session

end ScriptHost
