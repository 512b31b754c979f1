import Mathlib.Data.Finset.SDiff
import ScriptHost.Client.Run
import ScriptHost.Host.History
/-!
# Processes

A process has any number of runtimes, each with a client that drives it.  They share the table of
the memory that is lent, and now and then some code calls back that memory is free though no engine
can touch it any more.
-/

namespace ScriptHost

variable {σ : Type} [Engine σ]

/-- What is relied on in engines to which memory is lent.  An engine can touch the memory under
certain tokens.  It comes to touch what it takes, gives nothing up but what it can touch or was just
taking, and can touch it no longer; if everything is freed it gives up all. -/
structure Lending (touched : σ → Finset Token) : Prop where
  answer : ∀ (q : Request) (e : σ), touched (Engine.answer q e).state =
    (touched e ∪ ((q.lent (Engine.answer q e).reply).map Prod.fst).toFinset) \
      (Engine.answer q e).freed.toFinset
  freed : ∀ (q : Request) (e : σ), ∀ t ∈ (Engine.answer q e).freed,
    t ∈ touched e ∨ t ∈ (q.lent (Engine.answer q e).reply).map Prod.fst
  shutDown : ∀ e : σ, touched (Engine.answer .shutDown e).state = ∅

/-- A process. -/
structure Process (σ : Type) where
  /-- The memory that is lent, by whichever runtime. -/
  pins : Pins := .empty
  /-- The clients of the runtimes. -/
  runtimes : List (Client (Recorded σ)) := []
  /-- The engines of the runtimes that were freed, as they were left. -/
  ended : List (Recorded σ) := []

/-- A client that sees the memory that all runtimes lent. -/
def Client.withPins (s : Client σ) (p : Pins) : Client σ :=
  { s with host := { s.host with pins := p } }

namespace Process

/-- What can happen in a process.  A runtime may be freed at any time: that its contexts were freed
before makes no difference here. -/
inductive Step (touched : σ → Finset Token) : Process σ → Process σ → Prop where
  /-- A runtime is made; its engine can touch nothing yet. -/
  | launch {P : Process σ} {engine : σ} {settings : Settings} (hnew : touched engine = ∅) :
      Step touched P
        { P with runtimes := Client.start ⟨engine, []⟩ settings :: P.runtimes }
  /-- A client takes an operation, and lends memory in live contexts only. -/
  | perform {p : Pins} {l₁ l₂ : List (Client (Recorded σ))} {s : Client (Recorded σ)}
      {ended : List (Recorded σ)} {op : Client.Operation} (hlive : ∀ c ∈ op.lends?, s.isLive c) :
      Step touched ⟨p, l₁ ++ s :: l₂, ended⟩
        ⟨((s.withPins p).step op).host.pins, l₁ ++ (s.withPins p).step op :: l₂, ended⟩
  /-- A runtime is freed. -/
  | close {p : Pins} {l₁ l₂ : List (Client (Recorded σ))} {s : Client (Recorded σ)}
      {ended : List (Recorded σ)} :
      Step touched ⟨p, l₁ ++ s :: l₂, ended⟩
        ⟨(Host.shutDown (s.withPins p).host).2.pins, l₁ ++ l₂,
          (Host.shutDown (s.withPins p).host).2.engine :: ended⟩
  /-- Something calls back for a token under which no engine can touch anything. -/
  | callback {P : Process σ} {t : Token}
      (hidle : ∀ s ∈ P.runtimes, t ∉ touched s.host.engine.engine) :
      Step touched P { P with pins := P.pins.takeBack t }

/-- The processes that come about. -/
inductive Reachable (touched : σ → Finset Token) : Process σ → Prop where
  | start : Reachable touched {}
  | step {P P' : Process σ} (hP : Reachable touched P) (hstep : Step touched P P') :
      Reachable touched P'

end Process

end ScriptHost
