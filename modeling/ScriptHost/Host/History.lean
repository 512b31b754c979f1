import ScriptHost.Host.Request
/-!
# The history of an engine

A recorded engine answers like the engine inside it and remembers what it was asked and what it
said.  From such a history one can tell which references the host holds: those that it was given
and did not give back.
-/

namespace ScriptHost

variable {σ : Type}

/-- The memory that an engine takes on a request, with its token; nothing if it refuses. -/
def Request.lent : (q : Request) → q.Reply → List (Token × PinnedRegion)
  | lendBuffer _ bytes address token, v =>
    let v : Value := v
    if v = .exception then [] else [(token, ⟨address, bytes.size⟩)]
  | _, _ => []

/-- A request and the answer that an engine gave. -/
structure Exchange (σ : Type) where
  /-- The engine when it was asked. -/
  before : σ
  request : Request
  reply : request.Reply
  /-- The tokens of lent memory that it gave up meanwhile. -/
  freed : List Token

namespace Exchange

/-- The references that the host was given. -/
def given (x : Exchange σ) : List Ref := x.request.given x.reply

/-- The references that were taken from the host. -/
def taken (x : Exchange σ) : List Ref := x.request.taken

/-- The references by which things were named to the engine. -/
def uses (x : Exchange σ) : List Ref := x.request.uses

end Exchange

/-- What an engine was asked, the newest exchange first. -/
abbrev History (σ : Type) := List (Exchange σ)

namespace History

/-- How many references to a thing the host was given, less those that were taken from it. -/
def held (r : Ref) : History σ → Int
  | [] => 0
  | x :: old => held r old + x.given.count r - x.taken.count r

/-- No reference was ever taken from the host that it did not hold. -/
def Disciplined : History σ → Prop
  | [] => True
  | x :: old => (∀ r, (x.taken.count r : Int) ≤ held r old) ∧ Disciplined old

/-- Besides, the host named nothing to the engine without a reference to it. -/
def Careful : History σ → Prop
  | [] => True
  | x :: old => (∀ r ∈ x.uses, 0 < held r old) ∧ (∀ r, (x.taken.count r : Int) ≤ held r old) ∧
      Careful old

/-- All the memory that engines took, with its tokens. -/
def lent (history : History σ) : List (Token × PinnedRegion) :=
  history.flatMap fun x => x.request.lent x.reply

/-- The tokens that were given up. -/
def freed (history : History σ) : List Token := history.flatMap (·.freed)

end History

/-! ## Recording -/

/-- An engine with its history. -/
structure Recorded (σ : Type) where
  engine : σ
  history : History σ := []

namespace Recorded

variable [Engine σ]

instance : Engine (Recorded σ) where
  answer q x :=
    match Engine.answer q x.engine with
    | ⟨reply, engine, freed⟩ => ⟨reply, ⟨engine, ⟨x.engine, q, reply, freed⟩ :: x.history⟩, freed⟩

/-- The exchange that a request brings about. -/
def exchange (x : Recorded σ) (q : Request) : Exchange σ :=
  ⟨x.engine, q, (Engine.answer q x.engine).reply, (Engine.answer q x.engine).freed⟩

/-- What becomes of an engine that is asked one thing after another. -/
def asked (x : Recorded σ) (qs : List Request) : Recorded σ :=
  qs.foldl (fun x q => (Engine.answer q x).state) x

@[simp] theorem answer_reply (q : Request) (x : Recorded σ) :
    (Engine.answer q x).reply = (Engine.answer q x.engine).reply := rfl

@[simp] theorem answer_engine (q : Request) (x : Recorded σ) :
    (Engine.answer q x).state.engine = (Engine.answer q x.engine).state := rfl

@[simp] theorem answer_freed (q : Request) (x : Recorded σ) :
    (Engine.answer q x).freed = (Engine.answer q x.engine).freed := rfl

@[simp] theorem answer_history (q : Request) (x : Recorded σ) :
    (Engine.answer q x).state.history = x.exchange q :: x.history := rfl

/-- From an engine on, nothing that the host holds a reference to is freed, as long as the host is
careful and does not have everything freed. -/
def KeepsHeld (freed : σ → Ref → Prop) (engine : σ) : Prop :=
  ∀ qs : List Request, .shutDown ∉ qs →
    History.Careful (asked ⟨engine, []⟩ qs).history →
      ∀ r, 0 < History.held r (asked ⟨engine, []⟩ qs).history →
        ¬freed (asked ⟨engine, []⟩ qs).engine r

theorem asked_concat (x : Recorded σ) (qs : List Request) (q : Request) :
    x.asked (qs ++ [q]) = (Engine.answer q (x.asked qs)).state := by
  simp [asked]

end Recorded

end ScriptHost
