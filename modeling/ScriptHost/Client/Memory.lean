import ScriptHost.Client.Thrown
import ScriptHost.Engine.Answer
import ScriptHost.Host.Buffers
/-!
# What engines say of memory

A host that looks at bytes trusts what its engine tells it of buffers and of what typed arrays look
at.  It also asks more than once what a value is, and a script may have a say in the answers.  This
file tells when what was said is true, when the answers to one question agree, and when a view lies
in the memory that was shown.
-/

namespace ScriptHost

variable {σ : Type} [Engine σ]

namespace Exchange

/-- The memory that an exchange shows, and the buffer that it shows it of. -/
def shown? : Exchange σ → Option (Value × Region)
  | ⟨_, .bufferRegion _ v, m, _⟩ =>
    let m : Option Region := m
    m.map (v, ·)
  | _ => none

/-- What an exchange tells of a typed array. -/
def told? : Exchange σ → Option ViewInfo
  | ⟨_, .viewInfo _ _, w, _⟩ => w
  | _ => none

/-- Whether a value was found to be an instance of a constructor, if that was asked.  An engine that
cannot tell has not found it to be one. -/
def verdict? (v constructor : Value) : Exchange σ → Option Bool
  | ⟨_, .isInstance _ v' f, b, _⟩ =>
    let b : Option Bool := b
    if v' = v ∧ f = constructor then some (b.getD false) else none
  | _ => none

/-- What is said of memory is so, given how many bytes the attached buffers have in the states of an
engine: what is shown of a buffer are all its bytes, and a typed array looks at bytes of its buffer. -/
def IsMeasured (bytes : σ → Value → Option Nat) (x : Exchange σ) : Prop :=
  (∀ m ∈ x.shown?, bytes x.before m.1 = some m.2.size) ∧
    ∀ w ∈ x.told?, ∃ n ∈ bytes x.after w.buffer, w.offset + w.length ≤ n

instance (bytes : σ → Value → Option Nat) (x : Exchange σ) : Decidable (x.IsMeasured bytes) :=
  inferInstanceAs (Decidable (_ ∧ _))

end Exchange

namespace History

/-- It was never found that a value is an instance of a constructor and also that it is none. -/
def Agrees (v constructor : Value) (history : History σ) : Prop :=
  ∀ x ∈ history, ∀ y ∈ history, x.verdict? v constructor = some true →
    y.verdict? v constructor ≠ some false

instance (v constructor : Value) (history : History σ) : Decidable (history.Agrees v constructor) :=
  inferInstanceAs (Decidable (∀ x ∈ history, ∀ y ∈ history, _ → _))

/-- The memory that was shown last. -/
def shown? (history : History σ) : Option Region := (history.findSome? Exchange.shown?).map (·.2)

/-- Whether bytes in view lie in the memory that was shown last. -/
def Covers (v : SharedBytes) (history : History σ) : Prop :=
  ∃ m ∈ history.shown?, v.region = m.id ∧ v.offset + v.length ≤ m.size

instance (v : SharedBytes) (history : History σ) : Decidable (history.Covers v) :=
  inferInstanceAs (Decidable (∃ m ∈ history.shown?, _))

end History

namespace ScriptEngine

/-- How many bytes an attached buffer has. -/
def bufferBytes (e : ScriptEngine) : Value → Option Nat
  | .object id =>
    match e.machine.body id with
    | .buffer b => if b.region.isSome then some b.length else none
    | _ => none
  | _ => none

end ScriptEngine

end ScriptHost
