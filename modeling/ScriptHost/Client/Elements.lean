import ScriptHost.Client.TypeQueries
import ScriptHost.Host.Buffers
/-!
# Buffers and typed arrays as a host sees them

What a host can ask of a typed array: its kind, its bytes, how many elements it has and what it looks
at.  This file tells what the answers are when a typed array shows just some bytes, and what it means
that an action makes such a typed array or leaves nothing behind.  It also tells what a typed array is
and what it looks at by what kind of object it is, and not by what it inherits.
-/

namespace ScriptHost

namespace Host

/-- Another host has the same contexts, and these references besides those of this one. -/
structure Gains (s : Host ScriptEngine) (refs : List Ref) (s' : Host ScriptEngine) : Prop where
  contexts : s'.contexts = s.contexts
  counts : ∀ ref, s'.engine.ledger.count ref = s.engine.ledger.count ref + refs.count ref

/-- All that is asked of a typed array is answered as for one of a kind that shows a buffer with some
bytes, from the first to the last. -/
structure Shows (s : Host ScriptEngine) (t : Handle) (k : ElementKind) (bytes : ByteArray) :
    Prop where
  isKind : ∀ j, (isTypedArray t j s).1 = .ok (decide (j = k))
  kind : (elementKind? t s).1 = .ok (some k)
  contents : (toByteArray t s).1 = .ok bytes
  length : (length t s).1 = .ok (bytes.size / k.size)
  info : ∃ b s', arrayInfo t s = (.ok ⟨b, 0, bytes.size, k.size⟩, s') ∧
    (isArrayBuffer b s').1 = .ok true ∧ (Host.length b s').1 = .ok bytes.size ∧
      (toByteArray b s').1 = .ok bytes

/-- An action makes a typed array of a kind that shows some bytes if these are whole elements; if they
are not, a range error is thrown and nothing is left behind. -/
def Constructs (s : Host ScriptEngine) (k : ElementKind) (bytes : ByteArray)
    (x : Action ScriptEngine Handle) : Prop :=
  if k.size ∣ bytes.size then
    ∃ t s', x s = (.ok t, s') ∧ s.Gains [.value t.value] s' ∧ s'.Shows t k bytes
  else
    ∃ d s', x s = (.error (.failed (.exception d)), s') ∧ d.name = "RangeError" ∧ s.Gains [] s'

/-- A context is live and its built-in objects are untouched, and the host has the references that it
will give back at the ends of contexts. -/
structure Serves (s : Host ScriptEngine) (c : ContextId) (r : RealmId) (proto : Intrinsic → Nat) :
    Prop where
  live : (Contexts.entry s.contexts c).realm = some r
  ready : s.engine.Ready r (Contexts.entry s.contexts c).cache proto
  waiting : ∀ ref, (Contexts.waiting s.contexts).count ref ≤ s.engine.ledger.count ref

end Host

/-! ## Shapes -/

namespace Machine

variable (m : Machine) (x : Cache)

/-- What is known of a typed array; none if a value is anything else. -/
def typed? : Value → Option TypedView
  | .object id =>
    match m.body id with
    | .typed t => some t
    | _ => none
  | _ => none

/-- The kind of a typed array; none if a value is anything else. -/
def typedKind? (v : Value) : Option ElementKind := (m.typed? v).map TypedView.kind

/-- What a typed array in reach of its memory looks at; none if a value is anything else. -/
def inView? (v : Value) : Option ViewInfo :=
  (m.typed? v).bind fun t =>
    if Builtin.viewLost m t then none
    else some ⟨.object t.buffer, t.offset, if t.tracks then t.count * t.kind.size else t.length,
      t.kind.size⟩

/-- The prototypes of a value are those of what it is: it inherits from the constructor of a kind just
if it is a typed array of that kind, and no typed array inherits what buffers do. -/
structure Honest (v : Value) : Prop where
  kinds : ∀ k, m.inherits v (x.elements k) = decide (m.typedKind? v = some k)
  buffer : ∀ k, m.typedKind? v = some k → m.inherits v x.buffer = false

end Machine

namespace Host

/-- A value is a typed array in reach and the host is told what it looks at, or it is refused as a
broken precondition. -/
def ViewsOrRefused (v : Value) : Except Stop ArrayInfo × Host ScriptEngine → Prop
  | (.ok i, s) => s.engine.machine.inView? v = some ⟨i.buffer.value, i.offset, i.length, i.elementSize⟩
  | (.error e, _) => ∃ detail, e = .failed (.contractViolation "typed_array_info" detail)

/-- A host has a reference to a buffer of so many bytes, in a context whose built-in objects are
untouched. -/
def HasSized (s : Host ScriptEngine) (h : Handle) (n : Nat) : Prop :=
  n ≤ Builtin.bufferLimit ∧ ∃ r proto b, h.value = .object b ∧ s.Serves h.context r proto ∧
    s.engine.machine.IsSized (Contexts.entry s.contexts h.context).cache proto b n ∧
    0 < s.engine.ledger.count (.value (.object b))

end Host

end ScriptHost
