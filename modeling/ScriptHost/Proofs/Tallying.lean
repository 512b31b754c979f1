import ScriptHost.Client.Elements
import ScriptHost.Proofs.Buffers
import ScriptHost.Proofs.Keeping
import ScriptHost.Proofs.SpareKeys
/-!
# What the engine of scripts counts

The ledger of the engine of scripts counts the references of the host, whoever they belong to.  So an
action that keeps its accounts leaves the ledger as it was, but for the references that it gives.
-/

namespace ScriptHost

namespace ScriptEngine

/-- The ledger changes just by the references that change hands. -/
theorem answer_ledger (q : Request) (e : ScriptEngine) :
    (Engine.answer q e).state.ledger = e.ledger.after q (Engine.answer q e).reply := by
  have htidy : ∀ (a : q.Reply) (e : ScriptEngine), (tidy q a e).ledger = e.ledger := by
    intro a e
    unfold tidy
    split
    · rfl
    · rfl
    · split <;> rfl
  have hledger : (Engine.answer q e).state.ledger =
      (tidy q (core q e).1 { (core q e).2 with ledger := (core q e).2.ledger.after q (core q e).1 }).ledger := rfl
  rw [hledger, htidy, core_ledger]
  rfl

/-- The accounting by which the ledger counts the references of the host and some others. -/
def tally (others : Ref → Nat) : Accounting ScriptEngine where
  books M e _ := ∀ ref, e.ledger.count ref = M.count ref + others ref
  exempt _ := True
  ask {K e p} q _ _ hbooks := by
    intro ref
    have hbefore := hbooks ref
    rw [answer_ledger, Ledger.count_after, Multiset.count_add, Multiset.coe_count]
    rw [Multiset.count_add, Multiset.coe_count] at hbefore
    omega

end ScriptEngine

namespace Host

open Accounting (Usable Triple Makes)

variable {X : Contexts} {M K : Multiset Ref} {c : ContextId} {others : Ref → Nat}
  {x : Action ScriptEngine Handle} {s : Host ScriptEngine}

/-- An action that makes a value by every tally gives the reference to it and no other, and gives
nothing if it stops. -/
theorem gains_of_makes (hx : ∀ others, (ScriptEngine.tally others).Makes s.contexts 0 c x)
    (hwaiting : ∀ ref, (Contexts.waiting s.contexts).count ref ≤ s.engine.ledger.count ref) :
    (∀ t s', x s = (.ok t, s') → s.Gains t.refs s') ∧
      ∀ e s', x s = (.error e, s') → s.Gains [] s' := by
  let others (ref : Ref) : Nat :=
    s.engine.ledger.count ref - (Contexts.waiting s.contexts).count ref
  have hbag : ∀ ref, (Contexts.bag s.contexts).count ref = (Contexts.waiting s.contexts).count ref :=
    fun ref => Multiset.coe_count ref _
  have hothers : ∀ ref, others ref = s.engine.ledger.count ref -
      (Contexts.waiting s.contexts).count ref := fun _ => rfl
  -- What the contexts do not wait to give back belongs to others, and their share stays as it is.
  have hstart : (ScriptEngine.tally others).Owing s.contexts 0 s := by
    refine ⟨rfl, fun ref => ?_⟩
    have hle := hwaiting ref
    rw [zero_add, hbag, hothers]
    omega
  have hends := hx others s hstart
  constructor
  · intro t s' hrun
    rw [hrun] at hends
    rcases hends with ⟨-, hcontexts, hbooks⟩
    refine ⟨hcontexts, fun ref => ?_⟩
    have hcount : s'.engine.ledger.count ref =
        ((t.refs : Multiset Ref) + 0 + Contexts.bag s.contexts).count ref + others ref := hbooks ref
    have hle := hwaiting ref
    rw [add_zero, Multiset.count_add, Multiset.coe_count, hbag, hothers] at hcount
    omega
  · intro e s' hrun
    rw [hrun] at hends
    rcases hends with ⟨hcontexts, hbooks⟩
    refine ⟨hcontexts, fun ref => ?_⟩
    have hcount := hbooks ref
    have hle := hwaiting ref
    rw [zero_add, hbag, hothers] at hcount
    rw [List.count_nil]
    omega

/-! ## Typed arrays -/

/-- By a tally everything may be named to the engine. -/
theorem tally_usable (refs : List Ref) : Usable (ScriptEngine.tally others) X K c refs :=
  fun _ _ _ => .inl trivial

theorem arrayConstructor_tallied (k : ElementKind) :
    (ScriptEngine.tally others).Triple X K (arrayConstructor c k) (fun f => f.context = c)
      (fun _ => K) ((ScriptEngine.tally others).Owing X K) := by
  unfold arrayConstructor
  refine Triple.bind Triple.context fun x _ => ?_
  dsimp only
  split
  · exact Triple.pure rfl rfl
  · exact Triple.fail

theorem newSharedBuffer_tallied (bytes : ByteArray) :
    (ScriptEngine.tally others).Makes X K c (newSharedBuffer c bytes) := by
  refine Accounting.newSharedBuffer_makes ?_ (.inr fun _ _ _ _ hbooks => hbooks) bytes
  intro K e p realm bytes _ hbooks ref
  have htaken : (Accounting.lendRequest realm bytes p).taken = [] := rfl
  have hgiven : (Accounting.lendRequest realm bytes p).given
      (Engine.answer (Accounting.lendRequest realm bytes p) e).reply =
        Ref.ofValue (Accounting.lendReply realm bytes p e) := rfl
  have hbefore := hbooks ref
  rw [ScriptEngine.answer_ledger, Ledger.count_after, htaken, hgiven, Multiset.count_add,
    Multiset.coe_count, List.count_nil]
  omega

theorem newTypedArrayOver_tallied (k : ElementKind) (buffer : Handle) :
    (ScriptEngine.tally others).Makes X K c (newTypedArrayOver c k buffer) := by
  unfold newTypedArrayOver
  refine Triple.bind (arrayConstructor_tallied k) ?_
  rintro f rfl
  exact Accounting.construct_makes (tally_usable _) fun _ _ => tally_usable _

theorem newTypedArrayOf_tallied (k : ElementKind) (bytes : ByteArray) :
    (ScriptEngine.tally others).Makes X K c (newTypedArrayOf c k bytes) := by
  unfold newTypedArrayOf
  refine Triple.bind (Accounting.newArrayBuffer_makes bytes) fun buffer hbuffer => ?_
  exact Triple.holding (hbuffer.1 ▸ hbuffer.2) (Makes.swap (newTypedArrayOver_tallied k buffer))

theorem newTypedArray_tallied (k : ElementKind) (n : UInt32) :
    (ScriptEngine.tally others).Makes X K c (newTypedArray c k n) := by
  unfold newTypedArray
  refine Triple.bind (arrayConstructor_tallied k) ?_
  rintro f rfl
  refine Triple.bind (Accounting.newUInt32_makesPlain n) fun _ _ => ?_
  exact Accounting.construct_makes (tally_usable _) fun _ _ => tally_usable _

end Host

end ScriptHost
