import ScriptHost.Proofs.Identifying
import ScriptHost.Proofs.PropertyTables
import ScriptHost.Proofs.TypedArrays
/-!
# Range errors as the host is told of them

A range error that the engine raised inherits its name.  Where the built-in objects are untouched, the
host that takes the error off the engine reads that name in it.
-/

namespace ScriptHost

/-- Whether a body is that of an error. -/
def Body.isError : Body → Bool
  | .error => true
  | _ => false

namespace Machine

variable {m m' : Machine} {x : Cache} {proto : Intrinsic → Nat} {r : RealmId} {d : Nat}

/-- A range error without a name of its own. -/
structure IsRangeError (m : Machine) (proto : Intrinsic → Nat) (d : Nat) : Prop where
  body : m.body d = .error
  proto : (m.obj d).proto = some (proto .rangeErrorPrototype)
  nameless : (m.obj d).props.get? (Key.str "name") = none

theorem IsRangeError.plain (h : m.IsRangeError proto d) : m.IsPlain d :=
  ⟨lt_of_body (by simp [h.body]), by simp [h.body, Body.isPlain]⟩

theorem IsRangeError.of_obj (h : m.IsRangeError proto d) (hobj : m'.obj d = m.obj d) :
    m'.IsRangeError proto d := by
  refine ⟨?_, by rw [hobj]; exact h.proto, by rw [hobj]; exact h.nameless⟩
  rw [Machine.body, hobj]
  exact h.body

/-- The name is found on the way up. -/
theorem IsRangeError.find_name (h : m.IsRangeError proto d) (hserves : m.Serves x proto r) :
    ∃ j pr, m.find (Key.str "name") (some d) = .property j pr ∧
      pr.value? = some (.str "RangeError") := by
  rcases hserves.untouched.rangeErrors with ⟨hplain, ps, hps, hname⟩
  rcases exists_of_bind_value hname with ⟨pr, hpr, hvalue⟩
  have hdescends : m.Descends d (proto .rangeErrorPrototype :: ps) := ⟨h.proto, hplain, hps⟩
  have hfirst : m.firstProperty (Key.str "name") (d :: proto .rangeErrorPrototype :: ps) =
      some pr := by
    unfold firstProperty at hpr ⊢
    rw [List.findSome?_cons, h.nameless]
    exact hpr
  rcases find_plain hdescends h.plain hfirst with ⟨j, hj⟩
  exact ⟨j, pr, hj, hvalue⟩

/-- What the engine raises is one. -/
theorem isRangeError_raised (message : Text)
    (hproto : m.intrinsic? .rangeErrorPrototype = some (proto .rangeErrorPrototype)) :
    (Eval.raised m .range message).IsRangeError proto m.heap.size := by
  have hobj := Eval.obj_raised (m := m) .range message
  refine ⟨?_, ?_, ?_⟩
  · rw [Machine.body, hobj]
    rfl
  · rw [hobj]
    exact hproto
  · -- Its own properties are the message and the stack.
    have hlists := (PropertyTable.lists_empty.put (Key.str "message") (.hidden (.string message))).put
      (Key.str "stack") (.hidden (.string (Eval.traceText m 0)))
    rw [hobj]
    exact (hlists.get_eq (Key.str "name")).trans rfl

end Machine

namespace ScriptEngine

variable {held : List Nat} {proto : Intrinsic → Nat} {d : Nat}

theorem rangeError_lasting (hd : d ∈ held) : Lasting held fun m => m.IsRangeError proto d := by
  intro m m' roots hroots hm hsheds
  have hroot : m.Held roots (.object d) := .root (List.mem_append_left _ (hroots d hd))
  exact hm.of_obj ((hsheds.stays d hroot).eq hm.plain.not_weak)

end ScriptEngine

namespace Host

open ScriptEngine (Lasting Holds)

variable {X : Contexts} {c : ContextId} {r : RealmId} {held : List Nat} {I : Machine → Prop}
  {x : Cache} {proto : Intrinsic → Nat} {d : Nat} {α : Type}

section Describing

variable (hr : (X.entry c).realm = some r) (hlasting : Lasting held I)
include hr hlasting

theorem textLossy_tells (t : Text) :
    Tells X held I (textLossy ⟨c, .string t⟩) t.toHostString := by
  have hasked : Tells X held I (Host.ask (.toText r (.string t))) (some t.toHostString) :=
    ask_tells hlasting ⟨nofun, nofun⟩ rfl fun e he =>
      ⟨e.machine.started r, ScriptEngine.run_reads (y := do
        pure (← Eval.toText (.string t)).toHostString) rfl, hlasting.started he⟩
  unfold textLossy
  exact Yields.live_bind hr (hasked.bind Tells.pure)

theorem drop_text_tells (t : Text) : Tells X held I (Host.drop ⟨c, .string t⟩) () := by
  have hasked : Tells X held I (Host.ask (.release r [.value (.string t)])) () := by
    refine Yields.ask fun e he => ?_
    refine he.answer_looks (q := .release r [.value (.string t)]) hlasting ⟨nofun, nofun⟩ rfl
      he.machine fun j => ?_
    have htaken : (Request.release r [.value (.string t)]).taken = [.value (.string t)] := rfl
    rw [htaken, List.count_singleton]
    simp
  have hcounted : (Value.string t).isCounted = true := rfl
  unfold Host.drop
  rw [if_pos hcounted]
  exact Yields.live_bind hr hasked

variable (hI : ∀ m, I m → m.Serves x proto r ∧ m.IsRangeError proto d)
include hI

/-- The name that a range error inherits. -/
theorem memberText_name_tells :
    Tells X held I (memberText ⟨c, .object d⟩ "name") "RangeError" := by
  have hasked : Tells X held I (Host.ask (.getNamed r (.object d) "name"))
      (.str "RangeError") := by
    refine ask_tells hlasting ⟨nofun, nofun⟩ rfl fun e he => ?_
    refine ⟨e.machine.started r, ?_, hlasting.started he⟩
    rcases hI _ (hlasting.started (r := r) he) with ⟨hserves, herror⟩
    rcases herror.find_name hserves with ⟨j, pr, hfind, hvalue⟩
    have hget : Eval.getOf (.object d) (Key.str "name")
        (Eval.interp Builtin.supply ScriptEngine.depthLimit) (e.machine.started r) =
          .ok (.str "RangeError") (e.machine.started r) := Eval.getOf_value hfind hvalue
    have hkey : Key.ofText (txt "name") = Key.str "name" := Key.ofText_eq_name (by decide)
    have hcore : ScriptEngine.core (.getNamed r (.object d) "name") e =
        ScriptEngine.runValue r (Eval.getOf (.object d) (Key.ofText (txt "name"))) e := rfl
    rw [hcore, hkey]
    exact ScriptEngine.runValue_ok hget
  have hname : (txt "RangeError").toHostString = "RangeError" := by decide
  have htext := textLossy_tells hr hlasting (txt "RangeError")
  rw [hname] at htext
  unfold memberText
  refine Yields.live_bind hr (hasked.bind ?_)
  refine Yields.ensuring htext fun a s hX hs => ?_
  rcases drop_text_tells hr hlasting (txt "RangeError") s hX hs.2 with ⟨u, s', hrun, hX', -, hs'⟩
  exact ⟨u, s', hrun, hX', hs.1, hs'⟩

theorem isError_tells : Tells X held I (isError ⟨c, .object d⟩) true := by
  have hasked : Tells X held I (Host.ask (.isError r (.object d))) true := by
    refine ask_tells hlasting ⟨nofun, nofun⟩ rfl fun e he => ⟨e.machine, ?_, he⟩
    have hbody := (hI _ he).2.body
    have hcore : ScriptEngine.core (.isError r (.object d)) e = ((e.machine.body d).isError, e) := rfl
    rw [hcore, hbody]
    rfl
  have hobject : (Value.object d).isObject = true := rfl
  unfold isError
  rw [if_pos hobject]
  exact Yields.live_bind hr hasked

/-- The record of a range error has its name, whatever else is in it. -/
theorem recordOf_rangeError : Yields X (fun e => Holds e held I) (recordOf ⟨c, .object d⟩)
    fun record _ => record.name = "RangeError" := by
  have hrecord : Yields X (fun e => Holds e held I) (errorRecord? ⟨c, .object d⟩)
      fun record _ => ∃ d, record = some d ∧ d.name = "RangeError" := by
    unfold errorRecord?
    refine (isError_tells hr hlasting hI).bind ((memberText_name_tells hr hlasting hI).bind ?_)
    intro s hX _
    rcases memberText_sure hr (h := ⟨c, .object d⟩) rfl "message" s hX with ⟨message, s₁, h₁, hX₁⟩
    rcases memberText_sure hr (h := ⟨c, .object d⟩) rfl "cause" s₁ hX₁ with ⟨cause, s₂, h₂, hX₂⟩
    rcases memberText_sure hr (h := ⟨c, .object d⟩) rfl "stack" s₂ hX₂ with ⟨stack, s₃, h₃, hX₃⟩
    refine ⟨_, s₃, ?_, hX₃, ⟨"RangeError", message, cause, stack⟩, rfl, rfl⟩
    rw [Accounting.bind_ok h₁, Accounting.bind_ok h₂, Accounting.bind_ok h₃]
    rfl
  unfold recordOf
  refine hrecord.bind fun record s hX hs => ?_
  rcases hs with ⟨d, rfl, hname⟩
  exact ⟨d, s, rfl, hX, hname⟩

end Describing

/-- An object that was thrown is the host's when it was taken. -/
theorem takePending_yields (hlasting : Lasting (d :: held) I) :
    Yields X (fun e => Holds e held I ∧ e.pending = some (.object d))
      (Host.ask (.takeException r)) fun v e => v = .object d ∧ Holds e (d :: held) I := by
  refine Yields.ask fun e he => ?_
  have hcore : ScriptEngine.core (.takeException r) e =
      (.object d, { e with pending := none }) := by
    have htake : ScriptEngine.core (.takeException r) e =
        (e.pending.getD .uninitialized, { e with pending := none }) := rfl
    rw [htake, he.2]
    rfl
  -- The engine hands out one more reference to what was thrown, so the host holds it once more.
  have hcount : ∀ j, (d :: held).count j ≤ e.ledger.count (.value (.object j)) -
      (Request.takeException r).taken.count (.value (.object j)) +
      ((Request.takeException r).given (.object d)).count (.value (.object j)) := by
    intro j
    have hgiven : (Request.takeException r).given (.object d) = [.value (.object d)] := rfl
    have hnone : (Request.takeException r).taken = [] := rfl
    have hle := he.1.held j
    rw [hgiven, hnone, List.count_cons, List.count_singleton]
    by_cases hj : d = j
    · simp [hj]
      omega
    · simp [hj]
      omega
  rcases ScriptEngine.answer_holds (q := .takeException r) ⟨nofun, nofun⟩ hcore rfl he.1.machine
    (hlasting.mono fun _ => List.mem_append_left _) hcount with ⟨hreply, hholds, -⟩
  exact ⟨hreply, hholds⟩

/-- A range error that was thrown and not taken yet is what an action fails with. -/
theorem throwPending_rangeError (hr : (X.entry c).realm = some r) (hlasting : Lasting (d :: held) I)
    (hI : ∀ m, I m → m.Serves x proto r ∧ m.IsRangeError proto d) :
    Fails X (fun e => Holds e held I ∧ e.pending = some (.object d)) (throwPending c : Action _ α)
      fun stop => ∃ record, stop = .failed (.exception record) ∧ record.name = "RangeError" := by
  have hdescribed : Yields X (fun e => Holds e (d :: held) I) (holding ⟨c, .object d⟩ recordOf)
      fun record _ => record.name = "RangeError" := by
    refine Yields.ensuring (recordOf_rangeError hr hlasting hI) fun record s hX hs => ?_
    rcases drop_sure hr (h := ⟨c, .object d⟩) rfl s hX with ⟨u, s', hrun, hX'⟩
    exact ⟨u, s', hrun, hX', hs⟩
  have hexception : Yields X (fun e => Holds e held I ∧ e.pending = some (.object d))
      (takeException c) fun record _ => record.name = "RangeError" := by
    unfold takeException
    refine Yields.live_bind hr ((takePending_yields hlasting).bind fun v s hX hs => ?_)
    rcases hs with ⟨rfl, hs⟩
    exact hdescribed s hX hs
  unfold throwPending
  refine Fails.bind hexception fun record s hX hs => ?_
  exact ⟨_, s, rfl, hX, record, rfl, hs⟩

end Host

end ScriptHost
