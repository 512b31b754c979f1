import ScriptHost.Host.Properties
/-!
# Actions that are composed of requests

Many actions do nothing to a host but put requests of some kind to its engine, looking at its
contexts meanwhile.  What holds of such requests, and is kept when one thing is done after another,
then holds of every such action.
-/

namespace ScriptHost

/-- Whether a reference is to a value. -/
def Ref.isValue : Ref → Bool
  | value _ => true
  | key _ => false

theorem Ref.isValue_of_mem_ofValue {v : Value} {r : Ref} (hr : r ∈ Ref.ofValue v) : r.isValue := by
  unfold Ref.ofValue at hr
  split at hr
  · rw [List.mem_singleton.1 hr]
    rfl
  · cases hr

/-- Whether a request is one of those by which what was thrown is taken, described and given
back. -/
def Request.describes : Request → Bool
  | takeException _ | isError _ _ | isFunction _ _ | getNamed _ _ _ | toText _ _ => true
  | release _ rs => rs.all Ref.isValue
  | _ => false

namespace Host

variable {σ : Type} [Engine σ]

/-- An action that is composed of requests of some kind. -/
inductive Composed (P : Request → Prop) : {α : Type} → Action σ α → Prop where
  | pure {α : Type} (a : α) : Composed P (Pure.pure a)
  | throw {α : Type} (e : Stop) : Composed P (throw e : Action σ α)
  | context (c : ContextId) : Composed P (Host.context c)
  | ask {q : Request} (hq : P q) : Composed P (Host.ask q)
  | bind {α β : Type} {x : Action σ α} {f : α → Action σ β} :
      Composed P x → (∀ a, Composed P (f a)) → Composed P (x >>= f)
  | tryCatch {α : Type} {x : Action σ α} {f : Stop → Action σ α} :
      Composed P x → (∀ e, Composed P (f e)) → Composed P (MonadExcept.tryCatch x f)

namespace Composed

variable {P : Request → Prop} {α : Type} {c : ContextId} {h : Handle}

theorem ensuring {x : Action σ α} {last : Action σ Unit} (hx : Composed P x)
    (hlast : Composed P last) : Composed P (Host.ensuring x last) :=
  (hx.tryCatch fun e => hlast.bind fun _ => throw e).bind fun a => hlast.bind fun _ => pure a

theorem live : Composed P (Host.live c : Action σ RealmId) := by
  refine (context c).bind fun x => ?_
  cases x.realm with
  | some r => exact pure r
  | none => exact throw _

/-- A request that is made in a live context. -/
theorem asked {q : RealmId → Request} (hq : ∀ r, P (q r)) {f : ∀ r, (q r).Reply → Action σ α}
    (hf : ∀ r a, Composed P (f r a)) :
    Composed P (do
      let r ← Host.live c
      let a ← Host.ask (q r)
      f r a) :=
  live.bind fun r => (ask (hq r)).bind (hf r)

/-! ## Exceptions -/

section Describing

variable (hP : ∀ q : Request, q.describes → P q)
include hP

theorem drop (h : Handle) : Composed P (Host.drop h : Action σ Unit) := by
  unfold Host.drop
  split
  · exact live.bind fun r => ask (hP _ rfl)
  · exact pure ()

theorem release_value (r : RealmId) (v : Value) :
    Composed P (Host.ask (.release r (Ref.ofValue v)) : Action σ Unit) :=
  ask (hP _ (List.all_eq_true.2 fun _ => Ref.isValue_of_mem_ofValue))

theorem discardException : Composed P (Host.discardException c : Action σ Unit) :=
  asked (fun _ => hP _ rfl) fun r v => release_value hP r v

theorem textLossy (h : Handle) : Composed P (Host.textLossy h : Action σ String) := by
  refine asked (fun _ => hP _ rfl) fun r s => ?_
  cases s with
  | some s => exact pure s
  | none => exact (discardException hP).bind fun _ => pure ""

theorem memberText (h : Handle) (name : String) :
    Composed P (Host.memberText h name : Action σ String) := by
  refine asked (fun _ => hP _ rfl) fun r v => ?_
  split
  · exact (discardException hP).bind fun _ => pure ""
  · exact pure ""
  · exact (textLossy hP _).ensuring (drop hP _)

theorem isError (h : Handle) : Composed P (Host.isError h : Action σ Bool) := by
  unfold Host.isError
  split
  · exact live.bind fun r => ask (hP _ rfl)
  · exact pure false

theorem recordOf (h : Handle) : Composed P (Host.recordOf h : Action σ ExceptionRecord) := by
  have hrecord : Composed P (Host.errorRecord? h : Action σ (Option ExceptionRecord)) := by
    refine (isError hP h).bind fun b => ?_
    split
    -- An error is told by four of its members, anything else by its text alone.
    · exact (memberText hP h "name").bind fun _ => (memberText hP h "message").bind fun _ =>
        (memberText hP h "cause").bind fun _ => (memberText hP h "stack").bind fun _ => pure _
    · exact pure none
  refine hrecord.bind fun r => ?_
  cases r with
  | some r => exact pure r
  | none => exact (textLossy hP h).bind fun _ => pure _

theorem takeException : Composed P (Host.takeException c : Action σ ExceptionRecord) :=
  asked (fun _ => hP _ rfl) fun _ _ => (recordOf hP _).ensuring (drop hP _)

theorem check (v : Value) : Composed P (Host.check c v : Action σ Handle) := by
  unfold Host.check
  split
  · exact (takeException hP).bind fun _ => throw _
  · exact pure _

theorem orViolation (operation : String) (r : Option α) :
    Composed P (Host.orViolation c operation r : Action σ α) := by
  cases r with
  | some a => exact pure a
  | none => exact (takeException hP).bind fun _ => throw _

/-! ## Properties -/

theorem requireObject (operation : String) (h : Handle) :
    Composed P (Host.requireObject operation h : Action σ Unit) := by
  have hname : Composed P (Host.typeName h : Action σ String) := by
    unfold Host.typeName
    split
    case h_11 =>
      refine Composed.bind ?_ fun _ => pure _
      unfold Host.isFunction
      split
      · exact live.bind fun r => ask (hP _ rfl)
      · exact pure false
    all_goals exact pure _
  unfold Host.requireObject
  split
  · exact hname.bind fun _ => throw _
  · exact pure ()

theorem getKey (h : Handle) (k : Key) (hq : ∀ r, P (.get r h.value k)) :
    Composed P (Host.getKey h k : Action σ Handle) :=
  asked hq fun _ _ => check hP _

theorem setKey (h : Handle) (k : Key) (v : Handle) (hq : ∀ r, P (.set r h.value k v.value)) :
    Composed P (Host.setKey h k v : Action σ Unit) := by
  -- The value is given back if the target is none that can be written to.
  refine Composed.bind (tryCatch ((requireObject hP _ h).bind fun _ => live) fun e =>
    (drop hP v).bind fun _ => throw e) fun r => ?_
  exact (ask (hq r)).bind fun _ => (orViolation hP _ _).bind fun _ => pure ()

theorem hasKey (h : Handle) (k : Key) (hq : ∀ r, P (.has r h.value k)) :
    Composed P (Host.hasKey h k : Action σ Bool) :=
  (requireObject hP _ h).bind fun _ => asked hq fun _ _ => orViolation hP _ _

theorem deleteKey (h : Handle) (k : Key) (hown : ∀ r, P (.hasOwn r h.value k))
    (hq : ∀ r, P (.delete r h.value k)) :
    Composed P (Host.deleteKey h k : Action σ Bool) := by
  refine (requireObject hP _ h).bind fun _ => asked hown fun _ _ =>
    (orViolation hP _ _).bind fun own => ?_
  split
  · exact asked hq fun _ _ => orViolation hP _ _
  · exact pure false

end Describing

end Composed

end Host

end ScriptHost
