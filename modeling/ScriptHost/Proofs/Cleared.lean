import ScriptHost.Proofs.Describing
/-!
# Nothing stays pending

A request that was refused may leave something pending, and what follows takes it.  So an action that
begins with nothing pending ends so, if it deals with each refusal; and one that takes what is pending
ends so whatever was pending before.
-/

namespace ScriptHost

open Accounting (bind_ok bind_error tryCatch_ok tryCatch_error context_ok live_ok live_error ask_eq)

variable {σ : Type} [Engine σ] {pending : σ → Option Value}

namespace Host

variable {X : Contexts} {c : ContextId} {r : RealmId} {h : Handle} {k : Key} {α β : Type}
  {q : Request}

/-- An action that ends with nothing pending if it is begun when something holds. -/
def Clears (pending : σ → Option Value) (X : Contexts) (begun : σ → Prop) (x : Action σ α) : Prop :=
  ∀ s : Host σ, s.contexts = X → begun s.engine →
    (x s).2.contexts = X ∧ pending (x s).2.engine = none

/-- Nothing is pending. -/
def Nothing (pending : σ → Option Value) (e : σ) : Prop := pending e = none

namespace Clears

variable {begun : σ → Prop}

omit [Engine σ] in
theorem pure {a : α} : Clears pending X (Nothing pending) (Pure.pure a : Action σ α) :=
  fun _ hX hs => ⟨hX, hs⟩

omit [Engine σ] in
theorem fail {e : HostError} : Clears pending X (Nothing pending) (Host.fail e : Action σ α) :=
  fun _ hX hs => ⟨hX, hs⟩

omit [Engine σ] in
theorem stop {e : Stop} : Clears pending X (Nothing pending) (throw e : Action σ α) :=
  fun _ hX hs => ⟨hX, hs⟩

omit [Engine σ] in
/-- One action after another, where something is known of what the first one gives. -/
theorem bind_said {x : Action σ α} {f : α → Action σ β} {Q : α → Prop}
    (hx : Clears pending X begun x) (hsaid : ∀ s a, (x s).1 = .ok a → Q a)
    (hf : ∀ a, Q a → Clears pending X (Nothing pending) (f a)) :
    Clears pending X begun (x >>= f) := by
  intro s hX hs
  have hfirst := hx s hX hs
  have hgood := hsaid s
  rcases hxs : x s with ⟨e | a, s'⟩
  · rw [hxs] at hfirst
    rwa [bind_error hxs]
  · rw [hxs] at hfirst hgood
    rw [bind_ok hxs]
    exact hf a (hgood a rfl) s' hfirst.1 hfirst.2

omit [Engine σ] in
theorem bind {x : Action σ α} {f : α → Action σ β} (hx : Clears pending X begun x)
    (hf : ∀ a, Clears pending X (Nothing pending) (f a)) : Clears pending X begun (x >>= f) :=
  hx.bind_said (fun _ _ _ => trivial) fun a _ => hf a

omit [Engine σ] in
theorem context_bind {f : Context → Action σ β} (hf : Clears pending X begun (f (X.entry c))) :
    Clears pending X begun (Host.context c >>= f) := by
  intro s hX hs
  rw [bind_ok (context_ok c s), hX]
  exact hf s hX hs

omit [Engine σ] in
theorem live_bind {f : RealmId → Action σ β} (hr : (X.entry c).realm = some r)
    (hf : Clears pending X begun (f r)) : Clears pending X begun (Host.live c >>= f) := by
  intro s hX hs
  rw [bind_ok (live_ok (by rw [hX, hr]))]
  exact hf s hX hs

omit [Engine σ] in
theorem ensuring {x : Action σ α} {last : Action σ Unit} (hx : Clears pending X begun x)
    (hlast : Clears pending X (Nothing pending) last) :
    Clears pending X begun (Host.ensuring x last) := by
  refine Clears.bind ?_ fun a => hlast.bind fun _ => pure
  intro s hX hs
  have hfirst := hx s hX hs
  rcases hxs : x s with ⟨e | a, s'⟩
  · rw [hxs] at hfirst
    rw [tryCatch_error hxs]
    exact hlast.bind (fun _ => stop) s' hfirst.1 hfirst.2
  · rw [hxs] at hfirst
    rwa [tryCatch_ok hxs]

end Clears

section Throwing

variable (T : Throwing pending) (hr : (X.entry c).realm = some r)
include T

/-- A request that is never refused. -/
theorem ask_clears (hq : ∀ a, q.fails a = false) :
    Clears pending X (Nothing pending) (Host.ask q : Action σ q.Reply) := by
  intro s hX hs
  obtain ⟨s', hrun, hcontexts, hengine, -⟩ := ask_eq q s
  rw [hrun]
  refine ⟨hcontexts.trans hX, ?_⟩
  rw [hengine]
  exact T.throws q s.engine hs (hq _)

/-- A request that may be refused, and what is done about it then. -/
theorem ask_bind_clears {f : q.Reply → Action σ β}
    (hok : ∀ a, q.fails a = false → Clears pending X (Nothing pending) (f a))
    (hbad : ∀ a, q.fails a = true → Clears pending X (fun _ => True) (f a)) :
    Clears pending X (Nothing pending) (Host.ask q >>= f) := by
  intro s hX hs
  obtain ⟨s', hrun, hcontexts, hengine, -⟩ := ask_eq q s
  rw [bind_ok hrun]
  cases hfails : q.fails (Engine.answer q s.engine).reply with
  | false =>
      refine hok _ hfails s' (hcontexts.trans hX) ?_
      rw [hengine]
      exact T.throws q s.engine hs hfails
  | true => exact hbad _ hfails s' (hcontexts.trans hX) trivial

theorem take_clears (r : RealmId) :
    Clears pending X (fun _ => True) (Host.ask (.takeException r) : Action σ Value) := by
  intro s hX _
  obtain ⟨s', hrun, hcontexts, hengine, -⟩ := ask_eq (.takeException r) s
  rw [hrun]
  refine ⟨hcontexts.trans hX, ?_⟩
  rw [hengine]
  exact T.take_clears r s.engine

/-! ## Exceptions -/

include hr

theorem drop_clears (hc : h.context = c) :
    Clears pending X (Nothing pending) (Host.drop h : Action σ Unit) := by
  subst hc
  unfold Host.drop
  split
  · exact Clears.live_bind hr (ask_clears T fun _ => rfl)
  · exact .pure

theorem holding_clears {begun : σ → Prop} {x : Handle → Action σ α} (hc : h.context = c)
    (hx : Clears pending X begun (x h)) : Clears pending X begun (Host.holding h x) :=
  hx.ensuring (drop_clears T hr hc)

theorem discardException_clears :
    Clears pending X (fun _ => True) (Host.discardException c : Action σ Unit) :=
  Clears.live_bind hr ((take_clears T r).bind fun _ => ask_clears T fun _ => rfl)

theorem textLossy_clears (hc : h.context = c) :
    Clears pending X (Nothing pending) (Host.textLossy h : Action σ String) := by
  subst hc
  refine Clears.live_bind hr (ask_bind_clears (q := .toText r h.value) T (fun a ha => ?_) fun a ha => ?_)
  · cases a with
    | some t => exact .pure
    | none => cases ha
  · cases a with
    | some t => cases ha
    | none => exact (discardException_clears T hr).bind fun _ => .pure

theorem memberText_clears (hc : h.context = c) (name : String) :
    Clears pending X (Nothing pending) (Host.memberText h name : Action σ String) := by
  subst hc
  refine Clears.live_bind hr
    (ask_bind_clears (q := .getNamed r h.value name) T (fun v hv => ?_) fun v hv => ?_)
  · split
    · cases hv
    · exact .pure
    · exact holding_clears T hr rfl (textLossy_clears T hr rfl)
  · obtain rfl : v = Value.exception := LawfulBEq.eq_of_beq (α := Value) hv
    exact (discardException_clears T hr).bind fun _ => .pure

theorem recordOf_clears (hc : h.context = c) :
    Clears pending X (Nothing pending) (Host.recordOf h : Action σ ExceptionRecord) := by
  have hmember := memberText_clears T hr hc
  have herror : Clears pending X (Nothing pending) (Host.isError h : Action σ Bool) := by
    subst hc
    unfold Host.isError
    split
    · exact Clears.live_bind hr (ask_clears T fun _ => rfl)
    · exact .pure
  have hrecord : Clears pending X (Nothing pending)
      (Host.errorRecord? h : Action σ (Option ExceptionRecord)) := by
    refine herror.bind fun b => ?_
    split
    · refine (hmember "name").bind fun name => (hmember "message").bind fun message => ?_
      refine (hmember "cause").bind fun cause => (hmember "stack").bind fun stack => ?_
      exact .pure
    · exact .pure
  refine hrecord.bind fun d => ?_
  cases d with
  | some d => exact .pure
  | none => exact (textLossy_clears T hr hc).bind fun _ => .pure

theorem takeException_clears :
    Clears pending X (fun _ => True) (Host.takeException c : Action σ ExceptionRecord) :=
  Clears.live_bind hr ((take_clears T r).bind fun _ =>
    holding_clears T hr rfl (recordOf_clears T hr rfl))

/-- A request of which the reply is none if it is refused, and the failure that follows then. -/
theorem orThrow_clears {a? : Option α} (ha : a?.isNone = true) :
    Clears pending X (fun _ => True) (Host.orThrow c a? : Action σ α) := by
  cases a? with
  | some a => cases ha
  | none => exact (takeException_clears T hr).bind fun _ => .fail

theorem orViolation_clears {operation : String} {a? : Option α} (ha : a?.isNone = true) :
    Clears pending X (fun _ => True) (Host.orViolation c operation a? : Action σ α) := by
  cases a? with
  | some a => cases ha
  | none => exact (takeException_clears T hr).bind fun _ => .fail

/-! ## Sizes, and what typed arrays look at -/

theorem isInstance_clears (hc : h.context = c) {f : Value} :
    Clears pending X (Nothing pending) (Host.isInstance h f : Action σ Bool) := by
  subst hc
  unfold Host.isInstance
  split
  · refine Clears.live_bind hr (ask_bind_clears (q := .isInstance r h.value f) T
      (fun b hb => ?_) fun b hb => ?_)
    · cases b with
      | some b => exact .pure
      | none => cases hb
    · cases b with
      | some b => cases hb
      | none => exact (discardException_clears T hr).bind fun _ => .pure
  · exact .pure

theorem isCached_clears (hc : h.context = c) {field : Cache → Value} :
    Clears pending X (Nothing pending) (Host.isCached h field : Action σ Bool) :=
  Clears.context_bind (isInstance_clears T hr hc)

theorem elementKind_clears (hc : h.context = c) :
    Clears pending X (Nothing pending) (Host.elementKind? h : Action σ (Option ElementKind)) := by
  have hfirst : ∀ ks, Clears pending X (Nothing pending)
      (Host.firstKind (Host.isTypedArray h) ks : Action σ (Option ElementKind)) := by
    intro ks
    induction ks with
    | nil => exact .pure
    | cons kind ks ih =>
        refine (isCached_clears T hr hc).bind fun b => ?_
        cases b with
        | true => exact .pure
        | false => exact ih
  unfold Host.elementKind?
  split
  · exact hfirst _
  · exact .pure

theorem typeName_clears (hc : h.context = c) :
    Clears pending X (Nothing pending) (Host.typeName h : Action σ String) := by
  have hfunction : Clears pending X (Nothing pending) (Host.isFunction h : Action σ Bool) := by
    subst hc
    unfold Host.isFunction
    split
    · exact Clears.live_bind hr (ask_clears T fun _ => rfl)
    · exact .pure
  unfold Host.typeName
  cases h.value with
  | object id => exact hfunction.bind fun _ => .pure
  | _ => exact .pure

theorem sizeKey_clears (hc : h.context = c) :
    Clears pending X (Nothing pending) (Host.sizeKey? h : Action σ (Option Key)) := by
  -- One question after another, until one is answered with yes.
  have hask : ∀ {field : Cache → Value} {key : Option Key} {x : Action σ (Option Key)},
      Clears pending X (Nothing pending) x → Clears pending X (Nothing pending)
        (do if ← Host.isCached h field then Pure.pure key else x) := by
    intro field key x hx
    refine (isCached_clears T hr hc).bind fun b => ?_
    cases b with
    | true => exact .pure
    | false => exact hx
  refine Clears.context_bind (hask ((elementKind_clears T hr hc).bind fun kind => ?_))
  split
  · exact .pure
  · exact hask (hask (hask .pure))

/-- The exception sentinel taken for what it stands for. -/
theorem check_clears {v : Value} {begun : σ → Prop}
    (hbegun : ∀ e, begun e → (v == .exception) = false → Nothing pending e) :
    Clears pending X begun (Host.check c v : Action σ Handle) := by
  intro s hX hs
  unfold Host.check
  split
  · exact (takeException_clears T hr).bind (fun _ => .fail) s hX trivial
  · next hv => exact ⟨hX, hbegun _ hs (Bool.eq_false_iff.2 hv)⟩

theorem getKey_clears (hc : h.context = c) (k : Key) :
    Clears pending X (Nothing pending) (Host.getKey h k : Action σ Handle) := by
  subst hc
  refine Clears.live_bind hr (ask_bind_clears (q := .get r h.value k) T (fun v hv => ?_) fun v hv => ?_)
  · exact check_clears T hr fun _ he _ => he
  · exact check_clears T hr fun _ _ hfalse => absurd (hv.symm.trans hfalse) Bool.noConfusion

theorem toInt64_clears (hc : h.context = c) :
    Clears pending X (Nothing pending) (Host.toInt64 h : Action σ Int64) := by
  subst hc
  refine Clears.live_bind hr (ask_bind_clears (q := .toInt64 r h.value) T (fun n hn => ?_) fun n hn => ?_)
  · cases n with
    | some n => exact .pure
    | none => cases hn
  · exact orThrow_clears T hr hn

omit T hr in
/-- What is read of an object is held in the object's context. -/
theorem getKey_context {v : Handle} {s : Host σ} (hrun : (Host.getKey h k s).1 = .ok v) :
    v.context = h.context := by
  obtain ⟨r, t, -, hasked⟩ := Accounting.bind_inv hrun
  obtain ⟨w, u, -, hchecked⟩ := Accounting.bind_inv hasked
  unfold Host.check at hchecked
  split at hchecked
  · obtain ⟨_, _, -, hfailed⟩ := Accounting.bind_inv hchecked
    cases hfailed
  · cases hchecked
    rfl

theorem length_clears (hc : h.context = c) :
    Clears pending X (Nothing pending) (Host.length h : Action σ Nat) := by
  have hplace : ∀ (k : Key) (s : Host σ) (v : Handle), (Host.getKey h k s).1 = .ok v →
      v.context = c := fun _ _ _ hrun => (getKey_context hrun).trans hc
  refine (sizeKey_clears T hr hc).bind fun key => ?_
  cases key with
  | none => exact (typeName_clears T hr hc).bind fun _ => .fail
  | some k =>
      refine (getKey_clears T hr hc k).bind_said (hplace k) fun v hv => ?_
      refine (holding_clears T hr hv (toInt64_clears T hr hv)).bind fun n => ?_
      split
      · exact .pure
      · exact .fail

/-- Whatever is found out about a typed array, a buffer or anything else, nothing stays pending. -/
theorem arrayInfo_clears (hc : h.context = c) :
    Clears pending X (Nothing pending) (Host.arrayInfo h : Action σ ArrayInfo) := by
  have hdupe : Clears pending X (Nothing pending) (Host.dupe h : Action σ Handle) := by
    subst hc
    exact Clears.live_bind hr ((ask_clears T fun _ => rfl).bind fun _ => .pure)
  refine (isCached_clears T hr hc).bind fun b => ?_
  split
  · exact (length_clears T hr hc).bind fun n => hdupe.bind fun d => .pure
  · refine (elementKind_clears T hr hc).bind fun kind => ?_
    split
    · exact (typeName_clears T hr hc).bind fun _ => .fail
    · subst hc
      refine Clears.live_bind hr
        (ask_bind_clears (q := .viewInfo r h.value) T (fun i hi => ?_) fun i hi => ?_)
      · cases i with
        | some i => exact .pure
        | none => cases hi
      · exact (orViolation_clears T hr hi).bind fun _ => .pure

end Throwing

end Host

end ScriptHost
