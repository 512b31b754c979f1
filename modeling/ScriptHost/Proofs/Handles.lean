import ScriptHost.Proofs.Accounting
/-!
# Handles keep their accounts

What the actions on single handles do to the references of the host: giving back, describing what
was thrown, making values and asking about them.
-/

namespace ScriptHost

variable {σ : Type} [Engine σ]

/-! ## References in handles -/

@[simp] theorem Ref.ofValue_exception : Ref.ofValue .exception = [] := rfl

@[simp] theorem Ref.ofValue_undefined : Ref.ofValue .undefined = [] := rfl

@[simp] theorem Ref.flatMap_counted_ofValue (v : Value) :
    (Ref.ofValue v).flatMap Ref.counted = Ref.ofValue v := by
  cases h : v.isCounted <;> simp [Ref.ofValue, Ref.counted, h]

@[simp] theorem Ref.ofValue_ofInt (n : Int) : Ref.ofValue (Value.ofInt n) = [] := by
  unfold Value.ofInt
  split <;> rfl

namespace Accounting

/-- References that can be had only in a live context. -/
def Rooted (X : Contexts) (c : ContextId) (refs : List Ref) : Prop := refs ≠ [] → X.isLive c

/-- References that may be named to the engine in a context, as long as it is live. -/
def Usable (A : Accounting σ) (X : Contexts) (K : Multiset Ref) (c : ContextId)
    (refs : List Ref) : Prop :=
  X.isLive c → ∀ r ∈ refs, A.exempt r ∨ r ∈ K + X.bag

/-- An action that makes a value in a context. -/
abbrev Makes (A : Accounting σ) (X : Contexts) (K : Multiset Ref) (c : ContextId)
    (x : Action σ Handle) : Prop :=
  A.Triple X K x (fun h => h.context = c ∧ Rooted X c h.refs) (fun h => h.refs + K) (A.Owing X K)

/-- An action that makes a key in a context. -/
abbrev MakesKey (A : Accounting σ) (X : Contexts) (K : Multiset Ref) (c : ContextId)
    (x : Action σ KeyHandle) : Prop :=
  A.Triple X K x (fun k => k.context = c ∧ Rooted X c k.refs) (fun k => k.refs + K) (A.Owing X K)

variable {A : Accounting σ} {X : Contexts} {M K N : Multiset Ref} {c : ContextId} {α : Type}

theorem Usable.nil : Usable A X K c [] := by
  intro _ r hr
  cases hr

theorem Usable.append {l m : List Ref} (hl : Usable A X K c l) (hm : Usable A X K c m) :
    Usable A X K c (l ++ m) := by
  intro hc r hr
  rcases List.mem_append.1 hr with hr | hr
  · exact hl hc r hr
  · exact hm hc r hr

theorem Usable.flatMap {β : Type} {l : List β} {f : β → List Ref}
    (h : ∀ b ∈ l, Usable A X K c (f b)) : Usable A X K c (l.flatMap f) := by
  intro hc r hr
  obtain ⟨b, hb, hr⟩ := List.mem_flatMap.1 hr
  exact h b hb hc r hr

/-- What the host has can be used. -/
theorem Usable.own (l : List Ref) : Usable A X (l + K) c l := by
  intro _ r hr
  exact .inr (by simp [hr])

/-- What can be used can be used when there is more. -/
theorem Usable.more {l : List Ref} (h : Usable A X K c l) : Usable A X (N + K) c l := by
  intro hc r hr
  rcases h hc r hr with hr | hr
  · exact .inl hr
  · rw [add_assoc]
    exact .inr (Multiset.mem_add.2 (.inr hr))

theorem Rooted.of_isLive {l : List Ref} (h : X.isLive c) : Rooted X c l := fun _ => h

/-! ## Giving back -/

theorem release_spends {realm : RealmId} {refs : List Ref} :
    A.Spends X (refs.flatMap Ref.counted : List Ref) K (Host.ask (.release realm refs)) := by
  have hask : A.Spends X (Request.release realm refs).taken K (Host.ask (.release realm refs)) := by
    refine (Triple.ask rfl ?_).mono (fun _ _ => ⟨trivial, zero_add K⟩) fun _ h => h
    intro r hr
    rw [add_assoc]
    exact .inr (Multiset.mem_add.2 (.inl hr))
  exact hask

theorem release_value_spends {realm : RealmId} {v : Value} :
    A.Spends X (Ref.ofValue v) K (Host.ask (.release realm (Ref.ofValue v))) := by
  have h : A.Spends X ((Ref.ofValue v).flatMap Ref.counted : List Ref) K
      (Host.ask (.release realm (Ref.ofValue v))) := release_spends
  rwa [Ref.flatMap_counted_ofValue] at h

theorem drop_spends {h : Handle} (hh : Rooted X h.context h.refs) :
    A.Spends X h.refs K (Host.drop h) := by
  unfold Host.drop
  split
  next hcounted =>
    have hrefs : h.refs = [.value h.value] := by simp [Handle.refs, Ref.ofValue, hcounted]
    refine Triple.bind (Triple.live_of (hh (by simp [hrefs]))) fun r _ => ?_
    have hflat : ([.value h.value] : List Ref).flatMap Ref.counted = h.refs := by
      simp [Ref.counted, Handle.refs]
    exact hflat ▸ release_spends
  next hcounted =>
    have hrefs : h.refs = [] := by simp [Handle.refs, Ref.ofValue, hcounted]
    exact Triple.pure trivial (by simp [hrefs])

theorem dropKey_spends {k : KeyHandle} (hk : Rooted X k.context k.refs) :
    A.Spends X k.refs K (Host.dropKey k) := by
  unfold Host.dropKey
  split
  next hkey =>
    have hnull : k.key.isNull = false := by simpa using hkey
    have hrefs : k.refs = [.key k.key] := by simp [KeyHandle.refs, Ref.ofKey, hnull]
    refine Triple.bind (Triple.live_of (hk (by simp [hrefs]))) fun r _ => ?_
    have hflat : ([.key k.key] : List Ref).flatMap Ref.counted = k.refs := by
      simp [Ref.counted, KeyHandle.refs]
    exact hflat ▸ release_spends
  next hkey =>
    have hnull : k.key.isNull = true := by simpa using hkey
    have hrefs : k.refs = [] := by simp [KeyHandle.refs, Ref.ofKey, hnull]
    exact Triple.pure trivial (by simp [hrefs])

theorem Triple.holding {h : Handle} {f : Handle → Action σ α} {Q : α → Prop}
    {R : α → Multiset Ref} (hh : Rooted X h.context h.refs)
    (hf : A.Triple X M (f h) Q (fun a => h.refs + R a) (A.Owing X (h.refs + K))) :
    A.Triple X M (Host.holding h f) Q R (A.Owing X K) :=
  Triple.ensuring hf fun _ => drop_spends hh

theorem Triple.holdingKey {k : KeyHandle} {f : KeyHandle → Action σ α} {Q : α → Prop}
    {R : α → Multiset Ref} (hk : Rooted X k.context k.refs)
    (hf : A.Triple X M (f k) Q (fun a => k.refs + R a) (A.Owing X (k.refs + K))) :
    A.Triple X M (Host.holdingKey k f) Q R (A.Owing X K) :=
  Triple.ensuring hf fun _ => dropKey_spends hk

/-- A value that is made while another one is held. -/
theorem Makes.swap {x : Action σ Handle} {l : List Ref} (hx : A.Makes X (l + K) c x) :
    A.Triple X (l + K) x (fun h => h.context = c ∧ Rooted X c h.refs)
      (fun h => l + (h.refs + K)) (A.Owing X (l + K)) :=
  hx.mono (fun _ hQ => ⟨hQ, add_left_comm _ _ _⟩) fun _ h => h

theorem dupe_triple {h : Handle} (hu : Usable A X K h.context h.refs) :
    A.Triple X K (Host.dupe h) (fun d => d = h ∧ Rooted X h.context h.refs) (fun d => d.refs + K)
      (A.Owing X K) := by
  unfold Host.dupe
  refine Triple.bind Triple.live fun r hr => ?_
  refine Triple.bind (Triple.ask_free rfl rfl (hu hr)) fun _ _ => ?_
  exact Triple.pure ⟨rfl, Rooted.of_isLive hr⟩ rfl

theorem dupe_makes {h : Handle} (hu : Usable A X K h.context h.refs) :
    A.Makes X K h.context (Host.dupe h) := by
  refine (dupe_triple hu).mono ?_ fun _ h => h
  rintro d ⟨rfl, hroot⟩
  exact ⟨⟨rfl, hroot⟩, rfl⟩

theorem dupeKey_makes {k : KeyHandle} (hu : Usable A X K k.context k.refs) :
    A.MakesKey X K k.context (Host.dupeKey k) := by
  unfold Host.dupeKey
  refine Triple.bind Triple.live fun r hr => ?_
  refine Triple.bind (Triple.ask_free rfl rfl (hu hr)) fun _ _ => ?_
  exact Triple.pure ⟨rfl, Rooted.of_isLive hr⟩ rfl

/-! ## Exceptions -/

theorem discardException_keeps : A.Keeps X K (Host.discardException c) := by
  unfold Host.discardException
  refine Triple.bind Triple.live fun r hr => ?_
  refine Triple.bind (Triple.ask_free rfl rfl (Usable.nil hr)) fun e _ => ?_
  exact release_value_spends.sure

theorem textLossy_keeps {h : Handle} (hu : Usable A X K h.context h.refs) :
    A.Keeps X K (Host.textLossy h) := by
  unfold Host.textLossy
  refine Triple.bind Triple.live fun r hr => ?_
  refine Triple.bind (Triple.inquiry rfl rfl (fun _ => rfl) (hu hr)) fun s _ => ?_
  cases s with
  | some s => exact Keeps.pure
  | none => exact discardException_keeps.bind fun _ => Keeps.pure

theorem memberText_keeps {h : Handle} (hu : Usable A X K h.context h.refs) (name : String) :
    A.Keeps X K (Host.memberText h name) := by
  unfold Host.memberText
  refine Triple.bind Triple.live fun r hr => ?_
  refine Triple.bind (Triple.ask_free rfl rfl (hu hr)) fun v _ => ?_
  change A.Triple X (Ref.ofValue v + K) _ _ _ _
  split
  · simpa using discardException_keeps.bind fun _ => Keeps.pure
  · simpa using Keeps.pure
  · exact Triple.holding (h := ⟨h.context, v⟩) (Rooted.of_isLive hr)
      (textLossy_keeps (Usable.own _))

theorem isError_keeps {h : Handle} (hu : Usable A X K h.context h.refs) :
    A.Keeps X K (Host.isError h) := by
  unfold Host.isError
  split
  · refine Triple.bind Triple.live fun r hr => ?_
    exact Triple.inquiry rfl rfl (fun _ => rfl) (hu hr)
  · exact Keeps.pure

theorem errorRecord_keeps {h : Handle} (hu : Usable A X K h.context h.refs) :
    A.Keeps X K (Host.errorRecord? h) := by
  unfold Host.errorRecord?
  refine (isError_keeps hu).bind fun b => ?_
  split
  · refine (memberText_keeps hu _).bind fun name => ?_
    refine (memberText_keeps hu _).bind fun message => ?_
    refine (memberText_keeps hu _).bind fun cause => ?_
    exact (memberText_keeps hu _).bind fun stack => Keeps.pure
  · exact Keeps.pure

theorem recordOf_keeps {h : Handle} (hu : Usable A X K h.context h.refs) :
    A.Keeps X K (Host.recordOf h) := by
  unfold Host.recordOf
  refine (errorRecord_keeps hu).bind fun record => ?_
  cases record with
  | some r => exact Keeps.pure
  | none => exact (textLossy_keeps hu).bind fun _ => Keeps.pure

theorem takeException_keeps : A.Keeps X K (Host.takeException c) := by
  unfold Host.takeException
  refine Triple.bind Triple.live fun r hr => ?_
  refine Triple.bind (Triple.ask_free rfl rfl (Usable.nil hr)) fun v _ => ?_
  exact Triple.holding (h := ⟨c, v⟩) (Rooted.of_isLive hr) (recordOf_keeps (Usable.own _))

theorem throwPending_triple {Q : α → Prop} {R : α → Multiset Ref} :
    A.Triple X K (Host.throwPending c : Action σ α) Q R (A.Owing X K) := by
  unfold Host.throwPending
  exact takeException_keeps.bind fun _ => Triple.fail

/-- What the engine gave is kept, and what stands for nothing is no reference. -/
theorem check_makes (hc : X.isLive c) (v : Value) :
    A.Triple X (Ref.ofValue v + K) (Host.check c v)
      (fun h => h.context = c ∧ Rooted X c h.refs) (fun h => h.refs + K) (A.Owing X K) := by
  unfold Host.check
  split
  next hv =>
    have hnone : Ref.ofValue v = [] := by rw [eq_of_beq hv, Ref.ofValue_exception]
    simpa [hnone] using throwPending_triple
  next => exact Triple.pure ⟨rfl, Rooted.of_isLive hc⟩ rfl

theorem orThrow_triple {a : Option α} {Q : α → Prop} {R : α → Multiset Ref}
    (hsome : ∀ x, a = some x → Q x ∧ M = R x) (hnone : a = none → M = K) :
    A.Triple X M (Host.orThrow c a) Q R (A.Owing X K) := by
  unfold Host.orThrow
  cases a with
  | some x => exact Triple.pure (hsome x rfl).1 (hsome x rfl).2
  | none => exact hnone rfl ▸ throwPending_triple

theorem orThrow_keeps {a : Option α} : A.Keeps X K (Host.orThrow c a) :=
  orThrow_triple (fun _ _ => ⟨trivial, rfl⟩) fun _ => rfl

theorem orViolation_triple {operation : String} {a : Option α} {Q : α → Prop}
    {R : α → Multiset Ref} (hsome : ∀ x, a = some x → Q x ∧ M = R x)
    (hnone : a = none → M = K) :
    A.Triple X M (Host.orViolation c operation a) Q R (A.Owing X K) := by
  unfold Host.orViolation
  cases a with
  | some x => exact Triple.pure (hsome x rfl).1 (hsome x rfl).2
  | none => exact hnone rfl ▸ takeException_keeps.bind fun _ => Triple.fail

theorem orViolation_keeps {operation : String} {a : Option α} :
    A.Keeps X K (Host.orViolation c operation a) :=
  orViolation_triple (fun _ _ => ⟨trivial, rfl⟩) fun _ => rfl

/-! ## Requests in a live context -/

/-- The value that the engine gives in a live context. -/
theorem given_makes {x : RealmId → Action σ Value}
    (hx : ∀ r, X.isLive c →
      A.Triple X K (x r) (fun _ => True) (fun v => Ref.ofValue v + K) (A.Owing X K)) :
    A.Makes X K c (do Pure.pure ⟨c, ← x (← Host.live c)⟩) := by
  refine Triple.bind Triple.live fun r hr => ?_
  refine Triple.bind (hx r hr) fun v _ => ?_
  exact Triple.pure ⟨rfl, Rooted.of_isLive hr⟩ rfl

/-- The value that the engine gives in a live context, if it gives one. -/
theorem checked_makes {x : RealmId → Action σ Value}
    (hx : ∀ r, X.isLive c →
      A.Triple X K (x r) (fun _ => True) (fun v => Ref.ofValue v + K) (A.Owing X K)) :
    A.Makes X K c (do Host.check c (← x (← Host.live c))) := by
  refine Triple.bind Triple.live fun r hr => ?_
  exact Triple.bind (hx r hr) fun v _ => check_makes hr v

/-- The key that the engine gives in a live context. -/
theorem given_makesKey {x : RealmId → Action σ Key}
    (hx : ∀ r, X.isLive c →
      A.Triple X K (x r) (fun _ => True) (fun k => Ref.ofKey k + K) (A.Owing X K)) :
    A.MakesKey X K c (do Pure.pure ⟨c, ← x (← Host.live c)⟩) := by
  refine Triple.bind Triple.live fun r hr => ?_
  refine Triple.bind (hx r hr) fun k _ => ?_
  exact Triple.pure ⟨rfl, Rooted.of_isLive hr⟩ rfl

/-- What the engine says in a live context. -/
theorem said_keeps {x : RealmId → Action σ α} (hx : ∀ r, X.isLive c → A.Keeps X K (x r)) :
    A.Keeps X K (do x (← Host.live c)) :=
  Triple.bind Triple.live hx

/-- What the engine says in a live context, unless it throws. -/
theorem thrown_keeps {x : RealmId → Action σ (Option α)}
    (hx : ∀ r, X.isLive c → A.Keeps X K (x r)) :
    A.Keeps X K (do Host.orThrow c (← x (← Host.live c))) := by
  refine Triple.bind Triple.live fun r hr => ?_
  exact (hx r hr).bind fun _ => orThrow_keeps

/-- What the engine says in a live context; if it throws, that is a violation. -/
theorem violated_keeps {operation : String} {x : RealmId → Action σ (Option α)}
    (hx : ∀ r, X.isLive c → A.Keeps X K (x r)) :
    A.Keeps X K (do Host.orViolation c operation (← x (← Host.live c))) := by
  refine Triple.bind Triple.live fun r hr => ?_
  exact (hx r hr).bind fun _ => orViolation_keeps

end Accounting

end ScriptHost
