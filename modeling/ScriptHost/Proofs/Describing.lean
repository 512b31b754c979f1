import ScriptHost.Proofs.Settling
/-!
# Describing what was thrown

What was thrown is taken off the engine and described, and describing it runs scripts that may throw
again.  That comes through all the same in a live context, and it leaves nothing pending.
-/

namespace ScriptHost

open Accounting (bind_ok tryCatch_ok live_ok ask_eq)

variable {σ : Type} [Engine σ] {pending : σ → Option Value}

namespace Host

variable {X : Contexts} {c : ContextId} {p : Policy} {α : Type} {q : Request} {Q : α → Prop}
  {r : RealmId} {h : Handle} {k : KeyHandle}

/-! ## Coming through -/

section Through

variable (hr : (X.entry c).realm = some r)
include hr

theorem drop_sure (hc : h.context = c) : Sure X (Host.drop h : Action σ Unit) := by
  subst hc
  unfold Host.drop
  split
  · exact (live_sure hr).bind fun _ => .ask
  · exact .pure

theorem dropKey_sure (hc : k.context = c) : Sure X (Host.dropKey k : Action σ Unit) := by
  subst hc
  unfold Host.dropKey
  split
  · exact (live_sure hr).bind fun _ => .ask
  · exact .pure

theorem holding_sure {x : Handle → Action σ α} (hc : h.context = c)
    (hx : Sure X (x h)) : Sure X (Host.holding h x) :=
  hx.ensuring (drop_sure hr hc)

theorem discardException_sure : Sure X (Host.discardException c : Action σ Unit) :=
  (live_sure hr).bind fun _ => Sure.ask.bind fun _ => .ask

theorem textLossy_sure (hc : h.context = c) :
    Sure X (Host.textLossy h : Action σ String) := by
  subst hc
  refine (live_sure hr).bind fun r => Sure.bind (x := Host.ask (.toText r h.value)) .ask fun t => ?_
  cases t with
  | some t => exact .pure
  | none => exact (discardException_sure hr).bind fun _ => .pure

theorem memberText_sure (hc : h.context = c) (name : String) :
    Sure X (Host.memberText h name : Action σ String) := by
  subst hc
  refine (live_sure hr).bind fun r =>
    Sure.bind (x := Host.ask (.getNamed r h.value name)) .ask fun v => ?_
  split
  · exact (discardException_sure hr).bind fun _ => .pure
  · exact .pure
  · exact holding_sure hr rfl (textLossy_sure hr rfl)

theorem recordOf_sure (hc : h.context = c) :
    Sure X (Host.recordOf h : Action σ ExceptionRecord) := by
  have hmember := memberText_sure (σ := σ) hr hc
  have herror : Sure X (Host.isError h : Action σ Bool) := by
    subst hc
    unfold Host.isError
    split
    · exact (live_sure hr).bind fun _ => .ask
    · exact .pure
  have hrecord : Sure X (Host.errorRecord? h : Action σ (Option ExceptionRecord)) := by
    refine herror.bind fun b => ?_
    split
    · refine (hmember "name").bind fun name => (hmember "message").bind fun message => ?_
      refine (hmember "cause").bind fun cause => (hmember "stack").bind fun stack => ?_
      exact .pure
    · exact .pure
  refine hrecord.bind fun d => ?_
  cases d with
  | some d => exact .pure
  | none => exact (textLossy_sure hr hc).bind fun _ => .pure

end Through

/-! ## Leaving nothing pending -/

variable (T : Throwing pending)
include T

theorem drop_settles : Settles pending X c p (Host.drop h : Action (Recorded σ) Unit) fun _ => True := by
  unfold Host.drop
  split
  · exact live_settles.bind fun r _ => (sound_settles T fun _ => rfl).of_quiet
  · exact .pure trivial

theorem dropKey_settles :
    Settles pending X c p (Host.dropKey k : Action (Recorded σ) Unit) fun _ => True := by
  unfold Host.dropKey
  split
  · exact live_settles.bind fun r _ => (sound_settles T fun _ => rfl).of_quiet
  · exact .pure trivial

theorem holding_settles {x : Handle → Action (Recorded σ) α} (hr : (X.entry c).realm = some r)
    (hc : h.context = c) (hx : Settles pending X c p (x h) Q) :
    Settles pending X c p (Host.holding h x) Q :=
  hx.ensuring (drop_settles T) (drop_sure hr hc)

theorem holdingKey_settles {x : KeyHandle → Action (Recorded σ) α}
    (hr : (X.entry c).realm = some r) (hc : k.context = c) (hx : Settles pending X c p (x k) Q) :
    Settles pending X c p (Host.holdingKey k x) Q :=
  hx.ensuring (dropKey_settles T) (dropKey_sure hr hc)

/-- With nothing pending nothing comes of taking it. -/
theorem discardException_settles :
    Settles pending X c .quiet (Host.discardException c : Action (Recorded σ) Unit) fun _ => True := by
  refine live_settles.bind fun r _ => (calm_settles fun e _ => T.take_clears r e).bind fun v _ => ?_
  exact sound_settles T fun _ => rfl

/-- Once it was taken nothing is pending. -/
theorem take_mends (r : RealmId) :
    Mends pending X c .lenient q (Host.ask (.takeException r) : Action (Recorded σ) Value)
      fun _ => True := by
  intro s y old hX hengine hq
  obtain ⟨s', hrun, hcontexts, htaken, -⟩ := ask_eq (.takeException r) s
  rw [hrun]
  refine ⟨hcontexts.trans hX, ?_, fun _ _ => trivial, fun _ _ => ?_, fun _ _ _ => trivial⟩
  · rw [htaken]
    exact List.suffix_cons _ _
  · rw [htaken]
    exact T.take_clears r _

theorem discardException_mends (hr : (X.entry c).realm = some r) :
    Mends pending X c .lenient q (Host.discardException c : Action (Recorded σ) Unit)
      fun _ => True :=
  .live_bind hr ((take_mends T r).bind fun _ _ => (sound_settles T fun _ => rfl).of_quiet)

theorem textLossy_settles (hr : (X.entry c).realm = some r) (hc : h.context = c) :
    Settles pending X c .lenient (Host.textLossy h : Action (Recorded σ) String) fun _ => True := by
  subst hc
  refine live_settles.bind fun r' _ => ?_
  refine Risks.bind (ask_risks T fun t => Option.isNone_iff_eq_none.1)
    (fun t ht => ?_) fun t ht => ?_
  · cases t with
    | none => exact absurd rfl ht
    | some t => exact .pure trivial
  · subst ht
    exact (discardException_mends T hr).bind fun _ _ => .pure trivial

theorem memberText_settles (hr : (X.entry c).realm = some r) (hc : h.context = c) (name : String) :
    Settles pending X c .lenient (Host.memberText h name : Action (Recorded σ) String)
      fun _ => True := by
  subst hc
  refine live_settles.bind fun r' _ => ?_
  refine Risks.bind (ask_risks T fun v => eq_of_beq)
    (fun v hv => ?_) fun v hv => ?_
  · split
    · exact absurd rfl hv
    · exact .pure trivial
    · exact holding_settles T hr rfl (textLossy_settles T hr rfl)
  · subst hv
    exact (discardException_mends T hr).bind fun _ _ => .pure trivial

theorem isError_settles :
    Settles pending X c p (Host.isError h : Action (Recorded σ) Bool) fun _ => True := by
  unfold Host.isError
  split
  · exact live_settles.bind fun r _ => (sound_settles T fun _ => rfl).of_quiet
  · exact .pure trivial

theorem errorRecord_settles (hr : (X.entry c).realm = some r) (hc : h.context = c) :
    Settles pending X c .lenient
      (Host.errorRecord? h : Action (Recorded σ) (Option ExceptionRecord)) fun _ => True := by
  have hmember := memberText_settles T hr hc
  refine (isError_settles T).bind fun b _ => ?_
  split
  · refine (hmember "name").bind fun _ _ => (hmember "message").bind fun _ _ => ?_
    refine (hmember "cause").bind fun _ _ => (hmember "stack").bind fun _ _ => ?_
    exact .pure trivial
  · exact .pure trivial

theorem recordOf_settles (hr : (X.entry c).realm = some r) (hc : h.context = c) :
    Settles pending X c .lenient (Host.recordOf h : Action (Recorded σ) ExceptionRecord)
      fun _ => True := by
  refine (errorRecord_settles T hr hc).bind fun d _ => ?_
  cases d with
  | some d => exact .pure trivial
  | none => exact (textLossy_settles T hr hc).bind fun _ _ => .pure trivial

/-- What is given if nothing was thrown is described without throwing anything: it is no error, and
if there is no text for it, taking what was thrown on that is taking nothing. -/
theorem recordOf_uninitialized :
    Settles pending X c .quiet
      (Host.recordOf ⟨c, .uninitialized⟩ : Action (Recorded σ) ExceptionRecord) fun _ => True := by
  have hnone : Settles pending X c .quiet
      (Host.errorRecord? ⟨c, .uninitialized⟩ : Action (Recorded σ) (Option ExceptionRecord))
      (· = none) :=
    Settles.bind (Settles.pure rfl : Settles _ _ _ _ (Host.isError ⟨c, .uninitialized⟩) (· = false))
      fun b hb => by subst hb; exact .pure rfl
  refine hnone.bind fun d hd => ?_
  subst hd
  refine Settles.bind (Q := fun _ => True) ?_ fun _ _ => .pure trivial
  refine live_settles.bind fun r _ => (calm_settles fun e he => T.text_calm r e he).bind fun t _ => ?_
  cases t with
  | some t => exact .pure trivial
  | none => exact (discardException_settles T).bind fun _ _ => .pure trivial

/-! ## Taking and describing -/

/-- What may have been thrown on the request just before is taken off the engine and described. -/
theorem takeException_ends (hr : (X.entry c).realm = some r) {s : Host (Recorded σ)}
    {y : Exchange σ} {old : History σ} (hX : s.contexts = X) (he : s.engine = ⟨y.after, y :: old⟩) :
    ∃ (d : ExceptionRecord) (s' : Host (Recorded σ)),
      Host.takeException c s = (.ok d, s') ∧ s'.contexts = X ∧
      s.engine.history <:+ s'.engine.history ∧
      (s'.engine.history.Granted → pending s'.engine.engine = none ∧
        (old.Calm pending → s'.engine.history.Calm pending ∨ Caught pending c s' y d)) := by
  have hlive : (Contexts.entry s.contexts c).realm = some r := by rw [hX, hr]
  obtain ⟨t, htake, hcontexts, hengine, -⟩ := ask_eq (.takeException r) s
  have ht : t.contexts = X := hcontexts.trans hX
  have hclear : pending t.engine.engine = none := by
    rw [hengine]
    exact T.take_clears r _
  have hgrows : s.engine.history <:+ t.engine.history := by
    rw [hengine]
    exact List.suffix_cons _ _
  -- The value that was taken, and the record that is read off it.
  obtain ⟨v, hv⟩ : ∃ v, v = (Engine.answer (.takeException r) s.engine).reply := ⟨_, rfl⟩
  have hvalue : v = (pending y.after).getD .uninitialized := by
    rw [hv, he]
    exact T.take_reply r y.after
  obtain ⟨d, s₁, hrecord, hs₁⟩ := recordOf_sure hr (h := ⟨c, v⟩) rfl t ht
  obtain ⟨u, s', hdrop, -⟩ := drop_sure hr (h := ⟨c, v⟩) rfl s₁ hs₁
  have hhold : Host.holding ⟨c, v⟩ Host.recordOf t = (.ok d, s') :=
    (bind_ok (tryCatch_ok hrecord)).trans (bind_ok hdrop)
  have hrun : Host.takeException c s = (.ok d, s') := by
    refine (bind_ok (live_ok hlive)).trans ((bind_ok htake).trans ?_)
    rw [← hv]
    exact hhold
  have hmended := holding_settles T hr (h := ⟨c, v⟩) rfl (recordOf_settles T hr rfl) t ht
  rw [hhold] at hmended
  refine ⟨d, s', hrun, hmended.contexts, hgrows.trans hmended.grows, fun hgranted => ?_⟩
  refine ⟨hmended.clear hclear hgranted, fun hcalm => ?_⟩
  cases hpending : pending y.after with
  | some w =>
      -- Something was thrown on the request before, and nothing earlier.
      have hw : v = w := by rw [hvalue, hpending]; rfl
      rw [hw] at hrecord
      refine .inr ⟨w, old, r, t, hpending, hcalm, hengine.trans (by rw [he]), hmended.grows, ?_⟩
      rw [hrecord]
  | none =>
      have hnothing : v = .uninitialized := by rw [hvalue, hpending]; rfl
      rw [hnothing] at hhold
      have hquiet := holding_settles T hr rfl (recordOf_uninitialized T) t ht
      rw [hhold] at hquiet
      refine .inl (hquiet.met hclear hgranted ?_)
      rw [hengine, he]
      exact History.calm_cons.2 ⟨T.take_clears r _, History.calm_cons.2 ⟨hpending, hcalm⟩⟩

/-- A failure that is made of what was thrown on the request just before. -/
theorem fail_mends (hr : (X.entry c).realm = some r) {error : ExceptionRecord → HostError}
    (hp : p.Allows q error) :
    Mends pending X c p q (do Host.fail (error (← Host.takeException c)) :
      Action (Recorded σ) α) Q := by
  intro s y old hX hengine hq
  obtain ⟨d, s', hrun, hcontexts, hgrows, hend⟩ := takeException_ends T hr hX hengine
  rw [bind_ok hrun]
  refine ⟨hcontexts, hgrows, nofun, fun _ hgranted => (hend hgranted).1, fun _ hgranted hcalm => ?_⟩
  rcases (hend hgranted).2 hcalm with hcalm | hcaught
  · exact met_of_calm hcalm
  · cases p with
    | quiet => exact hp.elim
    | failing f =>
        refine .inr ⟨y, d, hcaught, ?_⟩
        rw [hq, show f q d = error d from hp d]
        rfl
    | lenient => trivial

/-! ## Requests with a reply that may be bad -/

section Replies

variable {q : RealmId → Request} {β : Type} {R : β → Prop}

omit T in
theorem check_settles {v : Value} (hv : v ≠ .exception) :
    Settles pending X c p (Host.check c v : Action (Recorded σ) Handle) (Real c) := by
  rw [Host.check, if_neg (by simpa using hv)]
  exact .pure ⟨rfl, hv⟩

/-- What follows on a value that the engine gives in a live context, if it gives one. -/
theorem checked_bind {x : RealmId → Action (Recorded σ) Value}
    {f : Handle → Action (Recorded σ) β} (hp : ∀ r, p.Allows (q r) .exception)
    (hx : ∀ r, Risks pending (q r) (x r) (· = .exception))
    (hf : ∀ h, Real c h → Settles pending X c p (f h) R) :
    Settles pending X c p (Host.live c >>= fun r => x r >>= fun v => Host.check c v >>= f) R := by
  refine live_settles.bind fun r hr => (hx r).bind (fun v hv => ?_) fun v hv => ?_
  · exact (check_settles hv).bind hf
  · subst hv
    exact (fail_mends T hr (hp r)).bind hf

/-- The value that the engine gives in a live context, if it gives one. -/
theorem checked_settles {x : RealmId → Action (Recorded σ) Value}
    (hp : ∀ r, p.Allows (q r) .exception) (hx : ∀ r, Risks pending (q r) (x r) (· = .exception)) :
    Settles pending X c p (do Host.check c (← x (← Host.live c))) (Real c) := by
  refine live_settles.bind fun r hr => (hx r).bind (fun v hv => ?_) fun v hv => ?_
  · exact check_settles hv
  · subst hv
    exact fail_mends T hr (hp r)

/-- What follows on what the engine says in a live context, unless it throws. -/
theorem thrown_bind {x : RealmId → Action (Recorded σ) (Option α)}
    {f : α → Action (Recorded σ) β} (hp : ∀ r, p.Allows (q r) .exception)
    (hx : ∀ r, Risks pending (q r) (x r) (· = none)) (hf : ∀ a, Settles pending X c p (f a) R) :
    Settles pending X c p (Host.live c >>= fun r => x r >>= fun a => Host.orThrow c a >>= f) R := by
  refine live_settles.bind fun r hr => (hx r).bind (fun a ha => ?_) fun a ha => ?_
  · cases a with
    | none => exact absurd rfl ha
    | some a => exact hf a
  · subst ha
    exact (fail_mends (Q := fun _ => True) T hr (hp r)).bind fun a _ => hf a

/-- What the engine says in a live context, unless it throws. -/
theorem thrown_settles {x : RealmId → Action (Recorded σ) (Option α)}
    (hp : ∀ r, p.Allows (q r) .exception) (hx : ∀ r, Risks pending (q r) (x r) (· = none)) :
    Settles pending X c p (do Host.orThrow c (← x (← Host.live c))) fun _ => True := by
  refine live_settles.bind fun r hr => (hx r).bind (fun a ha => ?_) fun a ha => ?_
  · cases a with
    | none => exact absurd rfl ha
    | some a => exact .pure trivial
  · subst ha
    exact fail_mends T hr (hp r)

/-- What follows on what the engine says in a live context, of which something may be known; if it
throws, that is a violation. -/
theorem violated_bind {operation : String} {S : Option α → Prop}
    {x : RealmId → Action (Recorded σ) (Option α)} {f : α → Action (Recorded σ) β}
    (hp : ∀ r, p.Allows (q r) fun d => .contractViolation operation d.text)
    (hx : ∀ r, Risks pending (q r) (x r) (· = none))
    (hsaid : ∀ r s a s', x r s = (.ok a, s') → S a)
    (hf : ∀ a, S (some a) → Settles pending X c p (f a) R) :
    Settles pending X c p
      (Host.live c >>= fun r => x r >>= fun a => Host.orViolation c operation a >>= f) R := by
  refine live_settles.bind fun r hr => (hx r).bind_said (hsaid r) (fun a hs ha => ?_) fun a ha => ?_
  · cases a with
    | none => exact absurd rfl ha
    | some a => exact hf a hs
  · subst ha
    intro s y old hX hengine hq
    exact (fail_mends (Q := fun _ => False) T hr (hp r) s y old hX hengine hq).bind nofun

/-- What the engine says in a live context; if it throws, that is a violation. -/
theorem violated_settles {operation : String} {x : RealmId → Action (Recorded σ) (Option α)}
    (hp : ∀ r, p.Allows (q r) fun d => .contractViolation operation d.text)
    (hx : ∀ r, Risks pending (q r) (x r) (· = none)) :
    Settles pending X c p (do Host.orViolation c operation (← x (← Host.live c)))
      fun _ => True := by
  refine live_settles.bind fun r hr => (hx r).bind (fun a ha => ?_) fun a ha => ?_
  · cases a with
    | none => exact absurd rfl ha
    | some a => exact .pure trivial
  · subst ha
    exact fail_mends T hr (hp r)

end Replies

end Host

end ScriptHost
