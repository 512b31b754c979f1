import ScriptHost.Client.Thrown
import ScriptHost.Proofs.Accounting
/-!
# Actions and what is thrown

An action of the host settles what the engine throws: begun with nothing pending, it ends with nothing
pending and keeps to a policy.  A request that may be refused is followed at once by something that
mends this, which begins while what was thrown is still pending.  Each action has one lemma, for every
policy that its own requests allow.  All this is for actions on one live context; handles of other
contexts may be operands.
-/

namespace ScriptHost

open Accounting (bind_ok bind_error tryCatch_ok tryCatch_error context_ok live_ok live_error ask_eq)

variable {σ : Type} [Engine σ] {pending : σ → Option Value}

/-! ## Histories -/

namespace History

variable {a b : History σ}

omit [Engine σ] in
theorem Granted.of_suffix (h : a <:+ b) (hb : b.Granted) : a.Granted :=
  fun x hx => hb x (h.subset hx)

theorem Calm.of_suffix (h : a <:+ b) (hb : b.Calm pending) : a.Calm pending :=
  fun x hx => hb x (h.subset hx)

theorem calm_cons {x : Exchange σ} :
    Calm pending (x :: a) ↔ pending x.after = none ∧ Calm pending a := by
  simp [Calm]

end History

/-- Whether a policy has an action fail like this once something was thrown on a request. -/
def Policy.Allows (p : Policy) (q : Request) (error : ExceptionRecord → HostError) : Prop :=
  match p with
  | quiet => False
  | failing f => ∀ d, f q d = error d
  | lenient => True

namespace Host

/-! ## What comes of an action -/

/-- What comes of an action in a host with a table of contexts: the table is as before, the history
is longer, and the result is as it should be.  If the action was properly begun and nothing new was
refused, nothing is pending, and the policy was met unless something had been thrown before. -/
structure Mended {α : Type} (pending : σ → Option Value) (X : Contexts) (c : ContextId) (p : Policy)
    (Q : α → Prop) (before : History σ) (begun calm : Prop)
    (r : Except Stop α × Host (Recorded σ)) : Prop where
  contexts : r.2.contexts = X
  grows : before <:+ r.2.engine.history
  good : ∀ a, r.1 = .ok a → Q a
  clear : begun → r.2.engine.history.Granted → pending r.2.engine.engine = none
  met : begun → r.2.engine.history.Granted → calm → p.Met pending c r

/-- An action that settles what is thrown. -/
def Settles {α : Type} (pending : σ → Option Value) (X : Contexts) (c : ContextId) (p : Policy)
    (x : Action (Recorded σ) α) (Q : α → Prop) : Prop :=
  ∀ s : Host (Recorded σ), s.contexts = X →
    Mended pending X c p Q s.engine.history (pending s.engine.engine = none)
      (s.engine.history.Calm pending) (x s)

/-- An action that settles what may have been thrown on the request just before it. -/
def Mends {α : Type} (pending : σ → Option Value) (X : Contexts) (c : ContextId) (p : Policy)
    (q : Request) (x : Action (Recorded σ) α) (Q : α → Prop) : Prop :=
  ∀ (s : Host (Recorded σ)) (y : Exchange σ) (old : History σ), s.contexts = X →
    s.engine = ⟨y.after, y :: old⟩ → y.request = q →
      Mended pending X c p Q s.engine.history True (old.Calm pending) (x s)

/-- An action that puts one request to the engine, with a reply that is bad if anything is thrown. -/
def Risks {α : Type} (pending : σ → Option Value) (q : Request) (x : Action (Recorded σ) α)
    (B : α → Prop) : Prop :=
  ∀ s : Host (Recorded σ), ∃ (a : α) (s' : Host (Recorded σ)) (y : Exchange σ),
    x s = (.ok a, s') ∧ s'.contexts = s.contexts ∧
      s'.engine = ⟨y.after, y :: s.engine.history⟩ ∧ y.request = q ∧
      (pending s.engine.engine = none → ¬B a → pending y.after = none)

/-- An action that comes through. -/
def Sure {α : Type} (X : Contexts) (x : Action σ α) : Prop :=
  ∀ s : Host σ, s.contexts = X → ∃ a s', x s = (.ok a, s') ∧ s'.contexts = X

/-- A handle of a context that is not the sentinel. -/
def Real (c : ContextId) (h : Handle) : Prop := h.context = c ∧ h.value ≠ .exception

variable {X : Contexts} {c : ContextId} {p : Policy} {α β : Type} {q : Request}
  {Q : α → Prop} {R : β → Prop}

/-! ## Rules -/

/-- Where nothing was thrown every policy is met. -/
theorem met_of_calm {r : Except Stop α × Host (Recorded σ)}
    (h : r.2.engine.history.Calm pending) : p.Met pending c r := by
  cases p with
  | quiet => exact h
  | failing f => exact .inl h
  | lenient => trivial

/-- A record that was read off what was thrown first stays that, whatever is asked later. -/
theorem Caught.mono {s s' : Host (Recorded σ)} {x : Exchange σ} {d : ExceptionRecord}
    (h : s.engine.history <:+ s'.engine.history) (hx : Caught pending c s x d) :
    Caught pending c s' x d := by
  obtain ⟨v, earlier, r, taken, hv, hcalm, htaken, hgrows, hd⟩ := hx
  exact ⟨v, earlier, r, taken, hv, hcalm, htaken, hgrows.trans h, hd⟩

/-- A policy that was met by a failure is met by the same failure later on, if nothing else is thrown
first. -/
theorem met_of_error {e : Stop} {s s' : Host (Recorded σ)}
    (hgrows : s.engine.history <:+ s'.engine.history)
    (hcalm : s.engine.history.Calm pending → s'.engine.history.Calm pending)
    (hmet : p.Met pending c ((.error e, s) : Except Stop α × _)) :
    p.Met pending c ((.error e, s') : Except Stop β × _) := by
  cases p with
  | quiet => exact hcalm hmet
  | failing error =>
      rcases hmet with hmet | ⟨y, d, hcaught, hend⟩
      · exact .inl (hcalm hmet)
      · cases hend
        exact .inr ⟨y, d, hcaught.mono hgrows, rfl⟩
  | lenient => trivial

/-- An action that came to its end under a policy other than a lenient one threw nothing. -/
theorem calm_of_met {a : α} {s : Host (Recorded σ)} (hp : p ≠ .lenient)
    (hmet : p.Met pending c (.ok a, s)) : s.engine.history.Calm pending := by
  cases p with
  | quiet => exact hmet
  | failing error =>
      rcases hmet with hmet | ⟨_, _, _, hend⟩
      · exact hmet
      · cases hend
  | lenient => exact absurd rfl hp

theorem Settles.of_eq {x : Action (Recorded σ) α} {r : Host (Recorded σ) → Except Stop α}
    (hx : ∀ s, x s = (r s, s)) (hr : ∀ s, s.contexts = X → ∀ a, r s = .ok a → Q a) :
    Settles pending X c p x Q := by
  intro s hX
  rw [hx s]
  exact ⟨hX, List.suffix_rfl, hr s hX, fun hclear _ => hclear, fun _ _ hcalm => met_of_calm hcalm⟩

theorem Settles.pure {a : α} (ha : Q a) :
    Settles pending X c p (Pure.pure a : Action (Recorded σ) α) Q :=
  .of_eq (fun _ => rfl) fun _ _ _ h => by cases h; exact ha

theorem Settles.stop {e : Stop} :
    Settles pending X c p (throw e : Action (Recorded σ) α) Q :=
  .of_eq (fun _ => rfl) fun _ _ => nofun

theorem Settles.fail {e : HostError} :
    Settles pending X c p (Host.fail e : Action (Recorded σ) α) Q := .stop

theorem Settles.read :
    Settles pending X c p (getThe (Host (Recorded σ))) fun _ => True :=
  .of_eq (fun _ => rfl) fun _ _ _ _ => trivial

theorem Settles.context {d : ContextId} :
    Settles pending X c p (Host.context d : Action (Recorded σ) Context) (· = X.entry d) :=
  .of_eq (context_ok d) fun s hX x hx => by
    cases hx
    rw [hX]

theorem Settles.mono {Q' : α → Prop} {x : Action (Recorded σ) α} (hx : Settles pending X c p x Q)
    (hQ : ∀ a, Q a → Q' a) : Settles pending X c p x Q' :=
  fun s hX => { hx s hX with good := fun a ha => hQ a ((hx s hX).good a ha) }

/-- What throws nothing meets every policy. -/
theorem Settles.of_quiet {x : Action (Recorded σ) α} (hx : Settles pending X c .quiet x Q) :
    Settles pending X c p x Q := fun s hX =>
  { hx s hX with
    met := fun hbegun hgranted hcalm => met_of_calm ((hx s hX).met hbegun hgranted hcalm) }

/-- One action after another.  If the policy asks for a failure once something was thrown, then the
first one did not come to its end, so the second one is not begun. -/
theorem Mended.bind {x : Action (Recorded σ) α} {f : α → Action (Recorded σ) β}
    {before : History σ} {begun calm : Prop} {s : Host (Recorded σ)}
    (hx : Mended pending X c p Q before begun calm (x s))
    (hf : ∀ a, Q a → Settles pending X c p (f a) R) :
    Mended pending X c p R before begun calm ((x >>= f) s) := by
  rcases hxs : x s with ⟨e | a, s'⟩
  · rw [hxs] at hx
    rw [bind_error hxs]
    refine ⟨hx.contexts, hx.grows, nofun, hx.clear, fun hbegun hgranted hcalm => ?_⟩
    exact met_of_error List.suffix_rfl id (hx.met hbegun hgranted hcalm)
  · rw [hxs] at hx
    rw [bind_ok hxs]
    have hrest := hf a (hx.good a rfl) s' hx.contexts
    refine ⟨hrest.contexts, hx.grows.trans hrest.grows, hrest.good, fun hbegun hgranted => ?_,
      fun hbegun hgranted hcalm => ?_⟩
    · exact hrest.clear (hx.clear hbegun (hgranted.of_suffix hrest.grows)) hgranted
    · have hmid := hgranted.of_suffix hrest.grows
      by_cases hp : p = .lenient
      · subst hp
        trivial
      · exact hrest.met (hx.clear hbegun hmid) hgranted
          (calm_of_met hp (hx.met hbegun hmid hcalm))

theorem Settles.bind {x : Action (Recorded σ) α} {f : α → Action (Recorded σ) β}
    (hx : Settles pending X c p x Q) (hf : ∀ a, Q a → Settles pending X c p (f a) R) :
    Settles pending X c p (x >>= f) R :=
  fun s hX => (hx s hX).bind hf

theorem Settles.discard {x : Action (Recorded σ) α} (hx : Settles pending X c p x Q) :
    Settles pending X c p (discard x) fun _ => True :=
  Settles.bind hx fun _ _ => .pure trivial

theorem Settles.mapM {l : List β} {f : β → Action (Recorded σ) α}
    (hf : ∀ b ∈ l, Settles pending X c p (f b) fun _ => True) :
    Settles pending X c p (l.mapM f) fun _ => True := by
  induction l with
  | nil => exact .pure trivial
  | cons b l ih =>
      rw [List.mapM_cons]
      refine (hf b List.mem_cons_self).bind fun a _ => ?_
      exact (ih fun b hb => hf b (List.mem_cons_of_mem _ hb)).bind fun as _ => .pure trivial

theorem Settles.forM {l : List β} {f : β → Action (Recorded σ) Unit}
    (hf : ∀ b ∈ l, Settles pending X c p (f b) fun _ => True) :
    Settles pending X c p (l.forM f) fun _ => True := by
  induction l with
  | nil => exact .pure trivial
  | cons b l ih =>
      exact (hf b List.mem_cons_self).bind fun _ _ => ih fun b hb => hf b (List.mem_cons_of_mem _ hb)

/-- What is given back after an action that failed.  That must come through, unless nothing can have
been thrown. -/
theorem Settles.giving {x : Action (Recorded σ) α} {last : Action (Recorded σ) Unit}
    (hx : Settles pending X c p x Q) (hlast : Settles pending X c .quiet last fun _ => True)
    (hsure : p = .quiet ∨ Sure X last) :
    Settles pending X c p (tryCatch x fun e => do
      last
      throw e) Q := by
  intro s hX
  have hmended := hx s hX
  rcases hxs : x s with ⟨e | a, s₁⟩
  · rw [hxs] at hmended
    have hgive := hlast s₁ hmended.contexts
    rw [tryCatch_error hxs]
    -- The second part is the one that decides whether the first failure is passed on.
    have hend : Mended pending X c .quiet (fun _ : α => False) s₁.engine.history
        (pending s₁.engine.engine = none) (s₁.engine.history.Calm pending)
        ((last >>= fun _ => throw e : Action (Recorded σ) α) s₁) :=
      hgive.bind fun _ _ => .stop
    refine ⟨hend.contexts, hmended.grows.trans hend.grows, fun a ha => (hend.good a ha).elim,
      fun hbegun hgranted => ?_, fun hbegun hgranted hcalm => ?_⟩
    · exact hend.clear (hmended.clear hbegun (hgranted.of_suffix hend.grows)) hgranted
    · have hbefore := hgranted.of_suffix hend.grows
      have hclear := hmended.clear hbegun hbefore
      have hmet := hmended.met hbegun hbefore hcalm
      have hstill : s₁.engine.history.Calm pending →
          ((last >>= fun _ => throw e : Action (Recorded σ) α) s₁).2.engine.history.Calm pending :=
        fun h => hend.met hclear hgranted h
      rcases hsure with rfl | hsure
      · exact hstill hmet
      · obtain ⟨u, s₂, hrun, -⟩ := hsure s₁ hmended.contexts
        have hthrow : (last >>= fun _ => throw e : Action (Recorded σ) α) s₁ = (.error e, s₂) :=
          (bind_ok hrun).trans rfl
        rw [hthrow] at hstill ⊢
        have hgrows : s₁.engine.history <:+ s₂.engine.history := by
          have hgrows := hend.grows
          rwa [hthrow] at hgrows
        exact met_of_error hgrows hstill hmet
  · rw [hxs] at hmended
    rw [tryCatch_ok hxs]
    exact hmended

/-- An action that goes on in some way after a failure. -/
theorem Settles.tryCatch {x : Action (Recorded σ) α} {f : Stop → Action (Recorded σ) α}
    (hx : Settles pending X c .lenient x Q) (hf : ∀ e, Settles pending X c .lenient (f e) Q) :
    Settles pending X c .lenient (tryCatch x f) Q := by
  intro s hX
  have hmended := hx s hX
  rcases hxs : x s with ⟨e | a, s₁⟩
  · rw [hxs] at hmended
    have hrest := hf e s₁ hmended.contexts
    rw [tryCatch_error hxs]
    refine ⟨hrest.contexts, hmended.grows.trans hrest.grows, hrest.good, fun hbegun hgranted => ?_,
      fun _ _ _ => trivial⟩
    exact hrest.clear (hmended.clear hbegun (hgranted.of_suffix hrest.grows)) hgranted
  · rw [hxs] at hmended
    rw [tryCatch_ok hxs]
    exact hmended

/-- What is given back at the end of an action, however it ends. -/
theorem Settles.ensuring {x : Action (Recorded σ) α} {last : Action (Recorded σ) Unit}
    (hx : Settles pending X c p x Q) (hlast : Settles pending X c .quiet last fun _ => True)
    (hsure : Sure X last) : Settles pending X c p (Host.ensuring x last) Q :=
  (hx.giving hlast (.inr hsure)).bind fun _ ha => hlast.of_quiet.bind fun _ _ => .pure ha

/-! ## Requests -/

theorem live_settles {d : ContextId} :
    Settles pending X c p (Host.live d : Action (Recorded σ) RealmId) fun r =>
      (X.entry d).realm = some r := by
  refine Settles.context.bind fun x hx => ?_
  subst hx
  cases hr : (X.entry d).realm with
  | some r => exact .pure rfl
  | none => exact .stop

/-- A request on which nothing is thrown. -/
theorem calm_settles (hq : ∀ e, pending e = none → pending (Engine.answer q e).state = none) :
    Settles pending X c .quiet (Host.ask q : Action (Recorded σ) q.Reply) fun _ => True := by
  intro s hX
  obtain ⟨s', hrun, hcontexts, hengine, -⟩ := ask_eq q s
  rw [hrun]
  refine ⟨hcontexts.trans hX, ?_, fun _ _ => trivial, fun hbegun _ => ?_, fun hbegun _ hcalm => ?_⟩
  · rw [hengine]
    exact List.suffix_cons _ _
  · rw [hengine]
    exact hq _ hbegun
  · change s'.engine.history.Calm pending
    rw [hengine]
    exact History.calm_cons.2 ⟨hq _ hbegun, hcalm⟩

/-- A request that may be refused, and what follows on its answer, of which something may be known. -/
theorem Risks.bind_said {x : Action (Recorded σ) α} {S B : α → Prop}
    {f : α → Action (Recorded σ) β} (hx : Risks pending q x B)
    (hsaid : ∀ s a s', x s = (.ok a, s') → S a)
    (hok : ∀ a, S a → ¬B a → Settles pending X c p (f a) R)
    (hbad : ∀ a, B a → Mends pending X c p q (f a) R) : Settles pending X c p (x >>= f) R := by
  intro s hX
  obtain ⟨a, s', y, hrun, hcontexts, hengine, hq, hcalm⟩ := hx s
  have hgrows : s.engine.history <:+ s'.engine.history := by
    rw [hengine]
    exact List.suffix_cons _ _
  rw [bind_ok hrun]
  by_cases ha : B a
  · have hrest := hbad a ha s' y s.engine.history (hcontexts.trans hX) hengine hq
    exact { hrest with
      grows := hgrows.trans hrest.grows
      clear := fun _ => hrest.clear trivial
      met := fun _ => hrest.met trivial }
  · -- What was not refused was calm, so the calm of the history reaches back over this request.
    have hrest := hok a (hsaid _ _ _ hrun) ha s' (hcontexts.trans hX)
    refine { hrest with
      grows := hgrows.trans hrest.grows
      clear := fun hbegun => hrest.clear ?_
      met := fun hbegun hgranted hold => hrest.met ?_ hgranted ?_ }
    · rw [hengine]
      exact hcalm hbegun ha
    · rw [hengine]
      exact hcalm hbegun ha
    · rw [hengine]
      exact History.calm_cons.2 ⟨hcalm hbegun ha, hold⟩

/-- A request that may be refused, and what follows on its answer. -/
theorem Risks.bind {x : Action (Recorded σ) α} {B : α → Prop} {f : α → Action (Recorded σ) β}
    (hx : Risks pending q x B) (hok : ∀ a, ¬B a → Settles pending X c p (f a) R)
    (hbad : ∀ a, B a → Mends pending X c p q (f a) R) : Settles pending X c p (x >>= f) R :=
  hx.bind_said (fun _ _ _ _ => trivial) (fun a _ => hok a) hbad

/-- What follows once the mending is done. -/
theorem Mends.bind {x : Action (Recorded σ) α} {f : α → Action (Recorded σ) β}
    (hx : Mends pending X c p q x Q) (hf : ∀ a, Q a → Settles pending X c p (f a) R) :
    Mends pending X c p q (x >>= f) R :=
  fun s y old hX hengine hq => (hx s y old hX hengine hq).bind hf

theorem Mends.live_bind {r : RealmId} {f : RealmId → Action (Recorded σ) α}
    (hr : (X.entry c).realm = some r) (hf : Mends pending X c p q (f r) Q) :
    Mends pending X c p q (Host.live c >>= f) Q := by
  intro s y old hX hengine hq
  have hlive : (Contexts.entry s.contexts c).realm = some r := by rw [hX, hr]
  rw [bind_ok (live_ok hlive)]
  exact hf s y old hX hengine hq

/-! ## Actions that come through -/

omit [Engine σ] in
theorem Sure.pure {a : α} : Sure X (Pure.pure a : Action σ α) :=
  fun s hX => ⟨a, s, rfl, hX⟩

theorem Sure.ask : Sure X (Host.ask q : Action σ q.Reply) := by
  intro s hX
  obtain ⟨s', hrun, hcontexts, -⟩ := ask_eq q s
  exact ⟨_, s', hrun, hcontexts.trans hX⟩

omit [Engine σ] in
theorem Sure.bind {x : Action σ α} {f : α → Action σ β} (hx : Sure X x)
    (hf : ∀ a, Sure X (f a)) : Sure X (x >>= f) := by
  intro s hX
  obtain ⟨a, s', hrun, hX'⟩ := hx s hX
  rw [bind_ok hrun]
  exact hf a s' hX'

omit [Engine σ] in
theorem Sure.forM {l : List β} {f : β → Action σ Unit} (hf : ∀ b ∈ l, Sure X (f b)) :
    Sure X (l.forM f) := by
  induction l with
  | nil => exact .pure
  | cons b l ih =>
      exact (hf b List.mem_cons_self).bind fun _ => ih fun b hb => hf b (List.mem_cons_of_mem _ hb)

omit [Engine σ] in
theorem Sure.ensuring {x : Action σ α} {last : Action σ Unit}
    (hx : Sure X x) (hlast : Sure X last) : Sure X (Host.ensuring x last) := by
  refine Sure.bind (fun s hX => ?_) fun a => hlast.bind fun _ => .pure
  obtain ⟨a, s', hrun, hX'⟩ := hx s hX
  exact ⟨a, s', tryCatch_ok hrun, hX'⟩

omit [Engine σ] in
theorem live_sure {r : RealmId} (hr : (X.entry c).realm = some r) :
    Sure X (Host.live c : Action σ RealmId) :=
  fun s hX => ⟨r, s, live_ok (by rw [hX, hr]), hX⟩

variable (T : Throwing pending)
include T

/-- A request whose reply is never bad. -/
theorem sound_settles (hq : ∀ a, q.fails a = false) :
    Settles pending X c .quiet (Host.ask q : Action (Recorded σ) q.Reply) fun _ => True :=
  calm_settles fun e he => T.throws q e he (hq _)

/-- A request for something new that the host is given. -/
theorem allocation_settles (hq : q.isAllocation) :
    Settles pending X c .quiet (Host.ask q : Action (Recorded σ) q.Reply) fun _ => True := by
  intro s hX
  obtain ⟨s', hrun, hcontexts, hengine, -⟩ := ask_eq q s
  have hgrows : s.engine.history <:+ s'.engine.history := by
    rw [hengine]
    exact List.suffix_cons _ _
  rw [hrun]
  have hclear (hbegun : pending s.engine.engine = none) (hgranted : s'.engine.history.Granted) :
      pending (s.engine.exchange q).after = none := by
    have hmem : s.engine.exchange q ∈ s'.engine.history := by
      rw [hengine]
      exact List.mem_cons_self
    exact T.throws q _ hbegun (hgranted _ hmem hq)
  refine ⟨hcontexts.trans hX, hgrows, fun _ _ => trivial, fun hbegun hgranted => ?_,
    fun hbegun hgranted hcalm => ?_⟩
  · rw [hengine]
    exact hclear hbegun hgranted
  · change s'.engine.history.Calm pending
    rw [hengine]
    exact History.calm_cons.2 ⟨hclear hbegun hgranted, hcalm⟩

/-- A request with a reply that is bad if it fails. -/
theorem ask_risks {B : q.Reply → Prop} (hbad : ∀ a, q.fails a = true → B a) :
    Risks pending q (Host.ask q : Action (Recorded σ) q.Reply) B := by
  intro s
  obtain ⟨s', hrun, hcontexts, hengine, -⟩ := ask_eq q s
  refine ⟨_, s', s.engine.exchange q, hrun, hcontexts, hengine, rfl, fun hclear ha => ?_⟩
  refine T.throws q _ hclear (Bool.eq_false_iff.2 fun hfails => ha (hbad _ hfails))

end Host

end ScriptHost
