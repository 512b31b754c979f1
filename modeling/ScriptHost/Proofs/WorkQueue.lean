import ScriptHost.Client.Work
import ScriptHost.Proofs.Descriptions
import ScriptHost.Proofs.Frames
import ScriptHost.Proofs.SpareKeys
/-!
# Work is done in line

However much work the pieces of waiting work put off, and whichever of them fail, the pieces are done
one after the other as they stand in line, each of them once.  A call does work until none waits or a
piece fails, so one call after the other comes through all of it, with one failure for each piece that
fails.
-/

namespace ScriptHost

open Accounting (bind_ok bind_error live_ok context_ok ask_eq)

variable {σ J : Type} [Engine σ] {pending : σ → Option Value} {realmOf : J → RealmId}
  {queue : σ → List J}

/-! ## Exchanges -/

namespace Exchange

variable {x : Exchange σ}

/-- Either no piece of work was done, or it was the foremost one; the others wait as they did. -/
theorem step (Q : Queueing realmOf queue)
    (hreply : x.reply = (Engine.answer x.request x.before).reply) (hq : x.request ≠ .shutDown) :
    x.job? queue = none ∧ queue x.before <+: queue x.after ∨
      ∃ j js, x.job? queue = some j ∧ queue x.before = j :: js ∧ js <+: queue x.after := by
  obtain ⟨e, q, reply, freed⟩ := x
  dsimp only at hreply hq
  subst hreply
  -- Only the request for work takes a piece off the queue.
  by_cases hrun : q = .runJob
  · subst hrun
    cases hqueue : queue e with
    | nil =>
        refine .inl ⟨?_, ?_⟩
        · unfold job?
          rw [hqueue]
          split <;> rfl
        · exact List.nil_prefix
    | cons j js =>
        obtain ⟨hreply, hjs⟩ := Q.works e j js hqueue
        refine .inr ⟨j, js, ?_, rfl, hjs⟩
        unfold job? jobEnd?
        rcases hreply with hreply | hreply
        · simp [hreply, hqueue]
        · simp [hreply, hqueue]
  · refine .inl ⟨?_, Q.keeps q e hrun hq⟩
    have hnone : jobEnd? (⟨e, q, (Engine.answer q e).reply, freed⟩ : Exchange σ) = none := by
      cases q <;> first | rfl | exact absurd rfl hrun
    unfold job?
    rw [hnone]

/-- What stood in line and what came to its end is what was done and what stands in line then. -/
theorem inLine (Q : Queueing realmOf queue)
    (hreply : x.reply = (Engine.answer x.request x.before).reply) (hq : x.request ≠ .shutDown) :
    queue x.before ++ x.putOff queue = (x.job? queue).toList ++ queue x.after := by
  unfold putOff
  rcases x.step Q hreply hq with ⟨hjob, hqueue⟩ | ⟨j, js, hjob, hbefore, hafter⟩
  · rw [hjob]
    exact List.prefix_iff_eq_append.1 hqueue
  · rw [hjob, hbefore]
    exact congrArg (j :: ·) (List.prefix_iff_eq_append.1 hafter)

omit [Engine σ] in
/-- Nothing that is asked in describing is work. -/
theorem jobEnd?_of_looks (hlooks : x.request.looks) : x.jobEnd? = none := by
  obtain ⟨e, q, reply, freed⟩ := x
  cases q <;> first | rfl | cases hlooks

end Exchange

namespace History

variable {new new' : History σ}

omit [Engine σ] in
theorem done_append : done queue (new' ++ new) = done queue new ++ done queue new' := by
  simp [done]

theorem putOff_append : putOff queue (new' ++ new) = putOff queue new ++ putOff queue new' := by
  simp [putOff]

omit [Engine σ] in
theorem failures_append : failures (new' ++ new) = failures new' ++ failures new := by
  simp [failures]

omit [Engine σ] in
/-- Nothing is done, and nothing fails, in describing. -/
theorem idle_of_looks (h : ∀ x ∈ new, x.request.looks) :
    done queue new = [] ∧ failures new = [] := by
  constructor
  · rw [done, List.reverse_eq_nil_iff, List.filterMap_eq_nil_iff]
    intro x hx
    rw [Exchange.job?, Exchange.jobEnd?_of_looks (h x hx)]
  · rw [failures, List.filter_eq_nil_iff]
    intro x hx
    rw [Exchange.failure?, Exchange.jobEnd?_of_looks (h x hx)]
    exact Bool.false_ne_true

end History

/-! ## The engine of scripts -/

namespace ScriptEngine

variable {α : Type} {realm : RealmId} {e : ScriptEngine} {q : Request}

theorem run_queue {x : Eval α} : (run realm x e).2.queue = e.queue := by
  obtain ⟨machine, pending, ledger, queue⟩ := e
  unfold run
  dsimp only
  split
  · rfl
  · rfl

theorem runValue_queue {x : Eval Value} : (runValue realm x e).2.queue = e.queue := by
  have hqueue : (run realm x e).2.queue = e.queue := run_queue
  unfold runValue
  rcases hrun : run realm x e with ⟨_ | v, e'⟩
  · rwa [hrun] at hqueue
  · rwa [hrun] at hqueue

theorem change_queue {x : Mem α} : (change realm x e).2.queue = e.queue := rfl

theorem openRealm_queue {features : List Feature} : (openRealm features e).2.queue = e.queue := by
  have hqueue : (change 0 (Builtin.newRealm features) e).2.queue = e.queue := change_queue
  unfold openRealm
  generalize change 0 (Builtin.newRealm features) e = made at hqueue ⊢
  obtain ⟨r, e'⟩ := made
  dsimp only at hqueue ⊢
  rw [← hqueue]
  split
  · split <;> rfl
  · rfl

/-- Scripts do not touch the line. -/
theorem core_queue (hrun : q ≠ .runJob) (hq : q ≠ .shutDown) : (core q e).2.queue = e.queue := by
  cases q with
  | openRealm =>
      have hcore : core .openRealm e = openRealm Feature.all e := rfl
      rw [hcore, openRealm_queue]
  | openBare features =>
      have hcore : core (.openBare features) e = openRealm features e := rfl
      rw [hcore, openRealm_queue]
  | newText _ _ | newObject _ | newArray _ | newError _ | get _ _ _ | getNamed _ _ _
  | call _ _ _ _ | construct _ _ _ | evaluate _ _ _ _ | readJson _ _ _ | writeJson _ _
  | copyBuffer _ _ | lendBuffer _ _ _ _ => exact runValue_queue
  | keyOfValue _ _ | set _ _ _ _ | has _ _ _ | hasOwn _ _ _ | delete _ _ _ | ownKeys _ _ _
  | isInstance _ _ _ | toInt32 _ _ | toUInt32 _ _ | toInt64 _ _ | toFloat _ _ | toBigInt64 _ _
  | toText _ _ | bufferRegion _ _ | viewInfo _ _ => exact run_queue
  | runJob => exact absurd rfl hrun
  | shutDown => exact absurd rfl hq
  | _ => rfl

theorem tidy_queue {a : q.Reply} : (tidy q a e).queue = e.queue := by
  unfold tidy
  split
  · rfl
  · rfl
  · split <;> rfl

/-- What is put off while a request is answered comes to the end of the line. -/
theorem queue_prefix (q : Request) (e : ScriptEngine) :
    (core q e).2.queue.toList <+: (answer q e).state.queue.toList := by
  let counted := { (core q e).2 with ledger := (core q e).2.ledger.after q (core q e).1 }
  have hstate : (answer q e).state.queue =
      (tidy q (core q e).1 counted).queue ++ (tidy q (core q e).1 counted).machine.jobs := rfl
  rw [hstate, tidy_queue, Array.toList_append]
  exact List.prefix_append _ _

theorem core_runJob_empty (hempty : e.queue.toList = []) :
    core .runJob e = (JobEnd.idle, e) := by
  have hcore : core .runJob e = runJob e := rfl
  rw [hcore, runJob, Array.toList_eq_nil_iff.1 hempty]
  rfl

/-- The foremost piece of work is done, or it fails in its realm, and the others wait. -/
theorem core_runJob {j : RealmId × Job} {js : List (RealmId × Job)}
    (hqueue : e.queue.toList = j :: js) :
    ((core .runJob e).1 = JobEnd.done ∨ (core .runJob e).1 = JobEnd.failed j.1) ∧
      (core .runJob e).2.queue.toList = js := by
  have hcore : core .runJob e = runJob e := rfl
  have hfirst : e.queue[0]? = some j := by
    rw [← Array.getElem?_toList, hqueue]
    rfl
  have hrest : (e.queue.extract 1 e.queue.size).toList = js := by
    rw [Array.toList_extract, hqueue, ← Array.length_toList, hqueue]
    simp
  have hran : (run j.1 (Eval.perform j.2)
      { e with queue := e.queue.extract 1 e.queue.size }).2.queue.toList = js := by
    rw [run_queue]
    exact hrest
  rw [hcore, runJob, hfirst]
  dsimp only
  rcases hresult : run j.1 (Eval.perform j.2)
    { e with queue := e.queue.extract 1 e.queue.size } with ⟨_ | _, e'⟩
  · rw [hresult] at hran
    exact ⟨.inr rfl, hran⟩
  · rw [hresult] at hran
    exact ⟨.inl rfl, hran⟩

/-- The engine of scripts keeps work in a line. -/
theorem queueing : Queueing Prod.fst fun e : ScriptEngine => e.queue.toList where
  idle := by
    rintro e ⟨q, before, he⟩ hempty
    -- An engine that has answered is at rest, so nothing comes to its line now.
    have hrest : e.AtRest := he ▸ answer_atRest q before
    have hanswer := answer_idle hrest (core_runJob_empty hempty) ⟨nofun, nofun⟩ fun _ => rfl
    rw [hanswer]
    exact ⟨rfl, hempty⟩
  works := by
    intro e j js hqueue
    obtain ⟨hreply, hjs⟩ := core_runJob hqueue
    exact ⟨hreply, hjs ▸ queue_prefix .runJob e⟩
  keeps := by
    intro q e hrun hq
    have hprefix := queue_prefix q e
    rwa [core_queue hrun hq] at hprefix

end ScriptEngine

/-! ## Hosts -/

namespace Host

variable {s s' s'' : Host (Recorded σ)} {new new' : History σ} {c : ContextId} {r : RealmId}

theorem InLine.refl : InLine queue s s [] := ⟨rfl, by simp [History.putOff, History.done]⟩

theorem InLine.trans (h : InLine queue s s' new) (h' : InLine queue s' s'' new') :
    InLine queue s s'' (new' ++ new) where
  left := by rw [h'.1, h.1, List.append_assoc]
  right := by
    rw [History.putOff_append, History.done_append, ← List.append_assoc, h.2, List.append_assoc, h'.2,
      List.append_assoc]

/-- The line is kept in any action that does not shut the engine down. -/
def inLine (Q : Queueing realmOf queue) : HostFrame (Recorded σ) where
  rel s s' := (HasAnswered s.engine.engine → HasAnswered s'.engine.engine) ∧
    ∃ new, s'.engine.history = new ++ s.engine.history ∧
      ((∀ x ∈ new, x.request ≠ .shutDown) → InLine queue s s' new)
  refl s := ⟨id, [], rfl, fun _ => .refl⟩
  trans := by
    rintro s s' s'' ⟨hanswered, new, hnew, h⟩ ⟨hanswered', new', hnew', h'⟩
    refine ⟨hanswered' ∘ hanswered, new' ++ new, by rw [hnew', hnew, List.append_assoc],
      fun hq => ?_⟩
    exact (h fun x hx => hq x (List.mem_append_right _ hx)).trans
      (h' fun x hx => hq x (List.mem_append_left _ hx))
  ask q s := by
    obtain ⟨s', hrun, -, hengine, -⟩ := ask_eq q s
    have hhistory : s'.engine.history = [s.engine.exchange q] ++ s.engine.history := by
      rw [hengine]
      rfl
    rw [hrun]
    refine ⟨fun _ => ⟨q, s.engine.engine, by rw [hengine]; rfl⟩, [s.engine.exchange q], hhistory,
      fun hq => ⟨hhistory, ?_⟩⟩
    have hline := (s.engine.exchange q).inLine Q rfl (hq _ (List.mem_singleton_self _))
    rw [hengine]
    unfold History.putOff History.done
    rw [List.reverse_singleton, List.flatMap_singleton, List.filterMap_cons]
    cases hjob : (s.engine.exchange q).job? queue with
    | none =>
        rw [hjob] at hline
        exact hline
    | some j =>
        rw [hjob] at hline
        exact hline
  pin _ _ := ⟨id, [], rfl, fun _ => ⟨rfl, InLine.refl.2⟩⟩
  unpin _ _ := ⟨id, [], rfl, fun _ => ⟨rfl, InLine.refl.2⟩⟩

/-- What is asked in describing does not disturb the line. -/
theorem inLine_of_looked (Q : Queueing realmOf queue) (h : (Host.inLine Q).rel s s')
    (hlooked : s.OnlyLooked s') : ∃ new, InLine queue s s' new ∧ ∀ x ∈ new, x.request.looks := by
  obtain ⟨new, hnew, hlooks⟩ := hlooked
  obtain ⟨-, new', hnew', hline⟩ := h
  obtain rfl : new' = new := List.append_cancel_right (hnew'.symm.trans hnew)
  refine ⟨new', hline fun x hx hq => ?_, hlooks⟩
  have hlook := hlooks x hx
  rw [hq] at hlook
  cases hlook

/-! ### One piece -/

/-- What comes of an attempt to do a piece of work. -/
structure Attempt (queue : σ → List J) (s s' : Host (Recorded σ)) (x : Exchange σ) (reply : JobEnd) :
    Prop where
  asked : ask .runJob s = (.ok reply, s')
  line : InLine queue s s' [x]
  contexts : s'.contexts = s.contexts
  answered : HasAnswered s'.engine.engine
  came : x.jobEnd? = some reply
  after : x.after = s'.engine.engine
  idle : reply = .idle → queue s'.engine.engine = []
  job : reply ≠ .idle → (x.job? queue).isSome

/-- Work is attempted in line. -/
theorem runJob_attempt (Q : Queueing realmOf queue) (hanswered : HasAnswered s.engine.engine) :
    ∃ s' x reply, Attempt queue s s' x reply := by
  obtain ⟨s', hask, hcontexts, hengine, -⟩ := ask_eq .runJob s
  have hanswered' : HasAnswered s'.engine.engine :=
    ⟨.runJob, s.engine.engine, by rw [hengine]; rfl⟩
  have hafter : (s.engine.exchange .runJob).after = s'.engine.engine := by
    rw [hengine]
    rfl
  -- One request was made, and it stands at the end of the history.
  have hline : InLine queue s s' [s.engine.exchange .runJob] := by
    obtain ⟨-, new, hnew, hline⟩ := (Host.inLine Q).ask .runJob s
    rw [hask] at hnew hline
    obtain rfl : new = [s.engine.exchange .runJob] := by
      refine List.append_cancel_right (hnew.symm.trans ?_)
      rw [hengine]
      rfl
    exact hline fun x hx => by rw [List.mem_singleton.1 hx]; exact nofun
  obtain ⟨reply, hreply⟩ : ∃ reply : JobEnd,
    (Engine.answer .runJob s.engine.engine).reply = reply := ⟨_, rfl⟩
  have hcame : (s.engine.exchange .runJob).jobEnd? = some reply := congrArg some hreply
  refine ⟨s', s.engine.exchange .runJob, reply, hask.trans ?_, hline, hcontexts, hanswered', hcame,
    hafter, fun hidle => ?_, fun hbusy => ?_⟩
  · exact congrArg (fun reply : JobEnd => (Except.ok reply, s')) hreply
  · cases hqueue : queue s.engine.engine with
    | nil =>
        rw [← hafter]
        exact (Q.idle _ hanswered hqueue).2
    | cons j js =>
        rcases (Q.works _ j js hqueue).1 with hended | hended
        · cases hidle.symm.trans (hreply.symm.trans hended)
        · cases hidle.symm.trans (hreply.symm.trans hended)
  · cases hqueue : queue s.engine.engine with
    | nil => exact absurd (hreply.symm.trans (Q.idle _ hanswered hqueue).1) hbusy
    | cons j js =>
        have hhead : (queue (s.engine.exchange .runJob).before).head? = some j :=
          congrArg List.head? hqueue
        unfold Exchange.job?
        rw [hcame]
        cases reply with
        | idle => exact absurd rfl hbusy
        | done | failed _ => exact hhead ▸ rfl

section Piece

variable (T : Throwing pending) (hr : (Contexts.entry s.contexts c).realm = some r)
include T hr

/-- What a piece of work threw is taken off the engine, and described in the realm of the context. -/
theorem failedJob_leads (failed : RealmId) :
    ∃ reads result s', failedJob c r failed s = (result, s') ∧
      Leads pending True reads (fun _ => 0) s s' ∧
      (failed = r ∧ (∃ d, result = .error (.failed (.exception d)) ∧
          d.Tells r ((pending s.engine.engine).getD .uninitialized)
            (Engine.answer (.takeException r) s.engine.engine).state reads) ∨
        failed ≠ r ∧ result =
          .error (.failed (.internal "pending job failed in another context"))) := by
  unfold failedJob
  -- In another realm it is taken off the engine and given back without a look at it.
  by_cases hfailed : failed = r
  · obtain ⟨d, reads, s', hrun, hleads, hd⟩ := takeException_leads T hr (T.take_reply r _)
    refine ⟨reads, .error (.failed (.exception d)), s', ?_, hleads, .inl ⟨hfailed, d, rfl, hd⟩⟩
    rw [if_pos (beq_iff_eq.2 hfailed)]
    exact bind_ok hrun
  · obtain ⟨v, hv⟩ : ∃ v : Value,
        (Engine.answer (.takeException failed) s.engine.engine).reply = v := ⟨_, rfl⟩
    obtain ⟨s₁, htake, -, hleads₁⟩ := ask_leads rfl hv fun _ : True => T.take_clears failed _
    obtain ⟨s₂, hrelease, -, hleads₂⟩ := ask_leads (q := .release failed (Ref.ofValue v)) (s := s₁)
      rfl rfl fun hclear => T.throws _ _ hclear rfl
    refine ⟨_, _, s₂, ?_, (hleads₁.trans hleads₂).mono rfl (fun ref => ?_) id, .inr ⟨hfailed, rfl⟩⟩
    · rw [if_neg (by simpa using hfailed)]
      exact (bind_ok htake).trans (bind_ok hrelease)
    · simp only [Request.given, Request.taken, Ref.flatMap_counted_ofValue, List.count_nil]
      omega

/-- Of a piece that failed comes a failure, and the line is as it was. -/
theorem failedJob_worked (Q : Queueing realmOf queue) (hanswered : HasAnswered s.engine.engine)
    {x : Exchange σ} {failed : RealmId} (hcame : x.jobEnd? = some (.failed failed))
    (hafter : x.after = s.engine.engine) :
    ∃ error s' new, failedJob c r failed s = (.error error, s') ∧ InLine queue s s' new ∧
      s'.contexts = s.contexts ∧ HasAnswered s'.engine.engine ∧
      Worked pending queue r s' (new ++ [x]) (.error error) := by
  obtain ⟨reads, result, s', hrun, hleads, hresult⟩ := failedJob_leads T hr failed
  have hrel : (Host.inLine Q).rel s s' := by
    have hwithin : (Host.inLine Q).rel s (failedJob c r failed s).2 :=
      HostFrame.failedJob_within s
    rwa [hrun] at hwithin
  obtain ⟨new, hline, hlooks⟩ := inLine_of_looked Q hrel hleads.looked
  have hidle : History.done queue new = [] ∧ History.failures new = [] :=
    History.idle_of_looks hlooks
  obtain ⟨hdone, hnone⟩ := hidle
  have hfailure : x.failure? = some failed := by
    unfold Exchange.failure?
    rw [hcame]
  -- Describing it is no work, so it is the one failure of the call.
  have hfailures : History.failures (new ++ [x]) = [x] := by
    rw [History.failures_append, hnone]
    simp [History.failures, hfailure]
  have hreads : reads = new.memberReads := by
    have hreads := hleads.reads
    rw [hline.1, History.memberReads_append] at hreads
    exact (List.append_cancel_left hreads).symm
  rcases hresult with ⟨rfl, d, rfl, hd⟩ | ⟨hfailed, rfl⟩
  · refine ⟨_, s', new, hrun, hline, hleads.contexts, hrel.1 hanswered, ?_⟩
    rw [hreads, ← hafter] at hd
    exact .threw rfl hdone hfailures hfailure hd (hleads.clear trivial)
  · refine ⟨_, s', new, hrun, hline, hleads.contexts, hrel.1 hanswered, ?_⟩
    exact .threwElsewhere rfl hdone hfailures hfailure hfailed (hleads.clear trivial)

end Piece

/-! ### One call -/

/-- With one piece more that was done before everything else. -/
theorem Worked.succ {result : Except Stop Nat} {x : Exchange σ} (h : Worked pending queue r s' new result)
    (hjob : (x.job? queue).isSome) (hdone : x.jobEnd? = some .done) :
    Worked pending queue r s' (new ++ [x]) (result.map (1 + ·)) := by
  have hnone : History.failures [x] = [] := by
    simp [History.failures, Exchange.failure?, hdone]
  have hfailures : History.failures (new ++ [x]) = History.failures new := by
    rw [History.failures_append, hnone, List.append_nil]
  -- What comes after in the history is older, so one more piece stands behind all that is told.
  cases h with
  | finished hempty hall =>
      have hcount : (History.done queue (new ++ [x])).length = 1 + (History.done queue new).length := by
        obtain ⟨j, hj⟩ := Option.isSome_iff_exists.1 hjob
        rw [History.done_append, List.length_append]
        simp [History.done, hj]
      have hworked : Worked pending queue r s' (new ++ [x])
          (.ok (History.done queue (new ++ [x])).length) :=
        .finished hempty (hfailures.trans hall)
      rwa [hcount] at hworked
  | @threw y after before d hnew hlast hall hfailed hd hclear =>
      have hnew' : new ++ [x] = after ++ y :: (before ++ [x]) := by
        rw [hnew, List.append_assoc, List.cons_append]
      exact .threw hnew' hlast (hfailures.trans hall) hfailed hd hclear
  | @threwElsewhere y after before r' hnew hlast hall hfailed hr' hclear =>
      have hnew' : new ++ [x] = after ++ y :: (before ++ [x]) := by
        rw [hnew, List.append_assoc, List.cons_append]
      exact .threwElsewhere hnew' hlast (hfailures.trans hall) hfailed hr' hclear

/-- What calls lead to besides their results. -/
structure Proceeds (queue : σ → List J) (s s' : Host (Recorded σ)) (new : History σ) : Prop where
  line : InLine queue s s' new
  contexts : s'.contexts = s.contexts
  answered : HasAnswered s'.engine.engine
  ends : s'.WorkEnds

theorem Proceeds.trans (h : Proceeds queue s s' new) (h' : Proceeds queue s' s'' new') :
    Proceeds queue s s'' (new' ++ new) :=
  ⟨h.line.trans h'.line, h'.contexts.trans h.contexts, h'.answered, h'.ends⟩

/-- With nothing in line no work is done any more. -/
theorem workEnds_of_empty (Q : Queueing realmOf queue) (hanswered : HasAnswered s.engine.engine)
    (hempty : queue s.engine.engine = []) : s.WorkEnds := by
  have hidle : (ask .runJob s).1 = .ok JobEnd.idle := by
    obtain ⟨s', hask, -⟩ := ask_eq .runJob s
    rw [hask]
    exact congrArg (fun reply : JobEnd => Except.ok reply) (Q.idle _ hanswered hempty).1
  refine Acc.intro s fun s' hs' => ?_
  cases hs' with
  | done h =>
      rw [h] at hidle
      cases hidle
  | failed h _ =>
      rw [h] at hidle
      cases hidle

/-- Work comes to an end if the rest of it does. -/
theorem workEnds_of_done (h : (s.engine.exchange .runJob).jobEnd? = some .done)
    (hends : (ask .runJob s).2.WorkEnds) : s.WorkEnds := by
  obtain ⟨s₁, hrun, -⟩ := ask_eq .runJob s
  have hdone : ask .runJob s = (.ok JobEnd.done, s₁) :=
    hrun.trans (congrArg (fun reply : JobEnd => (Except.ok reply, s₁)) (Option.some.inj h))
  refine Acc.intro s fun s' hs' => ?_
  cases hs' with
  | done hask =>
      rwa [hask] at hends
  | failed hask _ => cases hdone.symm.trans hask

theorem workEnds_of_failed {failed : RealmId}
    (h : (s.engine.exchange .runJob).jobEnd? = some (.failed failed))
    (hends : ∀ c realm, (Contexts.entry s.contexts c).realm = some realm →
      (failedJob c realm failed (ask .runJob s).2).2.WorkEnds) : s.WorkEnds := by
  obtain ⟨s₁, hrun, -⟩ := ask_eq .runJob s
  have hfailed : ask .runJob s = (.ok (JobEnd.failed failed), s₁) :=
    hrun.trans (congrArg (fun reply : JobEnd => (Except.ok reply, s₁)) (Option.some.inj h))
  refine Acc.intro s fun s' hs' => ?_
  cases hs' with
  | done hask => cases hfailed.symm.trans hask
  | @failed s₂ c r realm hask hc =>
      have hends := hends c realm hc
      rw [hask] at hends
      cases hfailed.symm.trans hask
      exact hends

theorem answered_ask (q : Request) (s : Host (Recorded σ)) :
    HasAnswered (ask q s).2.engine.engine := by
  obtain ⟨s', hrun, -, hengine, -⟩ := ask_eq q s
  rw [hrun, hengine]
  exact ⟨q, s.engine.engine, rfl⟩

/-- What a call does depends on what comes of the first attempt. -/
theorem runJobs_eq {reply : JobEnd} (h : ask .runJob s = (.ok reply, s')) :
    ∀ count, runJobs c r count s = match reply with
      | .idle => some (.ok count, s')
      | .done => runJobs c r (count + 1) s'
      | .failed r' => some (failedJob c r r' s') := by
  intro count
  cases reply with
  | idle | failed _ =>
      refine untilEnd_of_inr ?_
      simp only [attemptJob, h]
  | done =>
      refine untilEnd_of_inl ?_
      simp only [attemptJob, h]

/-- A call that counts from any number on does the work in line until nothing waits or a piece fails. -/
theorem runJobs_worked (T : Throwing pending) (Q : Queueing realmOf queue) (hends : s.WorkEnds)
    (hanswered : HasAnswered s.engine.engine) (hr : (Contexts.entry s.contexts c).realm = some r) :
    ∃ result s' new,
      (∀ count, runJobs c r count s = some (result.map (count + ·), s')) ∧
      Worked pending queue r s' new result ∧ Proceeds queue s s' new ∧
      (queue s'.engine.engine = [] ∨ Relation.TransGen (fun s' s => Advances s s') s' s) := by
  -- By induction on how the work ends: each piece that is done leads on to a call that is nearer to
  -- it.
  induction hends with
  | intro s hacc ih =>
    obtain ⟨s₁, x, reply, hattempt⟩ := runJob_attempt Q hanswered
    have hr₁ : (Contexts.entry s₁.contexts c).realm = some r := by rw [hattempt.contexts, hr]
    have hstep := runJobs_eq (c := c) (r := r) hattempt.asked
    cases reply with
    | idle =>
        have hempty := hattempt.idle rfl
        have hjob : x.job? queue = none := by
          unfold Exchange.job?
          rw [hattempt.came]
        have hdone : History.done queue [x] = [] := by simp [History.done, hjob]
        have hnone : History.failures [x] = [] := by
          simp [History.failures, Exchange.failure?, hattempt.came]
        have hworked : Worked pending queue r s₁ [x] (.ok (History.done queue [x]).length) :=
          .finished hempty hnone
        rw [hdone] at hworked
        exact ⟨.ok 0, s₁, [x], hstep, hworked, ⟨hattempt.line, hattempt.contexts, hattempt.answered,
          workEnds_of_empty Q hattempt.answered hempty⟩, .inl hempty⟩
    | done =>
        have hadvances : Advances s s₁ := .done hattempt.asked
        obtain ⟨result, s', new, hrun, hworked, hproceeds, hfurther⟩ :=
          ih s₁ hadvances hattempt.answered hr₁
        refine ⟨result.map (1 + ·), s', new ++ [x], fun count => ?_,
          hworked.succ (hattempt.job nofun) hattempt.came,
          ⟨hattempt.line.trans hproceeds.line, hproceeds.contexts.trans hattempt.contexts,
            hproceeds.answered, hproceeds.ends⟩, hfurther.imp_right fun h => h.trans (.single hadvances)⟩
        rw [hstep, hrun]
        cases result with
        | error e => rfl
        | ok n => exact congrArg (fun n => some (Except.ok n, s')) (Nat.add_assoc count 1 n)
    | failed failed =>
        obtain ⟨error, s', new, hrun, hline, hcontexts, hanswered', hworked⟩ :=
          failedJob_worked T hr₁ Q hattempt.answered hattempt.came hattempt.after
        have hadvances : Advances s s' := by
          have hfailed := Advances.failed (c := c) hattempt.asked hr
          rwa [hrun] at hfailed
        refine ⟨.error error, s', new ++ [x], fun count => ?_, hworked, ⟨hattempt.line.trans hline,
          hcontexts.trans hattempt.contexts, hanswered', hacc s' hadvances⟩, .inr (.single hadvances)⟩
        rw [hstep]
        exact congrArg some hrun

theorem runPendingJobs_worked (T : Throwing pending) (Q : Queueing realmOf queue) (hends : s.WorkEnds)
    (hanswered : HasAnswered s.engine.engine) (hr : (Contexts.entry s.contexts c).realm = some r) :
    ∃ result s' new, runPendingJobs c s = (result, s') ∧ Worked pending queue r s' new result ∧
      Proceeds queue s s' new ∧
      (queue s'.engine.engine = [] ∨ Relation.TransGen (fun s' s => Advances s s') s' s) := by
  obtain ⟨result, s', new, hrun, hworked⟩ := runJobs_worked T Q hends hanswered hr
  have hrealm : realmToRun c s = (.ok r, s) := by
    refine (bind_ok (context_ok c s)).trans ?_
    rw [hr]
    rfl
  refine ⟨result, s', new, (bind_ok hrealm).trans ?_, hworked⟩
  have hcount : result.map (0 + ·) = result := by
    cases result with
    | error e => rfl
    | ok n => exact congrArg Except.ok (Nat.zero_add n)
  rw [hrun, hcount]
  rfl

/-! ### One call after the other -/

/-- A call fails if a piece of work failed in it, and then just one did. -/
theorem Worked.failures_length {result : Except Stop Nat}
    (h : Worked pending queue r s' new result) :
    [result].countP (!·.isOk) = (History.failures new).length := by
  cases h with
  | finished _ hnone =>
      rw [hnone]
      rfl
  | threw _ _ hfailures | threwElsewhere _ _ hfailures =>
      rw [hfailures]
      rfl

/-- Calls go on where those before them stopped. -/
theorem workAll_proceeds (T : Throwing pending) (Q : Queueing realmOf queue) (hends : s.WorkEnds)
    (hanswered : HasAnswered s.engine.engine) (cs : List ContextId)
    (hcs : ∀ c ∈ cs, Contexts.isLive s.contexts c) :
    ∃ new, Proceeds queue s (workAll cs s).2 new ∧
      (workAll cs s).1.countP (!·.isOk) = (History.failures new).length := by
  induction cs generalizing s with
  | nil => exact ⟨[], ⟨.refl, rfl, hanswered, hends⟩, rfl⟩
  | cons c cs ih =>
      obtain ⟨r, hr⟩ := Option.isSome_iff_exists.1 (hcs c List.mem_cons_self)
      obtain ⟨result, s', new, hrun, hworked, hproceeds, -⟩ :=
        runPendingJobs_worked T Q hends hanswered hr
      obtain ⟨new', hproceeds', hcount⟩ := ih hproceeds.ends hproceeds.answered fun c hc => by
        rw [hproceeds.contexts]
        exact hcs c (List.mem_cons_of_mem _ hc)
      have hall : workAll (c :: cs) s = (result :: (workAll cs s').1, (workAll cs s').2) := by
        rw [workAll, hrun]
      rw [hall]
      refine ⟨new' ++ new, hproceeds.trans hproceeds', ?_⟩
      rw [List.countP_cons, hcount, History.failures_append, List.length_append,
        ← hworked.failures_length, List.countP_singleton]

/-- However calls follow one another, the line is empty in the end. -/
theorem workAll_empties (T : Throwing pending) (Q : Queueing realmOf queue) (hends : s.WorkEnds)
    (hanswered : HasAnswered s.engine.engine) (cs : Nat → ContextId)
    (hcs : ∀ i, Contexts.isLive s.contexts (cs i)) :
    ∃ n, queue (workAll ((List.range n).map cs) s).2.engine.engine = [] := by
  have hfurther : Acc (Relation.TransGen fun s' s => Advances s s') s := Acc.transGen hends
  induction hfurther generalizing cs with
  | intro s _ ih =>
    obtain ⟨r, hr⟩ := Option.isSome_iff_exists.1 (hcs 0)
    obtain ⟨result, s', new, hrun, -, hproceeds, hnext⟩ :=
      runPendingJobs_worked T Q hends hanswered hr
    have hall : ∀ n, (workAll ((List.range (n + 1)).map cs) s).2 =
        (workAll ((List.range n).map (cs ∘ Nat.succ)) s').2 := by
      intro n
      rw [List.range_succ_eq_map, List.map_cons, List.map_map, workAll, hrun]
    rcases hnext with hempty | hadvances
    · exact ⟨1, by rw [hall]; exact hempty⟩
    · obtain ⟨n, hn⟩ := ih s' hadvances hproceeds.ends hproceeds.answered (cs ∘ Nat.succ) fun i => by
        rw [hproceeds.contexts]
        exact hcs _
      exact ⟨n + 1, by rw [hall]; exact hn⟩

/-- Of work that comes to an end each piece is done once, in line, whatever fails.  After any calls on
live contexts, what was in line and what came to its end since is what was done and what is in line
still, and as many calls have failed as pieces of work.  The next call does work until there is none,
and counts it, or until a piece fails, and then it tells what was thrown if that was in the realm of
its context.  And after enough calls no work is left. -/
theorem work_done_in_line (T : Throwing pending) (Q : Queueing realmOf queue)
    (hanswered : HasAnswered s.engine.engine) (hends : s.WorkEnds) :
    (∀ cs : List ContextId, (∀ c ∈ cs, Contexts.isLive s.contexts c) →
      (∃ new, InLine queue s (workAll cs s).2 new ∧
        (workAll cs s).1.countP (!·.isOk) = (History.failures new).length) ∧
      ∀ c r, (Contexts.entry s.contexts c).realm = some r →
        ∃ result s' new, runPendingJobs c (workAll cs s).2 = (result, s') ∧
          InLine queue (workAll cs s).2 s' new ∧ Worked pending queue r s' new result) ∧
    ∀ cs : Nat → ContextId, (∀ i, Contexts.isLive s.contexts (cs i)) →
      ∃ n, queue (workAll ((List.range n).map cs) s).2.engine.engine = [] := by
  refine ⟨fun cs hcs => ?_, fun cs hcs => workAll_empties T Q hends hanswered cs hcs⟩
  obtain ⟨new, hproceeds, hcount⟩ := workAll_proceeds T Q hends hanswered cs hcs
  refine ⟨⟨new, hproceeds.line, hcount⟩, fun c r hr => ?_⟩
  obtain ⟨result, s', new, hrun, hworked, hnext, -⟩ :=
    runPendingJobs_worked T Q hproceeds.ends hproceeds.answered (c := c) (r := r) (by
      rw [hproceeds.contexts, hr])
  exact ⟨result, s', new, hrun, hnext.line, hworked⟩

/-- A host for whose one context three pieces of work wait, of which the second calls what cannot be
called. -/
def waitingHost : Host ScriptEngine :=
  let quiet : Job := .follow .undefined .undefined .undefined
  let queue := #[(0, quiet), (0, Job.finalize .undefined .undefined), (0, quiet)]
  { engine := (Engine.answer .collect { machine := { realms := #[{}] }, queue }).state
    contexts := (∅ : Contexts).insert 0 { realm := some 0 } }

/-- However the work is done, it is done in line. -/
theorem work_done_in_line_waiting :
    (∃ result s' new, runPendingJobs 0 waitingHost.recorded = (result, s') ∧
      InLine (·.queue.toList) waitingHost.recorded s' new ∧
      Worked ScriptEngine.pending (·.queue.toList) 0 s' new result) ∧
    ∃ n, (workAll ((List.range n).map fun _ => 0) waitingHost.recorded).2.engine.engine.queue.toList =
      [] := by
  have hlive : ∀ c realm, (Contexts.entry waitingHost.contexts c).realm = some realm →
      c = 0 ∧ realm = 0 := by
    intro c realm hc
    rw [waitingHost, Contexts.entry_insert] at hc
    split at hc
    next h => exact ⟨h.symm, (Option.some.inj hc).symm⟩
    next => cases hc
  -- One piece is done, the next fails, the last is done, and then nothing waits.
  have hends : waitingHost.recorded.WorkEnds := by
    refine workEnds_of_done (by decide) (@workEnds_of_failed ScriptEngine _ _ 0 (by decide)
      fun c realm hc => ?_)
    obtain ⟨rfl, rfl⟩ := hlive c realm hc
    refine workEnds_of_done (by decide +kernel) ?_
    exact workEnds_of_empty ScriptEngine.queueing (answered_ask _ _) (by decide +kernel)
  obtain ⟨hcalls, hall⟩ := work_done_in_line ScriptEngine.throwing ScriptEngine.queueing
    (s := waitingHost.recorded) ⟨.collect, _, rfl⟩ hends
  obtain ⟨-, hnext⟩ := hcalls [] nofun
  exact ⟨hnext 0 0 rfl, hall (fun _ => 0) fun _ => rfl⟩

end Host

end ScriptHost
