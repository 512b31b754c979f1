import ScriptHost.Client.Description
import ScriptHost.Host.Scripts
/-!
# Work that waits in line

Engines keep the work that was put off in a line.  What work was done, what failed and what was put
off meanwhile is told from the exchanges, and from them what has to come of having the work done.
-/

namespace ScriptHost

variable {σ J : Type} [Engine σ]

/-! ## Lines -/

/-- An engine that was asked something and has answered. -/
def HasAnswered (e : σ) : Prop := ∃ q before, (Engine.answer q before).state = e

/-- An engine that keeps work in a line: the foremost piece is done when the engine is asked to, and
whatever else it is asked, more work comes to the end of the line and none goes. -/
structure Queueing (realmOf : J → RealmId) (queue : σ → List J) : Prop where
  idle : ∀ e, HasAnswered e → queue e = [] → (Engine.answer .runJob e).reply = JobEnd.idle ∧
    queue (Engine.answer .runJob e).state = []
  works : ∀ e j js, queue e = j :: js →
    ((Engine.answer .runJob e).reply = JobEnd.done ∨
      (Engine.answer .runJob e).reply = JobEnd.failed (realmOf j)) ∧
    js <+: queue (Engine.answer .runJob e).state
  keeps : ∀ q e, q ≠ .runJob → q ≠ .shutDown → queue e <+: queue (Engine.answer q e).state

/-! ## Exchanges -/

namespace Exchange

variable (queue : σ → List J) (x : Exchange σ)

/-- How the attempt to do a piece of work came out, if there was one. -/
def jobEnd? : Option JobEnd :=
  match x with
  | ⟨_, .runJob, reply, _⟩ => some reply
  | _ => none

/-- The realm in which a piece of work failed, if one did. -/
def failure? : Option RealmId :=
  match x.jobEnd? with
  | some (.failed r) => some r
  | _ => none

/-- The piece of work that was done, be it that it failed. -/
def job? : Option J :=
  match x.jobEnd? with
  | some .done | some (.failed _) => (queue x.before).head?
  | some .idle | none => none

/-- The work that came to the end of the line. -/
def putOff : List J := (queue x.after).drop ((queue x.before).length - (x.job? queue).toList.length)

end Exchange

namespace History

variable (queue : σ → List J) (history : History σ)

/-- The work that was done, the first piece first. -/
def done : List J := (history.filterMap (Exchange.job? queue)).reverse

/-- The work that was put off, the first piece first. -/
def putOff : List J := history.reverse.flatMap (Exchange.putOff queue)

/-- The exchanges in which work failed. -/
def failures : History σ := history.filter fun x => x.failure?.isSome

end History

/-! ## Having work done -/

namespace Host

/-- What has to come of having the work done in the realm of a context, given what was asked
meanwhile. -/
inductive Worked (pending : σ → Option Value) (queue : σ → List J) (r : RealmId)
    (s' : Host (Recorded σ)) (new : History σ) : Except Stop Nat → Prop
  /-- Nothing waits any more and nothing failed: the pieces that were done are counted. -/
  | finished (hempty : queue s'.engine.engine = []) (hnone : new.failures = []) :
      Worked pending queue r s' new (.ok (new.done queue).length)
  /-- The last piece failed in this realm, and what it threw is described. -/
  | threw {x : Exchange σ} {after before : History σ} {d : ExceptionRecord}
      (hnew : new = after ++ x :: before) (hlast : after.done queue = [])
      (hfailures : new.failures = [x]) (hfailed : x.failure? = some r)
      (hd : d.Tells r ((pending x.after).getD .uninitialized)
        (Engine.answer (.takeException r) x.after).state after.memberReads)
      (hclear : pending s'.engine.engine = none) :
      Worked pending queue r s' new (.error (.failed (.exception d)))
  /-- The last piece failed in another realm. -/
  | threwElsewhere {x : Exchange σ} {after before : History σ} {r' : RealmId}
      (hnew : new = after ++ x :: before) (hlast : after.done queue = [])
      (hfailures : new.failures = [x]) (hfailed : x.failure? = some r') (hr' : r' ≠ r)
      (hclear : pending s'.engine.engine = none) :
      Worked pending queue r s' new
        (.error (.failed (.internal "pending job failed in another context")))

/-- What waited and what came to the end of the line meanwhile is what was done and what waits. -/
def InLine (queue : σ → List J) (s s' : Host (Recorded σ)) (new : History σ) : Prop :=
  s'.engine.history = new ++ s.engine.history ∧
    queue s.engine.engine ++ new.putOff queue = new.done queue ++ queue s'.engine.engine

/-- Has the work done in some contexts, one after the other; what came of it each time. -/
def workAll : List ContextId → Host σ → List (Except Stop Nat) × Host σ
  | [], s => ([], s)
  | c :: cs, s =>
    let (result, s) := runPendingJobs c s
    let (results, s) := workAll cs s
    (result :: results, s)

/-- What may come next when work is done: the host after a piece that was done, or after one that
failed, once that was dealt with in some live context. -/
inductive Advances (s : Host σ) : Host σ → Prop
  | done {s' : Host σ} (h : ask .runJob s = (.ok JobEnd.done, s')) : Advances s s'
  | failed {s' : Host σ} {c : ContextId} {r realm : RealmId}
      (h : ask .runJob s = (.ok (JobEnd.failed r), s'))
      (hc : (Contexts.entry s.contexts c).realm = some realm) :
      Advances s (failedJob c realm r s').2

/-- Only finitely many pieces of work are ever done. -/
def WorkEnds (s : Host σ) : Prop := Acc (fun s' s => Advances s s') s

end Host

end ScriptHost
