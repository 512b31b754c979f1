import ScriptHost.Proofs.Clients
import ScriptHost.Proofs.Counting
/-!
# No reference dangles

An engine keeps what the host holds references to.  What the host names to an engine is still there
as long as its client uses in live contexts only what belongs to live contexts.  The global object of
a context can be asked for after the context was freed, and the view that one gets then is stale: a
live context that uses it names to the engine what may be gone.
-/

namespace ScriptHost

variable {σ : Type} [Engine σ]

/-- The engine was asked carefully, by a host that holds just these references, and whatever was
named to it was there at the moment. -/
structure Recorded.Watched (freed : σ → Ref → Prop) (engine : σ) (M : Multiset Ref)
    (x : Recorded σ) : Prop where
  balanced : x.Balanced M
  careful : x.history.Careful
  unfreed : ∀ y ∈ x.history, ∀ r ∈ y.uses, ¬freed y.before r
  reached : ∃ qs, .shutDown ∉ qs ∧ x = Recorded.asked ⟨engine, []⟩ qs

namespace Recorded

variable {freed : σ → Ref → Prop} {engine : σ}

/-- What the host holds a reference to is there. -/
theorem Watched.not_freed {x : Recorded σ} {M : Multiset Ref} (hx : x.Watched freed engine M)
    (hkeeps : KeepsHeld freed engine) {r : Ref} (hr : r ∈ M) : ¬freed x.engine r := by
  obtain ⟨qs, hqs, rfl⟩ := hx.reached
  exact hkeeps qs hqs hx.careful r (hx.balanced.held_pos hr)

/-- A host stays watched if it names only what it has references to. -/
theorem Watched.answer {x : Recorded σ} {K : Multiset Ref} {q : Request}
    (hx : x.Watched freed engine (q.taken + K)) (hkeeps : KeepsHeld freed engine)
    (hq : q ≠ .shutDown) (huses : ∀ r ∈ q.uses, r ∈ (q.taken : Multiset Ref) + K) :
    (Engine.answer q x).state.Watched freed engine (q.given (Engine.answer q x).reply + K) where
  balanced := hx.balanced.answer
  careful := ⟨fun r hr => hx.balanced.held_pos (huses r hr), hx.balanced.taken_le, hx.careful⟩
  unfreed := by
    intro y hy
    rcases List.mem_cons.1 hy with rfl | hy
    · intro r hr
      exact hx.not_freed hkeeps (huses r hr)
    · exact hx.unfreed y hy
  reached := by
    obtain ⟨qs, hqs, rfl⟩ := hx.reached
    refine ⟨qs ++ [q], ?_, (asked_concat _ qs q).symm⟩
    simp [hqs, Ne.symm hq]

end Recorded

namespace Accounting

variable {freed : σ → Ref → Prop} {engine : σ}

/-- The accounting by which nothing may be named that the host has no reference to. -/
def watch (hkeeps : Recorded.KeepsHeld freed engine) : Accounting (Recorded σ) where
  books M x _ := x.Watched freed engine M
  exempt _ := False
  ask q hq huses hbooks := by
    refine hbooks.answer hkeeps ?_ fun r hr => (huses r hr).resolve_left id
    rintro rfl
    cases hq

theorem watch_lends (hkeeps : Recorded.KeepsHeld freed engine) : (watch hkeeps).Lends := by
  intro K x p realm bytes _ hbooks
  have hx : x.Watched freed engine ((lendRequest realm bytes p).taken + K) := by
    simpa [lendRequest, Request.taken, watch] using hbooks
  refine hx.answer hkeeps (by simp [lendRequest]) fun r hr => ?_
  simp [lendRequest, Request.uses] at hr

theorem watch_leaks (hkeeps : Recorded.KeepsHeld freed engine) : (watch hkeeps).Leaks :=
  fun _ _ _ _ hbooks => hbooks

end Accounting

namespace Client

/-- If an engine keeps what is held, and in no step something of a freed context is used in a live
one, then everything that was ever named to the engine was there at the moment. -/
theorem named_not_freed {freed : σ → Ref → Prop} {engine : σ}
    (hkeeps : Recorded.KeepsHeld freed engine) (settings : Settings) (ops : List Operation)
    (hops : (start (⟨engine, []⟩ : Recorded σ) settings).runBorrowsLive ops) :
    ∀ x ∈ ((start (⟨engine, []⟩ : Recorded σ) settings).run ops).host.engine.history,
      ∀ r ∈ x.uses, ¬freed x.before r := by
  have hempty : (⟨engine, []⟩ : Recorded σ).Watched freed engine 0 :=
    ⟨fun _ => rfl, trivial, by simp, [], by simp, rfl⟩
  have hstart : (start (⟨engine, []⟩ : Recorded σ) settings).Kept (Accounting.watch hkeeps) :=
    start_kept hempty
  exact (run_kept_of_borrowsLive (Accounting.watch_lends hkeeps) (Accounting.watch_leaks hkeeps)
    hstart hops).books.unfreed

/-- A function of one context is called with the global object of another; both contexts live. -/
def callAcross : List Operation :=
  [.openContext 0, .openContext 1, .make 1 (.eval "(function () { return 7 })"), .global 0,
    .get (.call ⟨1, .object 48⟩ none [⟨0, .object 1⟩])]

theorem named_not_freed_callAcross :
    Recorded.KeepsHeld Counter.Freed {} ∧
      (start (⟨{}, []⟩ : Recorded Counter) {}).runBorrowsLive callAcross ∧
      ∀ x ∈ ((start (⟨{}, []⟩ : Recorded Counter) {}).run callAcross).host.engine.history,
        ∀ r ∈ x.uses, ¬Counter.Freed x.before r := by
  have hops : (start (⟨{}, []⟩ : Recorded Counter) {}).runBorrowsLive callAcross := by
    decide +kernel
  exact ⟨Counter.keepsHeld, hops, named_not_freed Counter.keepsHeld {} callAcross hops⟩

/-- The same, but the other context is freed before it is asked for its global object. -/
def callStale : List Operation :=
  [.openContext 0, .openContext 1, .make 1 (.eval "(function () { return 7 })"), .freeContext 0,
    .global 0, .get (.call ⟨1, .object 48⟩ none [⟨0, .object 1⟩])]

/-- It is not so that whatever a client does, everything that is named to an engine is there. -/
theorem stale_global_named :
    ¬∀ (freed : Counter → Ref → Prop) (engine : Counter) (settings : Settings)
        (ops : List Operation), Recorded.KeepsHeld freed engine →
      ∀ x ∈ ((start (⟨engine, []⟩ : Recorded Counter) settings).run ops).host.engine.history,
        ∀ r ∈ x.uses, ¬freed x.before r := by
  intro h
  have hstale : (((start (⟨{}, []⟩ : Recorded Counter) {}).run callStale).host.engine.history.any
      fun x => x.uses.any fun r => decide (x.before.Freed r)) = true := by
    decide +kernel
  obtain ⟨x, hx, hr⟩ := List.any_eq_true.1 hstale
  obtain ⟨r, hr, hfreed⟩ := List.any_eq_true.1 hr
  exact h Counter.Freed {} {} callStale Counter.keepsHeld x hx r hr (of_decide_eq_true hfreed)

end Client

end ScriptHost
