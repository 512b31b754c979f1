import ScriptHost.Client.Thrown
import ScriptHost.Engine.Answer
/-!
# The engine of scripts tells when it throws

Only computations can throw, and one that threw has no result, so whatever is left pending is told by
the reply.  What is done after an answer, counting and freeing, leaves what is pending alone.
-/

namespace ScriptHost

namespace ScriptEngine

variable {α : Type} {realm : RealmId} {e : ScriptEngine}

/-! ## Computations -/

theorem run_pending {x : Eval α} (hx : (run realm x e).1.isNone = false) :
    (run realm x e).2.pending = e.pending := by
  obtain ⟨machine, pending, ledger, queue⟩ := e
  unfold run at hx ⊢
  dsimp only at hx ⊢
  split at hx
  · rfl
  · cases hx

theorem runValue_pending {x : Eval Value} (hx : ((runValue realm x e).1 == .exception) = false) :
    (runValue realm x e).2.pending = e.pending := by
  unfold runValue at hx ⊢
  rcases hrun : run realm x e with ⟨_ | v, e'⟩
  · rw [hrun] at hx
    cases hx
  · have hpending : (run realm x e).2.pending = e.pending := run_pending (by rw [hrun]; rfl)
    rwa [hrun] at hpending

theorem change_pending {x : Mem α} : (change realm x e).2.pending = e.pending := rfl

theorem openRealm_pending {features : List Feature} :
    (openRealm features e).2.pending = e.pending := by
  have hpending : (change 0 (Builtin.newRealm features) e).2.pending = e.pending := change_pending
  unfold openRealm
  generalize change 0 (Builtin.newRealm features) e = made at hpending ⊢
  obtain ⟨r, e'⟩ := made
  dsimp only at hpending ⊢
  rw [← hpending]
  split
  · split <;> rfl
  · rfl

theorem runJob_pending (hx : Request.fails .runJob (runJob e).1 = false) :
    (runJob e).2.pending = e.pending := by
  unfold runJob at hx ⊢
  split at hx
  · rfl
  next realm j hj =>
    have hpending : ∀ e' : ScriptEngine, (run realm (Eval.perform j) e').1.isNone = false →
        (run realm (Eval.perform j) e').2.pending = e'.pending := fun e' => run_pending
    specialize hpending { e with queue := e.queue.extract 1 e.queue.size }
    dsimp only at hpending
    split at hx
    next u e' hrun =>
      rw [hrun] at hpending
      exact hpending rfl
    next => cases hx

/-! ## Answers -/

/-- An answer that is one leaves pending what was so. -/
theorem core_pending {q : Request} (hq : q.fails (core q e).1 = false) (hclear : e.pending = none) :
    (core q e).2.pending = none := by
  cases q with
  | openRealm =>
      have hcore : core .openRealm e = openRealm Feature.all e := rfl
      rw [hcore, openRealm_pending]
      exact hclear
  | openBare features =>
      have hcore : core (.openBare features) e = openRealm features e := rfl
      rw [hcore, openRealm_pending]
      exact hclear
  | closeRealm _ | globalObject _ | retain _ _ | release _ _ | newBig _ _ | keyOfText _ _
  | keyOfIndex _ _ | valueOfKey _ _ | textOfKey _ _ | isError _ _ | isFunction _ _
  | isConstructor _ _ | toBool _ _ | readRegion _ _ _ | writeRegion _ _ _ | collect => exact hclear
  | takeException _ | shutDown => rfl
  | newText _ _ | newObject _ | newArray _ | newError _ | get _ _ _ | getNamed _ _ _
  | call _ _ _ _ | construct _ _ _ | evaluate _ _ _ _ | readJson _ _ _ | writeJson _ _
  | copyBuffer _ _ | lendBuffer _ _ _ _ => exact (runValue_pending hq).trans hclear
  | keyOfValue _ _ | set _ _ _ _ | has _ _ _ | hasOwn _ _ _ | delete _ _ _ | ownKeys _ _ _
  | isInstance _ _ _ | toInt32 _ _ | toUInt32 _ _ | toInt64 _ _ | toFloat _ _ | toBigInt64 _ _
  | toText _ _ | bufferRegion _ _ | viewInfo _ _ => exact (run_pending hq).trans hclear
  | runJob => exact (runJob_pending hq).trans hclear

/-- What a typed array looks at is an object. -/
theorem viewOf_buffer {v : Value} {i : ViewInfo} {interp : Interp} {m m' : Machine}
    (hview : viewOf v interp m = .ok i m') : ∃ id, i.buffer = .object id := by
  unfold viewOf at hview
  change EStateM.bind (Builtin.reachTyped v interp) _ m = _ at hview
  unfold EStateM.bind at hview
  split at hview
  next a m₁ hreach =>
    cases hview
    exact ⟨_, rfl⟩
  next => cases hview

theorem tidy_pending {q : Request} {a : q.Reply} : (tidy q a e).pending = e.pending := by
  unfold tidy
  split
  · rfl
  · rfl
  · split <;> rfl

theorem answer_pending (q : Request) (e : ScriptEngine) :
    (answer q e).state.pending = (core q e).2.pending :=
  tidy_pending

/-- The engine of scripts tells the host when it threw. -/
theorem throwing : Throwing pending where
  take_reply _ _ := rfl
  take_clears _ _ := answer_pending _ _
  throws q e hclear hq := (answer_pending q e).trans (core_pending hq hclear)
  text_calm r e hclear := (answer_pending _ e).trans hclear
  viewed := by
    intro r v e i hi
    have hrun : (run r (viewOf v) e).1 = some i := hi
    obtain ⟨machine, pending, ledger, queue⟩ := e
    unfold run at hrun
    dsimp only at hrun
    split at hrun
    next a m hview =>
      cases hrun
      obtain ⟨id, hbuffer⟩ := viewOf_buffer hview
      rw [hbuffer]
      exact nofun
    next => cases hrun

end ScriptEngine

end ScriptHost
