import ScriptHost.Client.Record
import ScriptHost.Proofs.Frames
import ScriptHost.Proofs.Propagation
import ScriptHost.Proofs.ScriptThrows
/-!
# What becomes of what is thrown

Whatever a client does on a live context, and wherever a script throws meanwhile, nothing is pending
when it is done, and what was thrown comes to the client as the policy of the operation tells.
-/

namespace ScriptHost

open Accounting (bind_ok bind_error context_ok live_ok live_error ask_eq)

variable {σ : Type} [Engine σ] {pending : σ → Option Value}

theorem Policy.exception_allows (q : Request) : Policy.exception.Allows q .exception :=
  fun _ => rfl

theorem Policy.violation_allows (operation : String) (q : Request) :
    (Policy.violation operation).Allows q fun d => .contractViolation operation d.text :=
  fun _ => rfl

namespace Host

open Client
open Policy (exception_allows violation_allows)

variable {X : Contexts} {c : ContextId} {p : Policy} {α β : Type} {r : RealmId} {h : Handle}

/-! ## Operations that leave the table of contexts alone -/

/-- Whether a value is made of nothing but what the engine is asked for anew. -/
def isAllocated : Maker → Bool
  | .bigInt64 _ | .bigUInt64 _ | .string _ | .object | .array => true
  | _ => false

section Settling

variable (T : Throwing pending) (hr : (X.entry c).realm = some r)
include T hr

theorem maker_settles {m : Maker} :
    Settles pending X c m.policy (m.run c : Action (Recorded σ) Handle) fun h =>
      h.value = .exception → m = .exception ∨ isAllocated m := by
  have hexception : ∀ {m : Maker} {x : Action (Recorded σ) Handle},
      Settles pending X c .exception x (Real c) →
        Settles pending X c .exception x fun h =>
          h.value = .exception → m = .exception ∨ isAllocated m :=
    fun hx => hx.mono fun h hh hv => absurd hv hh.2
  -- Makers that read tags throw nothing; the engine may refuse what it allocates; the others run
  -- scripts.
  cases m with
  | null | undefined | uninitialized | bool _ | int32 _ | float _ => exact .pure nofun
  | exception => exact .pure fun _ => .inl rfl
  | uint32 n => exact newUInt32_settles.mono fun h hh hv => absurd hv hh.2
  | int64 n => exact newInt64_settles.mono fun h hh hv => absurd hv hh.2
  | bigInt64 _ | bigUInt64 _ | object | array =>
      exact live_settles.bind fun _ _ =>
        (allocation_settles T rfl).bind fun _ _ => .pure fun _ => .inr rfl
  | string t => exact (newString_settles T).mono fun _ _ _ => .inr rfl
  | bigInt n => exact hexception (eval_settles T fun _ _ _ _ => exception_allows _)
  | symbol => exact hexception (newSymbol_settles T fun _ _ _ _ => exception_allows _)
  | map | set | weakMap | weakSet =>
      exact hexception (newCached_settles T fun _ _ _ => exception_allows _)
  | error message =>
      exact (newError_settles (p := Maker.policy (.error message)) T hr (fun _ _ => rfl)
        fun _ _ _ _ _ => rfl).mono fun h hh hv => absurd hv hh.2
  | arrayBuffer bytes => exact hexception (newArrayBuffer_settles T fun _ _ => exception_allows _)
  | sharedBuffer bytes =>
      exact hexception (newSharedBuffer_settles T (fun _ _ => exception_allows _)
        fun _ _ _ _ => exception_allows _)
  | typedArray kind n => exact hexception (newTypedArray_settles T fun _ _ _ => exception_allows _)
  | typedArrayOf kind bytes =>
      exact hexception (newTypedArrayOf_settles T hr (fun _ _ => exception_allows _)
        fun _ _ _ => exception_allows _)
  | parseJson text => exact hexception (parseJson_settles T fun _ _ _ => exception_allows _)
  | serialize d => exact hexception (serialize_settles T fun _ _ _ => exception_allows _)
  | eval source => exact hexception (eval_settles T fun _ _ _ _ => exception_allows _)
  | evalAsync source => exact hexception (evalAsync_settles T fun _ _ _ _ => exception_allows _)
  | evalWith source file mode =>
      exact hexception (evalWith_settles T fun _ _ _ _ => exception_allows _)

theorem getter_settles {g : Getter} (hc : g.place = c)
    (hreal : ∀ u ∈ g.uses, ∀ h, u.2 = .value h → h.value ≠ .exception) :
    Settles pending X c g.policy (g.run : Action (Recorded σ) Handle) fun h =>
      h.value ≠ .exception := by
  cases g with
  | dupe h =>
      refine (dupe_settles T).mono fun d hd => ?_
      subst hd
      exact hreal _ List.mem_cons_self _ rfl
  | symbolOf d h =>
      cases hc
      exact (newSymbol_settles T fun _ _ _ _ => exception_allows _).mono fun _ hv => hv.2
  | typedArrayOver d kind buffer =>
      cases hc
      exact (newTypedArrayOver_settles T fun _ _ _ => exception_allows _).mono fun _ hv => hv.2
  | keyValue k => exact (keyValue_settles T hc fun _ => exception_allows _).mono fun _ hv => hv.2
  | get h n => exact (get_settles T hr hc fun _ _ => exception_allows _).mono fun _ hv => hv.2
  | call f this args =>
      exact (call_settles T hc fun _ _ _ _ => exception_allows _).mono fun _ hv => hv.2
  | construct f args =>
      exact (construct_settles T hc fun _ _ _ => exception_allows _).mono fun _ hv => hv.2
  | callMethod h name args =>
      exact (callMethod_settles T hr hc (fun _ _ => exception_allows _)
        fun _ _ _ _ => exception_allows _).mono fun _ hv => hv.2
  | callBound b args =>
      exact (callBound_settles T hc fun _ _ _ _ => exception_allows _).mono fun _ hv => hv.2
  | bufferOf h => exact (arrayInfo_settles T hr hc).bind fun _ hi => .pure hi.2

omit hr in
theorem keyMaker_settles {k : KeyMaker} (hc : k.place = c) :
    Settles pending X c k.policy (k.run : Action (Recorded σ) KeyHandle) fun _ => True := by
  cases k with
  | text d t =>
      cases hc
      exact (newKey_settles T).mono fun _ _ => trivial
  | index d n =>
      cases hc
      exact (newIndexKey_settles T).mono fun _ _ => trivial
  | ofValue h => exact toKey_settles T hc fun _ => exception_allows _
  | dupe k => exact dupeKey_settles T

theorem question_settles (hc : h.context = c) {q : Question} :
    Settles pending X c q.policy (q.run h : Action (Recorded σ) Unit) fun _ => True := by
  -- Most questions are one request, and what it throws is taken off at once.
  have hthrown : ∀ {α : Type} {q : RealmId → Request}
      {x : RealmId → Action (Recorded σ) (Option α)},
      (∀ r, Risks pending (q r) (x r) (· = none)) →
        Settles pending X c .exception
          (discard (do Host.orThrow h.context (← x (← Host.live h.context)))) fun _ => True := by
    intro α q x hx
    subst hc
    exact (thrown_settles T (fun r => exception_allows _) hx).discard
  cases q with
  | isError => exact (isError_settles T).discard
  | isFunction => exact (isFunction_settles T).discard
  | isConstructor => exact (isConstructor_settles T).discard
  | typeName => exact (typeName_settles T).discard
  | diagnostic => exact (diagnostic_settles T hr hc).discard
  | record => exact (errorRecord_settles T hr hc).discard
  | isArray | isMap | isSet | isWeakMap | isWeakSet | isArrayBuffer | isTypedArray _ =>
      exact (isCached_settles T hr hc).discard
  | elementKind => exact (elementKind_settles T hr hc).discard
  | length => exact (length_settles T hr hc).discard
  | isEmpty => exact Settles.discard (Q := fun _ => True) ((length_settles T hr hc).bind fun _ _ => .pure trivial)
  | keys =>
      exact (keys_settles (p := Question.policy .keys) T hr hc (fun _ _ => rfl) (fun _ _ _ => rfl)
        fun _ _ _ => rfl).discard
  | toJson =>
      exact (toJson_settles T hr hc (fun _ => exception_allows _)
        fun _ _ => exception_allows _).discard
  | bytes =>
      refine Settles.discard (Q := fun _ => True) ((byteView_settles T hr hc).bind fun v _ => ?_)
      exact (sound_settles T fun _ => rfl).of_quiet
  | toBool => exact (toBool_settles T).discard
  | toInt32 | toUInt32 | toInt64 | toFloat | toBigInt64 | toText =>
      exact hthrown fun r => ask_risks T fun a => Option.isNone_iff_eq_none.1
  | toBigInt => exact (toBigInt_settles T hc fun _ => exception_allows _).discard
  | deserialize schema =>
      exact (deserialize_settles T hr hc (fun _ => exception_allows _)
        fun _ _ => exception_allows _).discard
  | isInstance f => exact (isInstance_settles T hr hc).discard
  | has n => exact (has_settles T hr hc fun _ _ => violation_allows _ _).discard
  | delete n =>
      exact (delete_settles T hr hc (fun _ _ => violation_allows _ _)
        fun _ _ => violation_allows _ _).discard
  | write start data =>
      exact (byteView_settles T hr hc).bind fun _ _ => (sound_settles T fun _ => rfl).of_quiet

omit hr in
theorem item_drop_settles {i : Item} :
    Settles pending X c p (i.drop : Action (Recorded σ) Unit) fun _ => True := by
  cases i with
  | value h => exact drop_settles T
  | key k => exact dropKey_settles T
  | bound b => exact .forM fun h _ => drop_settles T
  | bare r => exact .pure trivial

end Settling

/-- An operation that neither makes nor ends a context and lets nothing wait settles what is thrown.
The values that it yields are no sentinels, unless one was asked for or something new was refused. -/
theorem operation_settles (T : Throwing pending) (hr : (X.entry c).realm = some r) {op : Operation}
    (hplace : op.place? = some c) (hopened : op.opened? = none) (hclosed : op.closed? = none)
    (hdefers : op.defers = false)
    (hreal : ∀ u ∈ op.uses, ∀ h, u.2 = .value h → h.value ≠ .exception) :
    Settles pending X c op.policy (op.run : Action (Recorded σ) Yield) fun y =>
      ∀ h, .value h ∈ y.owned → h.value = .exception →
        ∃ m, op = .make c m ∧ (m = .exception ∨ isAllocated m) := by
  -- An operation that yields no values has only what is thrown to settle.
  have hnothing : ∀ {x : Action (Recorded σ) Unit} {p : Policy},
      Settles pending X c p x (fun _ => True) →
        Settles pending X c p (do x; pure {} : Action (Recorded σ) Yield) fun y =>
          ∀ h, .value h ∈ y.owned → h.value = .exception →
            ∃ m, op = .make c m ∧ (m = .exception ∨ isAllocated m) :=
    fun hx => hx.bind fun _ _ => .pure nofun
  cases op with
  | make d m =>
      cases hplace
      refine (maker_settles T hr).bind fun v hv => .pure fun h hh hexception => ?_
      cases List.mem_singleton.1 hh
      exact ⟨m, rfl, hv hexception⟩
  | get g =>
      refine (getter_settles T hr (Option.some.inj hplace) hreal).bind fun v hv => .pure ?_
      intro h hh hexception
      cases List.mem_singleton.1 hh
      exact absurd hexception hv
  | key k =>
      refine (keyMaker_settles T (Option.some.inj hplace)).bind fun k _ => .pure fun h hh => ?_
      cases List.mem_singleton.1 hh
  | ownKeys h f =>
      refine (ownKeys_settles T (Option.some.inj hplace) fun _ => violation_allows _ _).bind
        fun ks _ => .pure fun h hh => ?_
      obtain ⟨k, -, hk⟩ := List.mem_map.1 hh
      cases hk
  | bind f this leading =>
      refine (bind_settles T).bind fun b _ => .pure fun h hh => ?_
      cases List.mem_singleton.1 hh
  | ask h q => exact hnothing (question_settles T hr (Option.some.inj hplace))
  | keyText k =>
      exact hnothing (keyText_settles T hr (Option.some.inj hplace) (fun _ => exception_allows _)
        fun _ _ => exception_allows _).discard
  | keyDiagnostic k => exact hnothing (keyDiagnostic_settles T hr (Option.some.inj hplace)).discard
  | boundDiagnostic b =>
      exact hnothing (Settles.bind (Q := fun _ => True)
        (R := fun _ => True) (diagnostic_settles T hr (Option.some.inj hplace))
        fun _ _ => .pure trivial).discard
  | set h n v =>
      exact hnothing (set_settles T hr (Option.some.inj hplace) fun _ _ => violation_allows _ _)
  | drop i => exact hnothing (item_drop_settles T)
  | bareValue h => exact .pure fun h hh => by cases List.mem_singleton.1 hh
  | bareKey k => exact .pure fun h hh => by cases List.mem_singleton.1 hh
  | global d =>
      exact Settles.bind (Q := fun _ => True) (Settles.context.bind fun _ _ => .pure trivial)
        fun _ _ => .pure nofun
  | runJobs d =>
      cases hplace
      exact hnothing (runPendingJobs_settles T hr).discard
  | runGc => cases hplace
  | keepToEnd _ | keepKeyToEnd _ => cases hdefers
  | openContext _ | openBare _ _ => cases hopened
  | freeContext _ | dropContext _ => cases hclosed

theorem ask_granted {q : Request} (hq : q.isAllocation) {s s' : Host (Recorded σ)} {a : q.Reply}
    (hrun : Host.ask q s = (.ok a, s')) (hgranted : s'.engine.history.Granted) :
    q.fails a = false := by
  obtain ⟨t, ht, -, hengine, -⟩ := ask_eq q s
  rw [ht] at hrun
  cases hrun
  refine hgranted (s.engine.exchange q) ?_ hq
  rw [hengine]
  exact List.mem_cons_self

omit [Engine σ] in
/-- A value that the engine makes anew in a live context is no sentinel, if it was not refused. -/
theorem given_real {x : RealmId → Action (Recorded σ) Value} {s s' : Host (Recorded σ)} {h : Handle}
    (hx : ∀ r s v s', x r s = (.ok v, s') → s'.engine.history.Granted → v ≠ .exception)
    (hrun : (do pure ⟨c, ← x (← Host.live c)⟩ : Action (Recorded σ) Handle) s = (.ok h, s'))
    (hgranted : s'.engine.history.Granted) : h.value ≠ .exception := by
  cases hr : (Contexts.entry s.contexts c).realm with
  | none =>
      rw [bind_error (live_error hr)] at hrun
      cases hrun
  | some r =>
      rw [bind_ok (live_ok hr)] at hrun
      rcases hxs : x r s with ⟨e | v, t⟩
      · rw [bind_error hxs] at hrun
        cases hrun
      · rw [bind_ok hxs] at hrun
        cases hrun
        exact hx r s v _ hxs hgranted

theorem allocated_real {m : Maker} (hm : isAllocated m) {s s' : Host (Recorded σ)} {h : Handle}
    (hrun : (m.run c : Action (Recorded σ) Handle) s = (.ok h, s'))
    (hgranted : s'.engine.history.Granted) : h.value ≠ .exception := by
  cases m with
  | bigInt64 _ | bigUInt64 _ | string _ | object | array =>
      refine given_real (fun r s v s' hask hgranted hv => ?_) hrun hgranted
      have hfails := ask_granted rfl hask hgranted
      subst hv
      cases hfails
  | _ => cases hm

/-! ## Operations that change the table of contexts -/

/-- An action on which nothing is thrown, whatever it does to contexts. -/
def Calmly (pending : σ → Option Value) (x : Action (Recorded σ) α) : Prop :=
  ∀ s : Host (Recorded σ), pending s.engine.engine = none → s.engine.history.Calm pending →
    pending (x s).2.engine.engine = none ∧ (x s).2.engine.history.Calm pending

theorem Calmly.of_engine {x : Action (Recorded σ) α} (hx : ∀ s, (x s).2.engine = s.engine) :
    Calmly pending x := by
  intro s hclear hcalm
  rw [hx s]
  exact ⟨hclear, hcalm⟩

theorem Calmly.bind {x : Action (Recorded σ) α} {f : α → Action (Recorded σ) β}
    (hx : Calmly pending x) (hf : ∀ a, Calmly pending (f a)) : Calmly pending (x >>= f) := by
  intro s hclear hcalm
  have hfirst := hx s hclear hcalm
  rcases hxs : x s with ⟨e | a, s'⟩
  · rw [hxs] at hfirst
    rw [bind_error hxs]
    exact hfirst
  · rw [hxs] at hfirst
    rw [bind_ok hxs]
    exact hf a s' hfirst.1 hfirst.2

theorem Calmly.forM {l : List β} {f : β → Action (Recorded σ) Unit}
    (hf : ∀ b, Calmly pending (f b)) : Calmly pending (l.forM f) := by
  induction l with
  | nil => exact .of_engine fun _ => rfl
  | cons b l ih => exact (hf b).bind fun _ => ih

theorem report_calmly {e : Event} : Calmly pending (Host.report e : Action (Recorded σ) Unit) :=
  .of_engine fun _ => rfl

theorem context_calmly : Calmly pending (Host.context c : Action (Recorded σ) Context) :=
  .of_engine fun _ => rfl

theorem updateContext_calmly {f : Context → Context} :
    Calmly pending (Host.updateContext c f : Action (Recorded σ) Unit) :=
  .of_engine fun _ => rfl

theorem defer_calmly {ref : Ref} :
    Calmly pending (Host.defer c ref : Action (Recorded σ) Unit) := by
  have hpush : Calmly pending (do
      Host.updateContext c fun x => { x with deferred := x.deferred.push ref }
      Host.report (.releaseDeferred (← Host.pendingReleases c)) : Action (Recorded σ) Unit) :=
    updateContext_calmly.bind fun _ =>
      (context_calmly.bind fun _ => .of_engine fun _ => rfl).bind fun _ => report_calmly
  refine context_calmly.bind fun x => ?_
  dsimp only
  split
  · exact Calmly.bind (.of_engine fun _ => rfl) fun _ => hpush
  · exact hpush

section Closing

variable (T : Throwing pending)
include T

theorem sound_calmly {q : Request} (hq : ∀ a, q.fails a = false) :
    Calmly pending (Host.ask q : Action (Recorded σ) q.Reply) := by
  intro s hclear hcalm
  obtain ⟨s', hrun, -, hengine, -⟩ := ask_eq q s
  have hafter : pending (s.engine.exchange q).after = none := T.throws q _ hclear (hq _)
  rw [hrun, hengine]
  exact ⟨hafter, History.calm_cons.2 ⟨hafter, hcalm⟩⟩

theorem freeContext_calmly :
    Calmly pending (Host.freeContext c : Action (Recorded σ) Unit) := by
  have hdrain : ∀ realm refs, Calmly pending (Host.drain realm refs : Action (Recorded σ) Unit) := by
    intro realm refs
    refine Calmly.bind (.forM fun ref => ?_) fun _ => report_calmly
    cases ref with
    | value v => exact sound_calmly T fun _ => rfl
    | key k => exact sound_calmly T fun _ => rfl
  refine context_calmly.bind fun x => ?_
  cases x.realm with
  | none => exact .of_engine fun _ => rfl
  | some realm =>
      refine updateContext_calmly.bind fun _ => (hdrain _ _).bind fun _ => ?_
      exact (sound_calmly (q := .closeRealm realm) T fun _ => rfl).bind fun _ =>
        updateContext_calmly.bind fun _ => report_calmly

/-- Nothing is thrown when a context is ended or something waits for the end of one. -/
theorem operation_calmly {op : Operation} (hop : op.closed? ≠ none ∨ op.defers) :
    Calmly pending (op.run : Action (Recorded σ) Yield) := by
  cases op with
  | freeContext d => exact (freeContext_calmly T).bind fun _ => .of_engine fun _ => rfl
  | dropContext d =>
      exact ((freeContext_calmly T).bind fun _ => .of_engine fun _ => rfl).bind fun _ =>
        .of_engine fun _ => rfl
  | keepToEnd h =>
      exact (defer_calmly.bind fun _ => .of_engine fun _ => rfl).bind fun _ => .of_engine fun _ => rfl
  | keepKeyToEnd k =>
      exact (defer_calmly.bind fun _ => .of_engine fun _ => rfl).bind fun _ => .of_engine fun _ => rfl
  | _ => simp [Operation.closed?, Operation.defers] at hop

end Closing

/-! ## Questions of what a value is -/

/-- If something is thrown when it is asked whether a value is an instance, it is none. -/
theorem isInstance_no (T : Throwing pending) (hr : (X.entry h.context).realm = some r) {v : Value}
    {s : Host (Recorded σ)} (hX : s.contexts = X) (hclear : pending s.engine.engine = none)
    (hcalm : s.engine.history.Calm pending)
    (hthrown : ¬(Host.isInstance h v s).2.engine.history.Calm pending) :
    (Host.isInstance h v s).1 = .ok false := by
  unfold Host.isInstance at hthrown ⊢
  cases hobject : h.value.isObject && v.isObject with
  | false => rfl
  | true =>
      rw [hobject, if_pos rfl] at hthrown
      rw [if_pos rfl]
      obtain ⟨s', hask, hcontexts, hengine, -⟩ := ask_eq (.isInstance r h.value v) s
      have hlive : (Contexts.entry s.contexts h.context).realm = some r := by rw [hX, hr]
      rw [bind_ok (live_ok hlive), bind_ok hask] at hthrown ⊢
      -- The engine answers with neither yes nor no just if it throws.
      obtain ⟨b, hb⟩ : ∃ b : Option Bool,
        b = (Engine.answer (.isInstance r h.value v) s.engine).reply := ⟨_, rfl⟩
      rw [← hb] at hthrown ⊢
      cases b with
      | none =>
          obtain ⟨u, t, hrun, -⟩ := discardException_sure hr s' (hcontexts.trans hX)
          exact congrArg Prod.fst (bind_ok hrun)
      | some b =>
          refine absurd ?_ hthrown
          have hafter : pending (s.engine.exchange (.isInstance r h.value v)).after = none := by
            refine T.throws _ _ hclear ?_
            exact congrArg Option.isNone hb.symm
          change s'.engine.history.Calm pending
          rw [hengine]
          exact History.calm_cons.2 ⟨hafter, hcalm⟩

theorem test_no (T : Throwing pending) (hr : (X.entry h.context).realm = some r) {q : Question}
    {test : Handle → Action (Recorded σ) Bool} (htest : q.test? = some test)
    {s : Host (Recorded σ)} (hX : s.contexts = X) (hclear : pending s.engine.engine = none)
    (hcalm : s.engine.history.Calm pending) (hgranted : (test h s).2.engine.history.Granted)
    (hthrown : ¬(test h s).2.engine.history.Calm pending) : (test h s).1 = .ok false := by
  have hquiet : Settles pending X h.context .quiet (test h) (fun _ => True) →
      (test h s).1 = .ok false :=
    fun hsettles => absurd ((hsettles s hX).met hclear hgranted hcalm) hthrown
  have hcached : ∀ field : Cache → Value, test h = Host.isCached h field →
      (test h s).1 = .ok false := by
    intro field hfield
    rw [hfield] at hthrown ⊢
    rw [Host.isCached, bind_ok (context_ok _ s)] at hthrown ⊢
    exact isInstance_no T hr hX hclear hcalm hthrown
  cases q <;> cases htest
  case isError => exact hquiet (isError_settles T)
  case isFunction => exact hquiet (isFunction_settles T)
  case isConstructor => exact hquiet (isConstructor_settles T)
  case isInstance => exact isInstance_no T hr hX hclear hcalm hthrown
  all_goals exact hcached _ rfl

end Host

namespace Client

open Host

section Yields

variable {τ α : Type} {x : Action τ α} {f : α → Yield} {s : Host τ}

theorem exists_yield {y : Yield} (hrun : ((do pure (f (← x)) : Action τ Yield) s).1 = .ok y) :
    ∃ a, x s = (.ok a, (x s).2) ∧ f a = y := by
  rcases hxs : x s with ⟨e | a, s'⟩
  · rw [bind_error hxs] at hrun
    cases hrun
  · rw [bind_ok hxs] at hrun
    exact ⟨a, rfl, Except.ok.inj hrun⟩

theorem host_yield : ((do pure (f (← x)) : Action τ Yield) s).2 = (x s).2 := by
  rcases hxs : x s with ⟨e | a, s'⟩
  · rw [bind_error hxs]
  · rw [bind_ok hxs]
    rfl

end Yields

theorem owned_of_changing {op : Operation} (hop : op.closed? ≠ none ∨ op.defers)
    {s : Host (Recorded σ)} {y : Yield} (hrun : (op.run s).1 = .ok y) : y.owned = [] := by
  cases op with
  | freeContext _ | dropContext _ | keepToEnd _ | keepKeyToEnd _ =>
      obtain ⟨a, -, rfl⟩ := exists_yield hrun
      rfl
  | _ => simp [Operation.closed?, Operation.defers] at hop

theorem policy_of_changing {op : Operation} (hop : op.closed? ≠ none ∨ op.defers) :
    op.policy = .quiet := by
  cases op with
  | freeContext _ | dropContext _ | keepToEnd _ | keepKeyToEnd _ => rfl
  | _ => simp [Operation.closed?, Operation.defers] at hop

/-- A value that was made anew is no sentinel, if it was not refused. -/
theorem made_real {c : ContextId} {m : Maker} (hm : isAllocated m) {s : Host (Recorded σ)} {y : Yield}
    {h : Handle} (hrun : ((Operation.make c m).run s).1 = .ok y) (hh : .value h ∈ y.owned)
    (hgranted : ((Operation.make c m).run s).2.engine.history.Granted) : h.value ≠ .exception := by
  obtain ⟨g, hmake, rfl⟩ := exists_yield hrun
  cases List.mem_singleton.1 hh
  refine allocated_real hm hmake ?_
  have hhost : ((Operation.make c m).run s).2 = (m.run c s).2 := host_yield
  rwa [hhost] at hgranted

/-- Asking what a value is and forgetting the answer is asking all the same. -/
theorem host_of_test {h : Handle} {q : Question} {test : Handle → Action (Recorded σ) Bool}
    (htest : q.test? = some test) (s : Host (Recorded σ)) :
    ((Operation.ask h q).run s).2 = (test h s).2 := by
  have hask : q.run h = (discard (test h) : Action (Recorded σ) Unit) := by
    cases q <;> cases htest <;> rfl
  have hhost : ((Operation.ask h q).run s).2 = (q.run h s).2 := host_yield
  rw [hhost, hask]
  rcases hxs : test h s with ⟨e | b, s'⟩
  · exact congrArg Prod.snd (bind_error hxs)
  · exact congrArg Prod.snd (bind_ok hxs)

/-- What engines throw does not get past the operation on which it was thrown.  Whatever an operation
does on a live context of a host with nothing pending, and on whichever request the engine throws, when
the operation ends nothing is pending; the values that it yields are no sentinels, unless one was asked
for; it ends as its policy tells, with the description of what was thrown first; and a question of what
a value is was answered with no if anything was thrown. -/
theorem exceptions_propagate (T : Throwing pending) {s : Host σ} {c : ContextId} {op : Operation}
    (hplace : op.place? = some c) (hlive : Contexts.isLive s.contexts c)
    (hopened : op.opened? = none) (hclear : pending s.engine = none)
    (hreal : ∀ u ∈ op.uses, ∀ h, u.2 = .value h → h.value ≠ .exception)
    (hgranted : (op.run s.recorded).2.engine.history.Granted) :
    let r := op.run s.recorded
    pending r.2.engine.engine = none ∧
      (op ≠ .make c .exception →
        ∀ y, r.1 = .ok y → ∀ h, .value h ∈ y.owned → h.value ≠ .exception) ∧
      op.policy.Met pending c r ∧
      (¬r.2.engine.history.Calm pending → ∀ h q test, op = .ask h q → q.test? = some test →
        (test h s.recorded).1 = .ok false) := by
  intro r
  have hcalm : s.recorded.engine.history.Calm pending := fun x hx => nomatch hx
  obtain ⟨realm, hr⟩ := Option.isSome_iff_exists.1 hlive
  by_cases hchanging : op.closed? ≠ none ∨ op.defers
  · -- Contexts change, and nothing at all is thrown.
    obtain ⟨hend, hstill⟩ := operation_calmly T hchanging s.recorded hclear hcalm
    refine ⟨hend, fun _ y hy h hh => ?_, ?_, fun hthrown => absurd hstill hthrown⟩
    · rw [owned_of_changing hchanging hy] at hh
      cases hh
    · rw [policy_of_changing hchanging]
      exact hstill
  · rw [not_or, not_not, Bool.not_eq_true] at hchanging
    have hmended :=
      operation_settles T hr hplace hopened hchanging.1 hchanging.2 hreal s.recorded rfl
    refine ⟨hmended.clear hclear hgranted, fun hsentinel y hy h hh hv => ?_,
      hmended.met hclear hgranted hcalm, fun hthrown h q test hop htest => ?_⟩
    · -- A sentinel was asked for, or something new was refused, which is granted here.
      obtain ⟨m, rfl, hm⟩ := hmended.good y hy h hh hv
      rcases hm with rfl | hm
      · exact hsentinel rfl
      · exact made_real hm hy hh hgranted hv
    · subst hop
      cases hplace
      have hsame := host_of_test (h := h) htest s.recorded
      rw [hsame] at hgranted
      refine test_no T hr htest rfl hclear hcalm hgranted fun hstill => hthrown ?_
      rwa [← hsame] at hstill

/-- A host with one context, whose engine has made nothing yet. -/
def blankHost : Host ScriptEngine :=
  { engine := {}, contexts := (∅ : Contexts).insert 0 { realm := some 0 } }

/-- A symbol is no number: the engine throws, and this is what the host fails with. -/
theorem exceptions_propagate_symbol :
    let r := (Operation.ask ⟨0, .symbol 0⟩ .toInt32).run blankHost.recorded
    r.2.engine.engine.pending = none ∧ ∃ x d, Host.Caught ScriptEngine.pending 0 r.2 x d ∧
      r.1 = .error (.failed (.exception d)) := by
  intro r
  have hgranted : r.2.engine.history.Granted := by decide +kernel
  have hplace : (Operation.ask ⟨0, .symbol 0⟩ .toInt32).place? = some 0 := rfl
  obtain ⟨hend, -, hmet, -⟩ := exceptions_propagate ScriptEngine.throwing (s := blankHost) hplace
    (by decide) rfl rfl (by simp [Operation.uses, Question.items]) hgranted
  have hraised : r.2.engine.history.any (fun x => x.after.pending.isSome) := by decide +kernel
  have hthrown : ¬r.2.engine.history.Calm ScriptEngine.pending := by
    obtain ⟨x, hx, hsome⟩ := List.any_eq_true.1 hraised
    intro hcalm
    rw [hcalm x hx] at hsome
    cases hsome
  exact ⟨hend, hmet.resolve_left hthrown⟩

end Client

end ScriptHost
