import ScriptHost.Proofs.Accounting
import ScriptHost.Proofs.Describing
/-!
# How what is thrown comes to the caller

One lemma for each action of the host on a live context: which policies it keeps to.  An action that
puts a request to the engine keeps to every policy that answers for that request, so the lemmas of
larger actions are put together from those of smaller ones.
-/

namespace ScriptHost

variable {σ : Type} [Engine σ] {pending : σ → Option Value}

theorem Value.ofInt_ne_exception (n : Int) : Value.ofInt n ≠ .exception := by
  unfold Value.ofInt
  split <;> exact nofun

namespace Host

variable {X : Contexts} {c : ContextId} {p : Policy} {α : Type} {r : RealmId} {h : Handle}
  {k : KeyHandle} (T : Throwing pending) (hr : (X.entry c).realm = some r)

include T

/-! ## Making values -/

omit T [Engine σ] in
theorem real_ofInt (n : Int) : Real c ⟨c, Value.ofInt n⟩ := ⟨rfl, Value.ofInt_ne_exception n⟩

omit T in
theorem newUInt32_settles {n : UInt32} :
    Settles pending X c p (Host.newUInt32 c n : Action (Recorded σ) Handle) (Real c) := by
  exact live_settles.bind fun _ _ => .pure (real_ofInt _)

omit T in
theorem newInt64_settles {n : Int64} :
    Settles pending X c p (Host.newInt64 c n : Action (Recorded σ) Handle) (Real c) := by
  exact live_settles.bind fun _ _ => .pure (real_ofInt _)

theorem newString_settles {t : String} :
    Settles pending X c p (Host.newString c t : Action (Recorded σ) Handle) fun _ => True :=
  live_settles.bind fun _ _ =>
    (allocation_settles T rfl).of_quiet.bind fun _ _ => .pure trivial

/-! ## Asking what values are -/

theorem isFunction_settles :
    Settles pending X c p (Host.isFunction h : Action (Recorded σ) Bool) fun _ => True := by
  unfold Host.isFunction
  split
  · exact live_settles.bind fun r _ => (sound_settles T fun _ => rfl).of_quiet
  · exact .pure trivial

theorem isConstructor_settles :
    Settles pending X c p (Host.isConstructor h : Action (Recorded σ) Bool) fun _ => True := by
  unfold Host.isConstructor
  split
  · exact live_settles.bind fun r _ => (sound_settles T fun _ => rfl).of_quiet
  · exact .pure trivial

theorem typeName_settles :
    Settles pending X c p (Host.typeName h : Action (Recorded σ) String) fun _ => True := by
  unfold Host.typeName
  split
  all_goals first
    | exact .pure trivial
    | exact (isFunction_settles T).bind fun _ _ => .pure trivial

/-- Only of an object it can be true that it is an instance. -/
theorem isInstance_settles (hr : (X.entry c).realm = some r) (hc : h.context = c) {v : Value} :
    Settles pending X c .lenient (Host.isInstance h v : Action (Recorded σ) Bool)
      fun b => b = true → h.value.isObject := by
  subst hc
  unfold Host.isInstance
  split
  next hobject =>
    have hobject := (Bool.and_eq_true_iff.1 hobject).1
    refine live_settles.bind fun _ _ => ?_
    refine Risks.bind (ask_risks T fun b => Option.isNone_iff_eq_none.1) (fun b hb => ?_) fun b hb => ?_
    · cases b with
      | none => exact absurd rfl hb
      | some b => exact .pure fun _ => hobject
    · subst hb
      exact (discardException_mends T hr).bind fun _ _ => .pure nofun
  · exact .pure nofun

/-! ## Converting values -/

theorem toBool_settles :
    Settles pending X c p (Host.toBool h : Action (Recorded σ) Bool) fun _ => True :=
  live_settles.bind fun _ _ => (sound_settles T fun _ => rfl).of_quiet

theorem toInt64_settles (hc : h.context = c) (hp : ∀ r, p.Allows (.toInt64 r h.value) .exception) :
    Settles pending X c p (Host.toInt64 h : Action (Recorded σ) Int64) fun _ => True := by
  subst hc
  exact thrown_settles T hp fun r => ask_risks T fun a => Option.isNone_iff_eq_none.1

theorem toText_settles (hc : h.context = c) (hp : ∀ r, p.Allows (.toText r h.value) .exception) :
    Settles pending X c p (Host.toText h : Action (Recorded σ) String) fun _ => True := by
  subst hc
  exact thrown_settles T hp fun r => ask_risks T fun a => Option.isNone_iff_eq_none.1

omit T [Engine σ] in
theorem readDecimal_settles [Engine σ] {t : String} :
    Settles pending X c p (Host.readDecimal t : Action (Recorded σ) Int) fun _ => True := by
  unfold Host.readDecimal
  split
  · exact .pure trivial
  · exact .fail

theorem toBigInt_settles (hc : h.context = c) (hp : ∀ r, p.Allows (.toText r h.value) .exception) :
    Settles pending X c p (Host.toBigInt h : Action (Recorded σ) Int) fun _ => True := by
  unfold Host.toBigInt
  have hread : Settles pending X c p (do Host.readDecimal (← Host.toText h) : Action (Recorded σ) Int)
      fun _ => True := (toText_settles T hc hp).bind fun _ _ => readDecimal_settles
  split
  · exact (typeName_settles T).bind fun _ _ => Settles.fail.bind (Q := fun _ => True) fun _ _ => hread
  · exact hread

theorem diagnostic_settles (hr : (X.entry c).realm = some r) (hc : h.context = c) :
    Settles pending X c .lenient (Host.diagnostic h : Action (Recorded σ) String) fun _ => True := by
  unfold Host.diagnostic
  split
  all_goals first
    | exact (textLossy_settles T hr hc).bind fun _ _ => .pure trivial
    | exact (typeName_settles T).bind fun _ _ => .pure trivial

/-! ## Keys -/

theorem newKey_settles {t : String} :
    Settles pending X c p (Host.newKey c t : Action (Recorded σ) KeyHandle) (·.context = c) :=
  live_settles.bind fun _ _ => (allocation_settles T rfl).of_quiet.bind fun _ _ => .pure rfl

theorem newIndexKey_settles {n : UInt32} :
    Settles pending X c p (Host.newIndexKey c n : Action (Recorded σ) KeyHandle) (·.context = c) :=
  live_settles.bind fun _ _ => (allocation_settles T rfl).of_quiet.bind fun _ _ => .pure rfl

theorem toKey_settles (hc : h.context = c) (hp : ∀ r, p.Allows (.keyOfValue r h.value) .exception) :
    Settles pending X c p (Host.toKey h : Action (Recorded σ) KeyHandle) fun _ => True := by
  subst hc
  exact thrown_bind T hp (fun r => ask_risks T fun a => Option.isNone_iff_eq_none.1)
    fun _ => .pure trivial

theorem keyValue_settles (hc : k.context = c) (hp : ∀ r, p.Allows (.valueOfKey r k.key) .exception) :
    Settles pending X c p (Host.keyValue k : Action (Recorded σ) Handle) (Real c) := by
  subst hc
  unfold Host.keyValue
  cases k.key.handleIndex? with
  | some n => exact newUInt32_settles
  | none => exact checked_settles T hp fun r => ask_risks T fun v => eq_of_beq

theorem keyText_settles (hr : (X.entry c).realm = some r) (hc : k.context = c)
    (hp : ∀ r, p.Allows (.textOfKey r k.key) .exception)
    (htext : ∀ r v, p.Allows (.toText r v) .exception) :
    Settles pending X c p (Host.keyText k : Action (Recorded σ) String) fun _ => True := by
  subst hc
  refine checked_bind T hp (fun r => ask_risks T fun v => eq_of_beq) fun v hv => ?_
  exact holding_settles T hr hv.1 (toText_settles T hv.1 fun r => htext r _)

theorem keyDiagnostic_settles (hr : (X.entry c).realm = some r) (hc : k.context = c) :
    Settles pending X c .lenient (Host.keyDiagnostic k : Action (Recorded σ) String)
      fun _ => True := by
  have htext : Settles pending X c .lenient (Host.keyText k : Action (Recorded σ) String)
      fun _ => True := keyText_settles T hr hc (fun _ => trivial) fun _ _ => trivial
  refine Settles.bind (Q := fun _ => True) (.tryCatch (htext.bind fun _ _ => .pure trivial) ?_)
    fun _ _ => .pure trivial
  intro e
  cases e with
  | failed e => exact .pure trivial
  | panicked e => exact .stop

/-! ## Properties -/

theorem requireObject_settles {operation : String} :
    Settles pending X c p (Host.requireObject operation h : Action (Recorded σ) Unit)
      fun _ => True := by
  unfold Host.requireObject
  split
  · exact (typeName_settles T).bind fun _ _ => .fail
  · exact .pure trivial

theorem indexKey_settles (hc : h.context = c) {i : Int} :
    Settles pending X c p (Host.indexKey h i : Action (Recorded σ) KeyHandle) (·.context = c) := by
  subst hc
  unfold Host.indexKey
  split
  · exact newIndexKey_settles T
  · exact .fail

theorem withKey_settles (hr : (X.entry c).realm = some r) (hc : h.context = c) {n : PropertyName}
    {x : Key → Action (Recorded σ) α} {Q : α → Prop}
    (hx : ∀ k, Settles pending X c p (x k) Q) : Settles pending X c p (Host.withKey h n x) Q := by
  cases n with
  | text t =>
      subst hc
      exact (newKey_settles T).bind fun k hk => holdingKey_settles T hr hk (hx k.key)
  | index i => exact (indexKey_settles T hc).bind fun k hk => holdingKey_settles T hr hk (hx k.key)
  | key k => exact hx k.key

theorem getKey_settles (hc : h.context = c) {k : Key}
    (hp : ∀ r, p.Allows (.get r h.value k) .exception) :
    Settles pending X c p (Host.getKey h k : Action (Recorded σ) Handle) (Real c) := by
  subst hc
  exact checked_settles T hp fun r => ask_risks T fun v => eq_of_beq

/-- Before the value that is written goes to the engine nothing can be thrown, so it may be given
back in whatever context it is of. -/
theorem setKey_settles (hc : h.context = c) {k : Key} {v : Handle}
    (hp : ∀ r, p.Allows (.set r h.value k v.value) fun d => .contractViolation "set_atom" d.text) :
    Settles pending X c p (Host.setKey h k v : Action (Recorded σ) Unit) fun _ => True := by
  subst hc
  have hbegin : Settles pending X h.context .quiet (do
      Host.requireObject "set_atom" h
      Host.live h.context : Action (Recorded σ) RealmId)
      fun r => (X.entry h.context).realm = some r :=
    (requireObject_settles T).bind fun _ _ => live_settles
  refine (hbegin.giving (drop_settles T) (.inl rfl)).of_quiet.bind fun r hr => ?_
  refine Risks.bind (ask_risks T fun b => Option.isNone_iff_eq_none.1) (fun b hb => ?_) fun b hb => ?_
  · cases b with
    | none => exact absurd rfl hb
    | some b => exact .pure trivial
  · subst hb
    exact (fail_mends (Q := fun _ => True) T hr (hp r)).bind fun _ _ => .pure trivial

theorem hasKey_settles (hc : h.context = c) {k : Key}
    (hp : ∀ r, p.Allows (.has r h.value k) fun d => .contractViolation "has_atom" d.text) :
    Settles pending X c p (Host.hasKey h k : Action (Recorded σ) Bool) fun _ => True := by
  subst hc
  refine (requireObject_settles T).bind fun _ _ => ?_
  exact violated_settles T hp fun r => ask_risks T fun b => Option.isNone_iff_eq_none.1

theorem deleteKey_settles (hc : h.context = c) {k : Key}
    (hp : ∀ r, p.Allows (.hasOwn r h.value k) fun d => .contractViolation "delete_atom" d.text)
    (hdelete : ∀ r, p.Allows (.delete r h.value k) fun d =>
      .contractViolation "delete_atom" d.text) :
    Settles pending X c p (Host.deleteKey h k : Action (Recorded σ) Bool) fun _ => True := by
  subst hc
  refine (requireObject_settles T).bind fun _ _ => ?_
  refine violated_bind (S := fun _ => True) T hp
    (fun r => ask_risks T fun b => Option.isNone_iff_eq_none.1) (fun _ _ _ _ _ => trivial)
    fun b _ => ?_
  split
  · exact violated_settles T hdelete fun r => ask_risks T fun b => Option.isNone_iff_eq_none.1
  · exact .pure trivial

theorem get_settles (hr : (X.entry c).realm = some r) (hc : h.context = c) {n : PropertyName}
    (hp : ∀ r k, p.Allows (.get r h.value k) .exception) :
    Settles pending X c p (Host.get h n : Action (Recorded σ) Handle) (Real c) :=
  withKey_settles T hr hc fun k => getKey_settles T hc fun r => hp r k

theorem set_settles (hr : (X.entry c).realm = some r) (hc : h.context = c) {n : PropertyName}
    {v : Handle} (hp : ∀ r k, p.Allows (.set r h.value k v.value) fun d =>
      .contractViolation "set_atom" d.text) :
    Settles pending X c p (Host.set h n v : Action (Recorded σ) Unit) fun _ => True := by
  have hkey : ∀ k, Settles pending X c p (Host.setKey h k v : Action (Recorded σ) Unit)
      fun _ => True := fun k => setKey_settles T hc fun r => hp r k
  cases n with
  | text t =>
      subst hc
      refine ((newKey_settles T).giving (drop_settles T) (.inl rfl)).of_quiet.bind fun k hk => ?_
      exact holdingKey_settles T hr hk (hkey k.key)
  | index i =>
      refine ((indexKey_settles T hc).giving (drop_settles T) (.inl rfl)).of_quiet.bind fun k hk => ?_
      exact holdingKey_settles T hr hk (hkey k.key)
  | key k => exact hkey k.key

theorem has_settles (hr : (X.entry c).realm = some r) (hc : h.context = c) {n : PropertyName}
    (hp : ∀ r k, p.Allows (.has r h.value k) fun d => .contractViolation "has_atom" d.text) :
    Settles pending X c p (Host.has h n : Action (Recorded σ) Bool) fun _ => True :=
  withKey_settles T hr hc fun k => hasKey_settles T hc fun r => hp r k

theorem delete_settles (hr : (X.entry c).realm = some r) (hc : h.context = c) {n : PropertyName}
    (hp : ∀ r k, p.Allows (.hasOwn r h.value k) fun d => .contractViolation "delete_atom" d.text)
    (hdelete : ∀ r k, p.Allows (.delete r h.value k) fun d =>
      .contractViolation "delete_atom" d.text) :
    Settles pending X c p (Host.delete h n : Action (Recorded σ) Bool) fun _ => True :=
  withKey_settles T hr hc fun k =>
    deleteKey_settles T hc (fun r => hp r k) fun r => hdelete r k

theorem ownKeys_settles (hc : h.context = c) {f : KeyFilter}
    (hp : ∀ r, p.Allows (.ownKeys r h.value f) fun d =>
      .contractViolation "own_property_names" d.text) :
    Settles pending X c p (Host.ownKeys h f : Action (Recorded σ) (List KeyHandle))
      fun ks => ∀ k ∈ ks, k.context = c := by
  subst hc
  refine (requireObject_settles T).bind fun _ _ => ?_
  refine violated_bind (S := fun _ => True) T hp
    (fun r => ask_risks T fun b => Option.isNone_iff_eq_none.1) (fun _ _ _ _ _ => trivial)
    fun ks _ => .pure ?_
  intro k hk
  obtain ⟨key, -, rfl⟩ := List.mem_map.1 hk
  rfl

theorem keys_settles (hr : (X.entry c).realm = some r) (hc : h.context = c)
    (hp : ∀ r, p.Allows (.ownKeys r h.value .enumerableStrings) fun d =>
      .contractViolation "own_property_names" d.text)
    (hkey : ∀ r k, p.Allows (.textOfKey r k) .exception)
    (htext : ∀ r v, p.Allows (.toText r v) .exception) :
    Settles pending X c p (Host.keys h : Action (Recorded σ) (List String)) fun _ => True := by
  refine (ownKeys_settles T hc hp).bind fun ks hks => ?_
  refine Settles.ensuring (.mapM fun k hk => ?_) (.forM fun k _ => dropKey_settles T)
    (.forM fun k hk => dropKey_sure hr (hks k hk))
  exact keyText_settles T hr (hks k hk) (fun r => hkey r _) htext

/-! ## Calls -/

variable {args : List Handle} {b : BoundFunction}

theorem invoke_settles (hc : h.context = c) {this : Value} {vs : ArgBuffer}
    (hp : ∀ r, p.Allows (.call r h.value this vs.passed) .exception) :
    Settles pending X c p (Host.invoke h this vs : Action (Recorded σ) Handle) (Real c) := by
  subst hc
  exact checked_settles T hp fun r => ask_risks T fun v => eq_of_beq

theorem call_settles (hc : h.context = c) {this : Option Handle}
    (hp : ∀ r f v vs, p.Allows (.call r f v vs) .exception) :
    Settles pending X c p (Host.call h this args : Action (Recorded σ) Handle) (Real c) :=
  invoke_settles T hc fun r => hp r _ _ _

theorem construct_settles (hc : h.context = c)
    (hp : ∀ r f vs, p.Allows (.construct r f vs) .exception) :
    Settles pending X c p (Host.construct h args : Action (Recorded σ) Handle) (Real c) := by
  subst hc
  exact checked_settles T (fun r => hp r _ _) fun _ => ask_risks T fun _ => eq_of_beq

theorem callMethod_settles (hr : (X.entry c).realm = some r) (hc : h.context = c) {name : String}
    (hget : ∀ r k, p.Allows (.get r h.value k) .exception)
    (hcall : ∀ r f v vs, p.Allows (.call r f v vs) .exception) :
    Settles pending X c p (Host.callMethod h name args : Action (Recorded σ) Handle) (Real c) :=
  (get_settles T hr hc hget).bind fun _ hf => holding_settles T hr hf.1 (call_settles T hf.1 hcall)

theorem dupe_settles :
    Settles pending X c p (Host.dupe h : Action (Recorded σ) Handle) (· = h) :=
  live_settles.bind fun _ _ => (sound_settles T fun _ => rfl).of_quiet.bind fun _ _ => .pure rfl

theorem dupeKey_settles :
    Settles pending X c p (Host.dupeKey k : Action (Recorded σ) KeyHandle) fun _ => True :=
  live_settles.bind fun _ _ => (sound_settles T fun _ => rfl).of_quiet.bind fun _ _ => .pure trivial

theorem dupeEach_settles :
    Settles pending X c .quiet (Host.dupeEach args : Action (Recorded σ) (List Handle))
      fun _ => True := by
  induction args with
  | nil => exact .pure trivial
  | cons h hs ih =>
      refine (dupe_settles T).bind fun d _ => ?_
      exact (ih.giving (drop_settles T) (.inl rfl)).bind fun ds _ => .pure trivial

theorem bind_settles {this : Option Handle} :
    Settles pending X c .quiet (Host.bind h this args : Action (Recorded σ) BoundFunction)
      fun _ => True := by
  refine (dupeEach_settles T).bind fun ds _ => ?_
  split <;> exact .pure trivial

theorem callBound_settles (hc : b.func.context = c)
    (hp : ∀ r f v vs, p.Allows (.call r f v vs) .exception) :
    Settles pending X c p (Host.callBound b args : Action (Recorded σ) Handle) (Real c) :=
  invoke_settles T hc fun r => hp r _ _ _

theorem newSymbol_settles {description : Option Handle}
    (hp : ∀ r f v vs, p.Allows (.call r f v vs) .exception) :
    Settles pending X c p (Host.newSymbol c description : Action (Recorded σ) Handle) (Real c) :=
  Settles.context.bind fun x _ => call_settles (h := ⟨c, x.cache.symbol⟩) T rfl hp

/-- The message of a new error is made before it is written, and neither can leave the error behind. -/
theorem newError_settles (hr : (X.entry c).realm = some r) {message : String}
    (hnew : ∀ r, p.Allows (.newError r) .exception)
    (hset : ∀ r t k v, p.Allows (.set r t k v) fun d => .contractViolation "set_atom" d.text) :
    Settles pending X c p (Host.newError c message : Action (Recorded σ) Handle) (Real c) := by
  refine checked_bind T hnew (fun r => ask_risks T fun v => eq_of_beq) fun e he => ?_
  refine Settles.giving ?_ (drop_settles T) (.inr (drop_sure hr he.1))
  refine (newString_settles T).bind fun m _ => ?_
  exact (set_settles T hr he.1 fun r k => hset r _ k _).bind fun _ _ => .pure he

/-! ## Collections -/

theorem newCached_settles {field : Cache → Value}
    (hp : ∀ r f vs, p.Allows (.construct r f vs) .exception) :
    Settles pending X c p (Host.newCached c field : Action (Recorded σ) Handle) (Real c) :=
  Settles.context.bind fun _ _ => construct_settles T rfl hp

section Asking

variable (hr : (X.entry c).realm = some r) (hc : h.context = c)
include hr hc

theorem isCached_settles {field : Cache → Value} :
    Settles pending X c .lenient (Host.isCached h field : Action (Recorded σ) Bool)
      fun b => b = true → h.value.isObject :=
  Settles.context.bind fun _ _ => isInstance_settles T hr hc

theorem elementKind_settles :
    Settles pending X c .lenient (Host.elementKind? h : Action (Recorded σ) (Option ElementKind))
      fun _ => True := by
  have hfirst : ∀ ks, Settles pending X c .lenient
      (Host.firstKind (Host.isTypedArray h) ks : Action (Recorded σ) (Option ElementKind))
      fun _ => True := by
    intro ks
    induction ks with
    | nil => exact .pure trivial
    | cons kind ks ih =>
        refine (isCached_settles T hr hc).bind fun b _ => ?_
        cases b with
        | true => exact .pure trivial
        | false => exact ih
  unfold Host.elementKind?
  split
  · exact hfirst _
  · exact .pure trivial

/-- One question after another, until one is answered with yes. -/
theorem sizeKey_settles :
    Settles pending X c .lenient (Host.sizeKey? h : Action (Recorded σ) (Option Key))
      fun _ => True := by
  have hask : ∀ {field : Cache → Value} {key : Option Key} {x : Action (Recorded σ) (Option Key)},
      Settles pending X c .lenient x (fun _ => True) →
        Settles pending X c .lenient (do if ← Host.isCached h field then pure key else x)
          fun _ => True := by
    intro field key x hx
    refine (isCached_settles T hr hc).bind fun b _ => ?_
    cases b with
    | true => exact .pure trivial
    | false => exact hx
  refine Settles.context.bind fun x _ => hask ((elementKind_settles T hr hc).bind fun kind _ => ?_)
  split
  · exact .pure trivial
  · exact hask (hask (hask (.pure trivial)))

theorem length_settles :
    Settles pending X c .lenient (Host.length h : Action (Recorded σ) Nat) fun _ => True := by
  refine (sizeKey_settles T hr hc).bind fun key _ => ?_
  cases key with
  | none => exact (typeName_settles T).bind fun _ _ => .fail
  | some key =>
      refine (getKey_settles (p := .lenient) T hc fun _ => trivial).bind fun v hv => ?_
      refine (holding_settles (p := .lenient) T hr hv.1
        (toInt64_settles T hv.1 fun _ => trivial)).bind fun n _ => ?_
      split
      · exact .pure trivial
      · exact .fail

end Asking

/-! ## Scripts -/

omit T in
theorem realmToRun_settles :
    Settles pending X c p (Host.realmToRun c : Action (Recorded σ) RealmId) fun r =>
      (X.entry c).realm = some r := by
  refine Settles.context.bind fun x hx => ?_
  subst hx
  cases hr : (X.entry c).realm with
  | some r => exact .pure rfl
  | none => exact .fail

theorem evalWith_settles {source file : String} {mode : EvalMode}
    (hp : ∀ r source file mode, p.Allows (.evaluate r source file mode) .exception) :
    Settles pending X c p (Host.evalWith c source file mode : Action (Recorded σ) Handle)
      (Real c) := by
  refine realmToRun_settles.bind fun r hr => ?_
  cases Host.zeroByte? file with
  | some i => exact .fail
  | none =>
      refine Risks.bind (ask_risks T fun v => eq_of_beq) (fun v hv => check_settles hv) fun v hv => ?_
      subst hv
      exact fail_mends T hr (hp _ _ _ _)

theorem eval_settles {source : String}
    (hp : ∀ r source file mode, p.Allows (.evaluate r source file mode) .exception) :
    Settles pending X c p (Host.eval c source : Action (Recorded σ) Handle) (Real c) :=
  Settles.read.bind fun _ _ => evalWith_settles T hp

theorem evalAsync_settles {source : String}
    (hp : ∀ r source file mode, p.Allows (.evaluate r source file mode) .exception) :
    Settles pending X c p (Host.evalAsync c source : Action (Recorded σ) Handle) (Real c) :=
  Settles.read.bind fun _ _ => evalWith_settles T hp

/-- What a piece of waiting work threw is taken off the engine, in whatever realm that was. -/
theorem runJobsUpTo_settles (hr : (X.entry c).realm = some r) {realm : RealmId}
    (bound count : Nat) : Settles pending X c .lenient
      (Host.runJobsUpTo c realm bound count : Action (Recorded σ) Nat) fun _ => True := by
  induction bound generalizing count with
  | zero => exact .pure trivial
  | succ bound ih =>
      refine Risks.bind (x := Host.ask .runJob) (B := fun e => ∃ r, e = .failed r)
        (ask_risks T fun e he => ?_) (fun e he => ?_) fun e he => ?_
      · cases e with
        | idle | done => cases he
        | failed r => exact ⟨r, rfl⟩
      · cases e with
        | idle => exact .pure trivial
        | done => exact ih _
        | failed r => exact absurd ⟨r, rfl⟩ he
      · obtain ⟨r', rfl⟩ := he
        dsimp only
        unfold Host.failedJob
        split
        · exact fail_mends T hr trivial
        · exact (take_mends T r').bind fun v _ =>
            (sound_settles T fun _ => rfl).of_quiet.bind fun _ _ => .fail

theorem runPendingJobs_settles (hr : (X.entry c).realm = some r) :
    Settles pending X c .lenient (Host.runPendingJobs c : Action (Recorded σ) Nat) fun _ => True := by
  intro s
  obtain ⟨bound, hbound⟩ := Host.runPendingJobs_eq c s
  rw [hbound]
  exact (realmToRun_settles.bind fun _ _ => runJobsUpTo_settles T hr _ _) s

/-! ## Buffers -/

theorem newArrayBuffer_settles {bytes : ByteArray}
    (hp : ∀ r bytes, p.Allows (.copyBuffer r bytes) .exception) :
    Settles pending X c p (Host.newArrayBuffer c bytes : Action (Recorded σ) Handle) (Real c) :=
  checked_settles T (fun r => hp r bytes) fun _ => ask_risks T fun _ => eq_of_beq

omit T in
theorem pin_settles {n : Nat} :
    Settles pending X c p (Host.pin n : Action (Recorded σ) (Nat × Token)) fun _ => True := by
  intro s hX
  exact ⟨hX, List.suffix_rfl, fun _ _ => trivial, fun hclear _ => hclear,
    fun _ _ hcalm => met_of_calm hcalm⟩

theorem newSharedBuffer_settles {bytes : ByteArray}
    (hcopy : ∀ r bytes, p.Allows (.copyBuffer r bytes) .exception)
    (hlend : ∀ r bytes n t, p.Allows (.lendBuffer r bytes n t) .exception) :
    Settles pending X c p (Host.newSharedBuffer c bytes : Action (Recorded σ) Handle) (Real c) := by
  unfold Host.newSharedBuffer
  split
  · exact newArrayBuffer_settles T hcopy
  · refine pin_settles.bind fun lent _ => live_settles.bind fun r hr => ?_
    refine Risks.bind (ask_risks T fun v => eq_of_beq) (fun v hv => ?_) fun v hv => ?_
    · rw [if_neg (by simpa using hv)]
      exact check_settles hv
    · subst hv
      -- The memory is unpinned while what was thrown is still pending.
      intro s y old hX hengine hq
      exact fail_mends T hr (hlend _ _ _ _) { s with pins := s.pins.giveBack lent.2 } y old hX hengine
        hq

omit T [Engine σ] in
theorem arrayConstructor_settles [Engine σ] {kind : ElementKind} :
    Settles pending X c p (Host.arrayConstructor c kind : Action (Recorded σ) Handle)
      (·.context = c) := by
  refine Settles.context.bind fun x _ => ?_
  dsimp only
  split
  · exact .pure rfl
  · exact .fail

theorem newTypedArray_settles {kind : ElementKind} {n : UInt32}
    (hp : ∀ r f vs, p.Allows (.construct r f vs) .exception) :
    Settles pending X c p (Host.newTypedArray c kind n : Action (Recorded σ) Handle) (Real c) :=
  arrayConstructor_settles.bind fun _ hf =>
    newUInt32_settles.bind fun _ _ => construct_settles T hf hp

theorem newTypedArrayOver_settles {kind : ElementKind} {buffer : Handle}
    (hp : ∀ r f vs, p.Allows (.construct r f vs) .exception) :
    Settles pending X c p (Host.newTypedArrayOver c kind buffer : Action (Recorded σ) Handle)
      (Real c) :=
  arrayConstructor_settles.bind fun _ hf => construct_settles T hf hp

theorem newTypedArrayOf_settles (hr : (X.entry c).realm = some r) {kind : ElementKind}
    {bytes : ByteArray} (hcopy : ∀ r bytes, p.Allows (.copyBuffer r bytes) .exception)
    (hp : ∀ r f vs, p.Allows (.construct r f vs) .exception) :
    Settles pending X c p (Host.newTypedArrayOf c kind bytes : Action (Recorded σ) Handle)
      (Real c) :=
  (newArrayBuffer_settles T hcopy).bind fun _ hb =>
    holding_settles T hr hb.1 (newTypedArrayOver_settles T hp)

section Asking

variable (hr : (X.entry c).realm = some r) (hc : h.context = c)
include hr hc

/-- The buffer is the value itself, which is an object then, or what the engine says. -/
theorem arrayInfo_settles :
    Settles pending X c .lenient (Host.arrayInfo h : Action (Recorded σ) ArrayInfo)
      fun i => Real c i.buffer := by
  refine (isCached_settles T hr hc).bind fun b hb => ?_
  split
  next hbuffer =>
    refine (length_settles T hr hc).bind fun n _ => (dupe_settles T).bind fun d hd => .pure ?_
    subst hd
    refine ⟨hc, fun hv => ?_⟩
    have hobject := hb hbuffer
    rw [hv] at hobject
    cases hobject
  · refine (elementKind_settles T hr hc).bind fun kind _ => ?_
    split
    · exact (typeName_settles T).bind fun _ _ => .fail
    · subst hc
      refine violated_bind (q := fun r => .viewInfo r h.value)
        (S := fun i => ∀ i', i = some i' → i'.buffer ≠ .exception) T (fun _ => trivial)
        (fun r => ask_risks T fun b => Option.isNone_iff_eq_none.1) (fun r s i s' hrun => ?_)
        fun i hi => .pure ⟨rfl, hi i rfl⟩
      cases hrun
      exact fun i' => T.viewed r h.value s.engine.engine i'

theorem byteViewOf_settles {offset : Nat} {length : Option Nat} :
    Settles pending X c .lenient
      (Host.byteViewOf h offset length : Action (Recorded σ) SharedBytes) fun _ => True := by
  subst hc
  exact thrown_bind (q := fun r => .bufferRegion r h.value) T (fun _ => trivial)
    (fun r => ask_risks T fun a => Option.isNone_iff_eq_none.1) fun _ => .pure trivial

theorem byteView_settles :
    Settles pending X c .lenient (Host.byteView h : Action (Recorded σ) SharedBytes)
      fun _ => True := by
  refine (isCached_settles T hr hc).bind fun b _ => ?_
  split
  · exact byteViewOf_settles T hr hc
  · refine (elementKind_settles T hr hc).bind fun kind _ => ?_
    split
    · refine (arrayInfo_settles T hr hc).bind fun i hi => ?_
      exact holding_settles T hr hi.1 (byteViewOf_settles T hr hi.1)
    · exact (typeName_settles T).bind fun _ _ => .fail

end Asking

/-! ## Exchange of data -/

theorem parseJson_settles {text : String}
    (hp : ∀ r text file, p.Allows (.readJson r text file) .exception) :
    Settles pending X c p (Host.parseJson c text : Action (Recorded σ) Handle) (Real c) :=
  checked_settles T (fun r => hp r _ _) fun _ => ask_risks T fun _ => eq_of_beq

theorem serialize_settles {d : HostData}
    (hp : ∀ r text file, p.Allows (.readJson r text file) .exception) :
    Settles pending X c p (Host.serialize c d : Action (Recorded σ) Handle) (Real c) := by
  unfold Host.serialize
  cases d.toDocument with
  | ok d => exact parseJson_settles T hp
  | error e => exact .fail

theorem toJson_settles (hr : (X.entry c).realm = some r) (hc : h.context = c)
    (hwrite : ∀ r, p.Allows (.writeJson r h.value) .exception)
    (htext : ∀ r v, p.Allows (.toText r v) .exception) :
    Settles pending X c p (Host.toJson h : Action (Recorded σ) (Option String)) fun _ => True := by
  subst hc
  refine checked_bind T hwrite (fun r => ask_risks T fun v => eq_of_beq) fun v hv => ?_
  refine holding_settles T hr hv.1 ?_
  split
  · exact .pure trivial
  · exact (toText_settles T hv.1 fun r => htext r _).bind fun _ _ => .pure trivial

theorem deserialize_settles (hr : (X.entry c).realm = some r) (hc : h.context = c)
    {schema : Schema} (hwrite : ∀ r, p.Allows (.writeJson r h.value) .exception)
    (htext : ∀ r v, p.Allows (.toText r v) .exception) :
    Settles pending X c p (Host.deserialize h schema : Action (Recorded σ) Document)
      fun _ => True := by
  refine (toJson_settles T hr hc hwrite htext).bind fun text _ => ?_
  cases text with
  | none => exact (typeName_settles T).bind fun _ _ => .fail
  | some text =>
      unfold Host.decode
      dsimp only
      cases schema.decode text with
      | ok d => exact .pure trivial
      | error e => exact .fail

end Host

end ScriptHost
