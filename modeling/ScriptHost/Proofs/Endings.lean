import ScriptHost.Client.Freed
import ScriptHost.Proofs.Accounting
/-!
# How actions on a freed context end

An action on a freed context, or on a handle of it, ends as the cache of the context and the tags of
its operands tell.  It never gets as far as the engine, so whatever comes of it the host is as before.
-/

namespace ScriptHost

open Accounting (bind_ok bind_error tryCatch_error live_error context_ok)

theorem Value.isObject_eq_isNone (v : Value) : v.isObject = v.typeWord?.isNone := by
  cases v <;> rfl

namespace Host

open Client (Ending)
open Client.Ending (done stopped refused stoppedIf ofObject object indexed named constructing)

/-- The ending of an action. -/
def ending {α : Type} (r : Except Stop α) : Ending := r.map fun _ => ()

/-- An action that ends in a certain way and leaves the host as it is. -/
def Halts {σ α : Type} (e : Ending) (x : Action σ α) (s : Host σ) : Prop :=
  ending (x s).1 = e ∧ (x s).2 = s

variable {σ : Type} {α β : Type} {s : Host σ} {c : ContextId} {h : Handle} {k : KeyHandle}

/-! ## Rules -/

theorem Halts.pure {a : α} : Halts done (Pure.pure a : Action σ α) s := ⟨rfl, rfl⟩

theorem Halts.fail {e : HostError} : Halts (refused e) (Host.fail e : Action σ α) s := ⟨rfl, rfl⟩

theorem Halts.eq_error {x : Action σ α} {t : Stop} (hx : Halts (.error t) x s) :
    x s = (.error t, s) := by
  obtain ⟨hend, hsame⟩ := hx
  rcases hxs : x s with ⟨t' | a, s'⟩
  · rw [hxs] at hend hsame
    cases hend
    cases hsame
    rfl
  · rw [hxs] at hend
    cases hend

theorem Halts.of_eq_error {x : Action σ α} {t : Stop} (hx : x s = (.error t, s)) :
    Halts (.error t) x s := by
  rw [Halts, hx]
  exact ⟨rfl, rfl⟩

/-- What stops at its beginning stops. -/
theorem Halts.bind {x : Action σ α} {f : α → Action σ β} {t : Stop}
    (hx : Halts (.error t) x s) : Halts (.error t) (x >>= f) s :=
  .of_eq_error (bind_error hx.eq_error)

/-- What comes through at its beginning ends as the rest does. -/
theorem Halts.after {x : Action σ α} {f : α → Action σ β} {a : α} {e : Ending}
    (hx : x s = (.ok a, s)) (hf : Halts e (f a) s) : Halts e (x >>= f) s := by
  rw [Halts, bind_ok hx]
  exact hf

/-- What does not come to its end ends so whatever follows. -/
theorem Halts.cut {x : Action σ α} {f : α → Action σ β} {e : Ending} (he : e ≠ done)
    (hx : Halts e x s) : Halts e (x >>= f) s := by
  cases e with
  | ok u => exact absurd rfl he
  | error t => exact hx.bind

theorem ofObject_ne_done (h : Handle) (e : String → HostError) : ofObject h e ≠ done := by
  unfold ofObject
  split <;> exact nofun

theorem indexed_ne_done (i : Int) : indexed i ≠ done := by
  unfold indexed
  split <;> exact nofun

theorem Halts.map {x : Action σ α} {e : Ending} (f : α → β) (hx : Halts e x s) :
    Halts e (do Pure.pure (f (← x))) s := by
  obtain ⟨hend, hsame⟩ := hx
  rcases hxs : x s with ⟨t | a, s'⟩
  · rw [hxs] at hend hsame
    rw [Halts, bind_error hxs]
    exact ⟨hend, hsame⟩
  · rw [hxs] at hend hsame
    rw [Halts, bind_ok hxs]
    exact ⟨hend, hsame⟩

theorem Halts.discard {x : Action σ α} {e : Ending} (hx : Halts e x s) : Halts e (discard x) s :=
  hx.map fun _ => ()

variable [Engine σ]

omit [Engine σ] in
theorem live_halts (hc : (Contexts.entry s.contexts c).realm = none) :
    Halts stopped (Host.live c) s := by
  rw [Halts, live_error hc]
  exact ⟨rfl, rfl⟩

omit [Engine σ] in
/-- What begins with the realm of a freed context stops. -/
theorem live_bind_halts {f : RealmId → Action σ α}
    (hc : (Contexts.entry s.contexts c).realm = none) :
    Halts stopped (Host.live c >>= f) s :=
  (live_halts hc).bind

/-! ## Questions about tags -/

section Tags

variable (hc : (Contexts.entry s.contexts h.context).realm = none)
include hc

theorem isFunction_halts : Halts (stoppedIf h.value.isObject) (Host.isFunction h) s := by
  unfold Host.isFunction
  cases h.value.isObject with
  | true => exact live_bind_halts hc
  | false => exact .pure

theorem isConstructor_halts : Halts (stoppedIf h.value.isObject) (Host.isConstructor h) s := by
  unfold Host.isConstructor
  cases h.value.isObject with
  | true => exact live_bind_halts hc
  | false => exact .pure

theorem isError_halts : Halts (stoppedIf h.value.isObject) (Host.isError h) s := by
  unfold Host.isError
  cases h.value.isObject with
  | true => exact live_bind_halts hc
  | false => exact .pure

theorem errorRecord_halts : Halts (stoppedIf h.value.isObject) (Host.errorRecord? h) s := by
  have herror := isError_halts hc
  unfold Host.errorRecord?
  cases hobject : h.value.isObject with
  | true =>
      rw [hobject] at herror
      exact herror.bind
  | false =>
      have hno : Host.isError h s = (.ok false, s) := by
        simp [Host.isError, hobject]
        rfl
      exact .after hno .pure

theorem isInstance_halts (v : Value) :
    Halts (stoppedIf (h.value.isObject && v.isObject)) (Host.isInstance h v) s := by
  unfold Host.isInstance
  cases h.value.isObject && v.isObject with
  | true => exact live_bind_halts hc
  | false => exact .pure

omit hc in
/-- The type of a value that is no object is told without its context. -/
theorem typeName_ok {word : String} (hw : h.value.typeWord? = some word) :
    Host.typeName h s = (.ok word, s) := by
  unfold Host.typeName
  cases hv : h.value <;> rw [hv] at hw <;> cases hw <;> rfl

theorem typeName_halts : Halts (stoppedIf h.value.isObject) (Host.typeName h) s := by
  rw [Value.isObject_eq_isNone]
  cases hw : h.value.typeWord? with
  | some word =>
      rw [Halts, typeName_ok hw]
      exact ⟨rfl, rfl⟩
  | none =>
      have hfunction := isFunction_halts hc
      rw [Value.isObject_eq_isNone, hw] at hfunction
      unfold Host.typeName
      cases hv : h.value with
      | object id => exact hfunction.bind
      | _ => simp [hv, Value.typeWord?] at hw

/-- A failure that tells the type of a value needs its context only for an object. -/
theorem typeName_fail_halts (e : String → HostError) :
    Halts (ofObject h e) (do Host.fail (e (← Host.typeName h)) : Action σ α) s := by
  have hname := typeName_halts hc
  rw [Value.isObject_eq_isNone] at hname
  unfold ofObject
  cases hw : h.value.typeWord? with
  | some word => exact .after (typeName_ok hw) .fail
  | none =>
      rw [hw] at hname
      exact hname.bind

/-- What needs an object refuses anything else and reaches for the realm with one. -/
theorem requireObject_halts (operation : String) {f : Unit → Action σ α}
    (hf : Halts stopped (f ()) s) :
    Halts (object operation h) (Host.requireObject operation h >>= f) s := by
  have hfail := typeName_fail_halts (α := Unit) hc fun word =>
    .contractViolation operation ("target is not an object (got " ++ word ++ ")")
  unfold Host.requireObject object ofObject
  unfold ofObject at hfail
  rw [Value.isObject_eq_isNone]
  cases hw : h.value.typeWord? with
  | some word =>
      rw [hw] at hfail
      exact hfail.bind
  | none => exact .after (a := ()) rfl hf

end Tags

/-! ## Questions about instances -/

/-- An action that comes through with a certain result, or that stops, which happens only with an
object. -/
def Passes (h : Handle) (x : Action σ α) (a : α) (s : Host σ) : Prop :=
  x s = (.ok a, s) ∨ h.value.isObject ∧ Halts stopped x s

omit [Engine σ] in
theorem Passes.seq {x : Action σ α} {f : α → Action σ β} {a : α} {b : β} (hx : Passes h x a s)
    (hf : Passes h (f a) b s) : Passes h (x >>= f) b s := by
  rcases hx with hx | ⟨hobject, hx⟩
  · rcases hf with hf | ⟨hobject, hf⟩
    · exact .inl ((bind_ok hx).trans hf)
    · exact .inr ⟨hobject, .after hx hf⟩
  · exact .inr ⟨hobject, hx.bind⟩

omit [Engine σ] in
/-- What passes does not change how the rest ends that refuses what is no object. -/
theorem Passes.bind {x : Action σ α} {f : α → Action σ β} {a : α} {e : String → HostError}
    (hx : Passes h x a s) (hf : Halts (ofObject h e) (f a) s) :
    Halts (ofObject h e) (x >>= f) s := by
  rcases hx with hx | ⟨hobject, hx⟩
  · exact .after hx hf
  · have hstop : ofObject h e = stopped := by
      rw [Value.isObject_eq_isNone] at hobject
      rw [ofObject, Option.isNone_iff_eq_none.1 hobject]
    rw [hstop]
    exact hx.bind

section Instances

variable (hc : (Contexts.entry s.contexts h.context).realm = none)
include hc

theorem isInstance_passes (v : Value) : Passes h (Host.isInstance h v) false s := by
  unfold Host.isInstance
  cases hobject : h.value.isObject && v.isObject with
  | true => exact .inr ⟨(Bool.and_eq_true_iff.1 hobject).1, live_bind_halts hc⟩
  | false => exact .inl rfl

theorem isCached_passes (field : Cache → Value) : Passes h (Host.isCached h field) false s :=
  .seq (.inl (context_ok _ s)) (isInstance_passes hc _)

theorem isCached_halts (field : Cache → Value) :
    Halts (stoppedIf (h.value.isObject &&
      (field (Contexts.entry s.contexts h.context).cache).isObject)) (Host.isCached h field) s :=
  .after (context_ok _ s) (isInstance_halts hc _)

theorem firstKind_passes (ks : List ElementKind) :
    Passes h (Host.firstKind (Host.isTypedArray h) ks) none s := by
  induction ks with
  | nil => exact .inl rfl
  | cons k ks ih => exact (isCached_passes hc _).seq ih

theorem elementKind_passes : Passes h (Host.elementKind? h) none s := by
  unfold Host.elementKind?
  split
  · exact firstKind_passes hc _
  · exact .inl rfl

theorem firstKind_halts (hobject : h.value.isObject) (ks : List ElementKind) :
    Halts (stoppedIf (ks.any fun k =>
        ((Contexts.entry s.contexts h.context).cache.elements k).isObject))
      (Host.firstKind (Host.isTypedArray h) ks) s := by
  induction ks with
  | nil => exact .pure
  | cons k ks ih =>
      have hkind := isCached_halts hc (·.elements k)
      rw [hobject, Bool.true_and] at hkind
      rw [List.any_cons]
      cases hk : ((Contexts.entry s.contexts h.context).cache.elements k).isObject with
      | true =>
          rw [hk] at hkind
          exact hkind.bind
      | false =>
          have hno : Host.isTypedArray h k s = (.ok false, s) := by
            refine (bind_ok (context_ok _ s)).trans ?_
            simp [Host.isInstance, hk]
            rfl
          exact .after hno ih

theorem elementKind_halts :
    Halts (stoppedIf (h.value.isObject && ElementKind.all.any fun k =>
      ((Contexts.entry s.contexts h.context).cache.elements k).isObject))
      (Host.elementKind? h) s := by
  unfold Host.elementKind?
  cases hobject : h.value.isObject with
  | true => exact firstKind_halts hc hobject _
  | false => exact .pure

theorem sizeKey_passes : Passes h (Host.sizeKey? h) none s := by
  refine .seq (.inl (context_ok _ s)) ((isCached_passes hc _).seq ?_)
  refine (elementKind_passes hc).seq ((isCached_passes hc _).seq ((isCached_passes hc _).seq ?_))
  exact (isCached_passes hc _).seq (.inl rfl)

theorem length_halts :
    Halts (ofObject h fun word => .contractViolation "len" (word ++ " has no length"))
      (Host.length h) s :=
  (sizeKey_passes hc).bind (typeName_fail_halts hc _)

theorem arrayInfo_halts :
    Halts (ofObject h fun word =>
        .contractViolation "typed_array_info" ("expected ArrayBuffer or TypedArray, got " ++ word))
      (Host.arrayInfo h) s :=
  (isCached_passes hc _).bind ((elementKind_passes hc).bind (typeName_fail_halts hc _))

theorem byteView_halts :
    Halts (ofObject h fun word => .wrongType "ArrayBuffer or TypedArray" word)
      (Host.byteView h) s :=
  (isCached_passes hc _).bind ((elementKind_passes hc).bind (typeName_fail_halts hc _))

theorem toBigInt_halts :
    Halts (if Host.isBigInt h then stopped else ofObject h fun word => .wrongType "bigint" word)
      (Host.toBigInt h) s := by
  unfold Host.toBigInt
  cases Host.isBigInt h with
  | true => exact live_bind_halts hc |>.bind
  | false => exact typeName_fail_halts hc _

theorem diagnostic_halts : Halts (Client.diagnosticOnFreed h) (Host.diagnostic h) s := by
  have hname := typeName_halts hc
  unfold Client.diagnosticOnFreed Host.diagnostic
  cases hv : h.value with
  | int _ | float _ | bool _ | string _ => exact (live_bind_halts hc).bind
  | object id =>
      rw [hv] at hname
      exact hname.bind
  | _ => exact .after (typeName_ok (by rw [hv]; rfl)) .pure

end Instances

/-! ## Properties -/

section Properties

variable {n : PropertyName} (hc : (Contexts.entry s.contexts h.context).realm = none)
include hc

/-- An index in range has to be made a key, which stops; any other one is refused before. -/
theorem indexKey_halts (i : Int) : Halts (indexed i) (Host.indexKey h i) s := by
  unfold indexed Host.indexKey
  split
  · exact live_bind_halts hc
  · exact .fail

theorem withKey_halts {f : Key → Action σ α} {e : Ending} (hf : ∀ k, Halts e (f k) s) :
    Halts (named n e) (Host.withKey h n f) s := by
  cases n with
  | text t => exact (live_bind_halts (c := h.context) hc).bind
  | index i => exact (indexKey_halts hc i).cut (indexed_ne_done i)
  | key k => exact hf k.key

theorem get_halts : Halts (named n stopped) (Host.get h n) s :=
  withKey_halts hc fun _ => live_bind_halts hc

theorem has_halts : Halts (named n (object "has_atom" h)) (Host.has h n) s :=
  withKey_halts hc fun _ => requireObject_halts hc _ (live_bind_halts hc)

theorem delete_halts : Halts (named n (object "delete_atom" h)) (Host.delete h n) s :=
  withKey_halts hc fun _ => requireObject_halts hc _ (live_bind_halts hc)

theorem ownKeys_halts (f : KeyFilter) :
    Halts (object "own_property_names" h) (Host.ownKeys h f) s :=
  requireObject_halts hc _ (live_bind_halts hc)

theorem keys_halts : Halts (object "own_property_names" h) (Host.keys h) s :=
  (ownKeys_halts hc .enumerableStrings).cut (ofObject_ne_done h _)

end Properties

/-! ## Everything else -/

omit [Engine σ] in
theorem arrayConstructor_halts (k : ElementKind) {f : Handle → Action σ α}
    (hf : ∀ g : Handle, g.context = c → Halts stopped (f g) s) :
    Halts (constructing (Contexts.entry s.contexts c).cache k)
      (Host.arrayConstructor c k >>= f) s := by
  have hcontext := context_ok c s
  unfold constructing Host.arrayConstructor
  split
  next hobject =>
    refine .after (a := ⟨c, (Contexts.entry s.contexts c).cache.elements k⟩) ?_ (hf _ rfl)
    rw [bind_ok hcontext, if_pos hobject]
    rfl
  next hobject =>
    refine Halts.bind (.after hcontext ?_)
    dsimp only
    rw [if_neg hobject]
    exact .fail

section Contexts

variable (hc : (Contexts.entry s.contexts c).realm = none)
include hc

theorem evalWith_halts (source file : String) (mode : EvalMode) :
    Halts (refused .contextFreed) (Host.evalWith c source file mode) s := by
  have hrealm : Halts (refused .contextFreed) (Host.realmToRun c) s := by
    refine .after (context_ok c s) ?_
    rw [hc]
    exact .fail
  exact hrealm.bind

theorem runPendingJobs_halts : Halts (refused .contextFreed) (Host.runPendingJobs c) s := by
  have hrealm : Halts (refused .contextFreed) (Host.realmToRun c) s := by
    refine .after (context_ok c s) ?_
    rw [hc]
    exact .fail
  exact hrealm.bind

theorem newTypedArrayOver_halts (k : ElementKind) (b : Handle) :
    Halts (constructing (Contexts.entry s.contexts c).cache k) (Host.newTypedArrayOver c k b) s :=
  arrayConstructor_halts k fun _ hf => live_bind_halts (hf ▸ hc)

theorem newTypedArray_halts (k : ElementKind) (n : UInt32) :
    Halts (constructing (Contexts.entry s.contexts c).cache k) (Host.newTypedArray c k n) s :=
  arrayConstructor_halts k fun _ _ => (live_bind_halts hc).bind

theorem newCached_halts (field : Cache → Value) : Halts stopped (Host.newCached c field) s :=
  .after (context_ok c s) (live_bind_halts hc)

theorem newSymbol_halts (d : Option Handle) : Halts stopped (Host.newSymbol c d) s :=
  .after (context_ok c s) (live_bind_halts hc)

theorem serialize_halts (d : HostData) :
    Halts (match d.toDocument with
      | .ok _ => stopped
      | .error e => refused (.json e)) (Host.serialize c d) s := by
  unfold Host.serialize
  cases d.toDocument with
  | ok d => exact live_bind_halts hc
  | error e => exact .fail

theorem keyValue_halts {k : KeyHandle} (hk : k.context = c) : Halts stopped (Host.keyValue k) s := by
  subst hk
  unfold Host.keyValue
  cases k.key.handleIndex? with
  | some n => exact live_bind_halts hc
  | none => exact live_bind_halts hc

/-- A report on a key tells its number if its text cannot be had, but not in a freed context. -/
theorem keyDiagnostic_halts {k : KeyHandle} (hk : k.context = c) :
    Halts stopped (Host.keyDiagnostic k) s := by
  subst hk
  have htext : Halts stopped (Host.keyText k) s := live_bind_halts hc
  refine Halts.bind (.of_eq_error ?_)
  rw [tryCatch_error htext.bind.eq_error]
  rfl

end Contexts

/-! ## Operations -/

section Operations

open Client

variable {x : Cache} (hc : (Contexts.entry s.contexts c).realm = none)
  (hx : (Contexts.entry s.contexts c).cache = x)
include hc hx

theorem maker_halts {m : Maker} (hm : ∀ b, m = .sharedBuffer b → b.size = 0) :
    Halts (m.onFreed x) (m.run c) s := by
  subst hx
  cases m with
  | null | undefined | uninitialized | exception | bool _ | int32 _ | float _ => exact .pure
  | uint32 _ | int64 _ | bigInt64 _ | bigUInt64 _ | string _ | object | array | error _
  | arrayBuffer _ | parseJson _ => exact live_bind_halts hc
  | bigInt _ | eval _ | evalAsync _ => exact .after rfl (evalWith_halts hc _ _ _)
  | evalWith source file mode => exact evalWith_halts hc _ _ _
  | symbol => exact newSymbol_halts hc _
  | map | set | weakMap | weakSet => exact newCached_halts hc _
  | sharedBuffer b =>
      have hempty : Host.newSharedBuffer c b = (Host.newArrayBuffer c b : Action σ Handle) := by
        rw [Host.newSharedBuffer, hm b rfl]
        rfl
      change Halts stopped (Host.newSharedBuffer c b) s
      rw [hempty]
      exact live_bind_halts hc
  | typedArray k n => exact newTypedArray_halts hc k n
  | typedArrayOf k b => exact (live_bind_halts (c := c) hc).bind
  | serialize d => exact serialize_halts hc d

theorem getter_halts {g : Getter} (hg : g.place = c) : Halts (g.onFreed x) g.run s := by
  subst hx hg
  cases g with
  | dupe h => exact live_bind_halts hc
  | symbolOf c d => exact newSymbol_halts hc _
  | typedArrayOver c k b => exact newTypedArrayOver_halts hc k b
  | keyValue k => exact keyValue_halts hc rfl
  | get h n => exact get_halts hc
  | call f this args => exact live_bind_halts hc
  | construct f args => exact live_bind_halts hc
  | callMethod h name args => exact ((live_bind_halts (c := h.context) hc).bind).bind
  | callBound b args => exact live_bind_halts hc
  | bufferOf h => exact (arrayInfo_halts hc).cut (ofObject_ne_done h _)

theorem keyMaker_halts {k : KeyMaker} (hk : k.place = c) : Halts stopped k.run s := by
  subst hk
  cases k with
  | text _ _ | index _ _ | ofValue _ | dupe _ => exact live_bind_halts hc

theorem question_halts {q : Question} (hh : h.context = c) : Halts (q.onFreed x h) (q.run h) s := by
  subst hx hh
  cases q with
  | isError => exact (isError_halts hc).discard
  | isFunction => exact (isFunction_halts hc).discard
  | isConstructor => exact (isConstructor_halts hc).discard
  | typeName => exact (typeName_halts hc).discard
  | diagnostic => exact (diagnostic_halts hc).discard
  | record => exact (errorRecord_halts hc).discard
  | isArray | isMap | isSet | isWeakMap | isWeakSet | isArrayBuffer | isTypedArray _ =>
      exact (isCached_halts hc _).discard
  | elementKind => exact (elementKind_halts hc).discard
  | length => exact (length_halts hc).discard
  | isEmpty => exact ((length_halts hc).cut (ofObject_ne_done h _)).discard
  | keys => exact (keys_halts hc).discard
  | toJson => exact (live_bind_halts (c := h.context) hc).discard
  | bytes => exact ((byteView_halts hc).cut (ofObject_ne_done h _)).discard
  | toBool | toInt32 | toUInt32 | toInt64 | toFloat | toBigInt64 | toText =>
      exact (live_bind_halts (c := h.context) hc).discard
  | toBigInt => exact (toBigInt_halts hc).discard
  | deserialize s => exact (live_bind_halts (c := h.context) hc).bind.discard
  | isInstance f => exact (isInstance_halts hc _).discard
  | has n => exact (has_halts hc).discard
  | delete n => exact (delete_halts hc).discard
  | write start data => exact (byteView_halts hc).cut (ofObject_ne_done h _)

end Operations

end Host

end ScriptHost
