import ScriptHost.Client.Operation
import ScriptHost.Proofs.Accounting
/-!
# What actions leave alone

Nearly everything that the host does, it does by requests to the engine and by pinning memory.  A
frame is a relation between hosts that holds across a request, across pinning and unpinning, and
across one thing done after another.  It then holds across every such action, whatever the engine
answers and however the action ends.  Only the actions that make or end contexts, or let references
wait for their ends, reach further.
-/

namespace ScriptHost

variable {σ : Type} [Engine σ]

/-- A relation between hosts that holds across requests and across pinning and unpinning. -/
structure HostFrame (σ : Type) [Engine σ] where
  rel : Host σ → Host σ → Prop
  refl : ∀ h, rel h h
  trans : ∀ {h₁ h₂ h₃}, rel h₁ h₂ → rel h₂ h₃ → rel h₁ h₃
  ask : ∀ (q : Request) h, rel h (Host.ask q h).2
  pin : ∀ n h, rel h (Host.pin n h).2
  unpin : ∀ t h, rel h (Host.unpin t h).2

namespace HostFrame

open Accounting (bind_ok bind_error live_ok live_error context_ok)

variable {F : HostFrame σ} {α β : Type} {h : Handle} {k : KeyHandle} {c : ContextId}

/-- An action that stays within a frame, however it ends. -/
def Within (F : HostFrame σ) (x : Action σ α) : Prop := ∀ s, F.rel s (x s).2

/-! ## Rules -/

theorem Within.pure {a : α} : F.Within (Pure.pure a) := fun s => F.refl s

theorem Within.throw {e : Stop} : F.Within (throw e : Action σ α) := fun s => F.refl s

theorem Within.fail {e : HostError} : F.Within (Host.fail e : Action σ α) := fun s => F.refl s

theorem Within.misuse {p : Panic} : F.Within (Host.misuse p : Action σ α) := fun s => F.refl s

theorem Within.read : F.Within (getThe (Host σ)) := fun s => F.refl s

theorem Within.ask {q : Request} : F.Within (Host.ask q) := F.ask q

theorem Within.bind {x : Action σ α} {f : α → Action σ β} (hx : F.Within x)
    (hf : ∀ a, F.Within (f a)) : F.Within (x >>= f) := by
  intro s
  have hs := hx s
  rcases hxs : x s with ⟨e | a, s'⟩
  · rw [bind_error hxs]
    rwa [hxs] at hs
  · rw [bind_ok hxs]
    rw [hxs] at hs
    exact F.trans hs (hf a s')

theorem Within.tryCatch {x : Action σ α} {f : Stop → Action σ α} (hx : F.Within x)
    (hf : ∀ e, F.Within (f e)) : F.Within (tryCatch x f) := by
  intro s
  have hs := hx s
  change F.rel s (ExceptT.tryCatch x f s).2
  simp only [ExceptT.tryCatch, ExceptT.mk, Bind.bind, StateT.bind]
  rcases hxs : x s with ⟨e | a, s'⟩
  · rw [hxs] at hs
    exact F.trans hs (hf e s')
  · rwa [hxs] at hs

theorem Within.ensuring {x : Action σ α} {last : Action σ Unit} (hx : F.Within x)
    (hlast : F.Within last) : F.Within (Host.ensuring x last) :=
  (hx.tryCatch fun _ => hlast.bind fun _ => .throw).bind fun _ => hlast.bind fun _ => .pure

theorem Within.discard {x : Action σ α} (hx : F.Within x) : F.Within (discard x) := by
  have hmap : F.Within (x >>= fun _ => Pure.pure ()) := hx.bind fun _ => .pure
  exact hmap

theorem Within.mapM {l : List α} {f : α → Action σ β} (hf : ∀ a ∈ l, F.Within (f a)) :
    F.Within (l.mapM f) := by
  induction l with
  | nil => exact .pure
  | cons a l ih =>
      rw [List.mapM_cons]
      refine (hf a List.mem_cons_self).bind fun b => ?_
      exact (ih fun a ha => hf a (List.mem_cons_of_mem _ ha)).bind fun bs => .pure

theorem Within.forM {l : List α} {f : α → Action σ Unit} (hf : ∀ a, F.Within (f a)) :
    F.Within (l.forM f) := by
  induction l with
  | nil => exact .pure
  | cons a l ih => exact (hf a).bind fun _ => ih

/-! ## The state of a host -/

theorem context_within : F.Within (Host.context c) := by
  intro s
  rw [context_ok]
  exact F.refl s

theorem live_within : F.Within (Host.live c) := by
  refine context_within.bind fun x => ?_
  cases x.realm with
  | some r => exact .pure
  | none => exact .misuse

/-- A request that is made in a live context. -/
theorem asked_within {q : RealmId → Request} {f : ∀ r, (q r).Reply → Action σ α}
    (hf : ∀ r a, F.Within (f r a)) :
    F.Within (do
      let r ← Host.live c
      let a ← Host.ask (q r)
      f r a) :=
  live_within.bind fun r => Within.ask.bind (hf r)

/-! ## Handles -/

theorem drop_within : F.Within (Host.drop h) := by
  unfold Host.drop
  split
  · exact live_within.bind fun _ => .ask
  · exact .pure

theorem dropKey_within : F.Within (Host.dropKey k) := by
  unfold Host.dropKey
  split
  · exact live_within.bind fun _ => .ask
  · exact .pure

theorem dupe_within : F.Within (Host.dupe h) := asked_within fun _ _ => .pure

theorem dupeKey_within : F.Within (Host.dupeKey k) := asked_within fun _ _ => .pure

theorem Within.holding {f : Handle → Action σ α} (hf : F.Within (f h)) :
    F.Within (Host.holding h f) :=
  hf.ensuring drop_within

theorem Within.holdingKey {f : KeyHandle → Action σ α} (hf : F.Within (f k)) :
    F.Within (Host.holdingKey k f) :=
  hf.ensuring dropKey_within

/-! ## Exceptions -/

theorem discardException_within : F.Within (Host.discardException c) := asked_within fun _ _ => .ask

theorem textLossy_within : F.Within (Host.textLossy h) := by
  refine asked_within fun r s => ?_
  cases s with
  | some s => exact .pure
  | none => exact discardException_within.bind fun _ => .pure

theorem memberText_within (name : String) : F.Within (Host.memberText h name) := by
  refine asked_within fun r v => ?_
  split
  · exact discardException_within.bind fun _ => .pure
  · exact .pure
  · exact textLossy_within.holding

theorem isError_within : F.Within (Host.isError h) := by
  unfold Host.isError
  split
  · exact live_within.bind fun _ => .ask
  · exact .pure

theorem errorRecord_within : F.Within (Host.errorRecord? h) := by
  refine isError_within.bind fun b => ?_
  split
  · refine (memberText_within _).bind fun name => (memberText_within _).bind fun message => ?_
    exact (memberText_within _).bind fun cause => (memberText_within _).bind fun stack => .pure
  · exact .pure

theorem recordOf_within : F.Within (Host.recordOf h) := by
  refine errorRecord_within.bind fun r => ?_
  cases r with
  | some r => exact .pure
  | none => exact textLossy_within.bind fun _ => .pure

theorem takeException_within : F.Within (Host.takeException c) :=
  asked_within fun _ _ => recordOf_within.holding

theorem throwPending_within : F.Within (Host.throwPending c : Action σ α) :=
  takeException_within.bind fun _ => .fail

theorem check_within {v : Value} : F.Within (Host.check c v) := by
  unfold Host.check
  split
  · exact throwPending_within
  · exact .pure

theorem orThrow_within {r : Option α} : F.Within (Host.orThrow c r) := by
  cases r with
  | some a => exact .pure
  | none => exact throwPending_within

theorem orViolation_within {operation : String} {r : Option α} :
    F.Within (Host.orViolation c operation r) := by
  cases r with
  | some a => exact .pure
  | none => exact takeException_within.bind fun _ => .fail

/-! ## Values -/

theorem newUInt32_within {n : UInt32} : F.Within (Host.newUInt32 c n) :=
  live_within.bind fun _ => .pure

theorem newInt64_within {n : Int64} : F.Within (Host.newInt64 c n) :=
  live_within.bind fun _ => .pure

theorem newString_within {s : String} : F.Within (Host.newString c s) :=
  asked_within fun _ _ => .pure

theorem isFunction_within : F.Within (Host.isFunction h) := by
  unfold Host.isFunction
  split
  · exact live_within.bind fun _ => .ask
  · exact .pure

theorem isConstructor_within : F.Within (Host.isConstructor h) := by
  unfold Host.isConstructor
  split
  · exact live_within.bind fun _ => .ask
  · exact .pure

theorem isInstance_within {v : Value} : F.Within (Host.isInstance h v) := by
  unfold Host.isInstance
  split
  · refine asked_within fun r b => ?_
    cases b with
    | some b => exact .pure
    | none => exact discardException_within.bind fun _ => .pure
  · exact .pure

theorem typeName_within : F.Within (Host.typeName h) := by
  unfold Host.typeName
  cases h.value with
  | object id => exact isFunction_within.bind fun _ => .pure
  | _ => exact .pure

theorem toBool_within : F.Within (Host.toBool h) := live_within.bind fun _ => .ask

theorem toText_within : F.Within (Host.toText h) := asked_within fun _ _ => orThrow_within

theorem readDecimal_within (s : String) : F.Within (Host.readDecimal s : Action σ Int) := by
  unfold Host.readDecimal
  cases Host.ofDecimal? s with
  | some n => exact .pure
  | none => exact .fail

theorem toBigInt_within : F.Within (Host.toBigInt h) := by
  have hrest : F.Within (do Host.readDecimal (← Host.toText h)) :=
    toText_within.bind fun s => readDecimal_within s
  unfold Host.toBigInt
  split
  · exact typeName_within.bind fun _ => Within.fail.bind fun _ => hrest
  · exact hrest

theorem diagnostic_within : F.Within (Host.diagnostic h) := by
  unfold Host.diagnostic
  split
  all_goals first
    | exact textLossy_within.bind fun _ => .pure
    | exact typeName_within.bind fun _ => .pure

/-! ## Keys -/

theorem newKey_within {s : String} : F.Within (Host.newKey c s) := asked_within fun _ _ => .pure

theorem newIndexKey_within {n : UInt32} : F.Within (Host.newIndexKey c n) :=
  asked_within fun _ _ => .pure

theorem toKey_within : F.Within (Host.toKey h) :=
  asked_within fun _ _ => orThrow_within.bind fun _ => .pure

theorem keyValue_within : F.Within (Host.keyValue k) := by
  unfold Host.keyValue
  cases k.key.handleIndex? with
  | some n => exact newUInt32_within
  | none => exact asked_within fun _ _ => check_within

theorem keyText_within : F.Within (Host.keyText k) :=
  asked_within fun _ _ => check_within.bind fun _ => toText_within.holding

theorem keyDiagnostic_within : F.Within (Host.keyDiagnostic k) := by
  refine Within.bind (Within.tryCatch (keyText_within.bind fun _ => .pure) fun e => ?_) fun _ => .pure
  cases e with
  | failed e => exact .pure
  | panicked p => exact .throw

/-! ## Properties -/

variable {n : PropertyName}

theorem requireObject_within {operation : String} :
    F.Within (Host.requireObject operation h) := by
  unfold Host.requireObject
  split
  · exact typeName_within.bind fun _ => .fail
  · exact .pure

theorem indexKey_within {i : Int} : F.Within (Host.indexKey h i) := by
  unfold Host.indexKey
  split
  · exact newIndexKey_within
  · exact .fail

theorem Within.withKey {f : Key → Action σ α} (hf : ∀ k, F.Within (f k)) :
    F.Within (Host.withKey h n f) := by
  cases n with
  | text s => exact newKey_within.bind fun k => (hf k.key).holdingKey
  | index i => exact indexKey_within.bind fun k => (hf k.key).holdingKey
  | key k => exact hf k.key

theorem getKey_within {k : Key} : F.Within (Host.getKey h k) := asked_within fun _ _ => check_within

theorem setKey_within {k : Key} {v : Handle} : F.Within (Host.setKey h k v) := by
  refine Within.bind (Within.tryCatch ?_ fun e => drop_within.bind fun _ => .throw) fun r => ?_
  · exact requireObject_within.bind fun _ => live_within
  · exact Within.ask.bind fun _ => orViolation_within.bind fun _ => .pure

theorem hasKey_within {k : Key} : F.Within (Host.hasKey h k) :=
  requireObject_within.bind fun _ => asked_within fun _ _ => orViolation_within

theorem deleteKey_within {k : Key} : F.Within (Host.deleteKey h k) := by
  refine requireObject_within.bind fun _ => asked_within fun _ _ => orViolation_within.bind fun b => ?_
  split
  · exact asked_within fun _ _ => orViolation_within
  · exact .pure

theorem get_within : F.Within (Host.get h n) := .withKey fun _ => getKey_within

theorem set_within {v : Handle} : F.Within (Host.set h n v) := by
  have hgive : ∀ e, F.Within (do
      Host.drop v
      throw e : Action σ KeyHandle) := fun e => drop_within.bind fun _ => .throw
  cases n with
  | text s =>
      exact Within.bind (newKey_within.tryCatch hgive) fun _ => setKey_within.holdingKey
  | index i =>
      exact Within.bind (indexKey_within.tryCatch hgive) fun _ => setKey_within.holdingKey
  | key k => exact setKey_within

theorem has_within : F.Within (Host.has h n) := .withKey fun _ => hasKey_within

theorem delete_within : F.Within (Host.delete h n) := .withKey fun _ => deleteKey_within

theorem ownKeys_within {f : KeyFilter} : F.Within (Host.ownKeys h f) :=
  requireObject_within.bind fun _ => asked_within fun _ _ => orViolation_within.bind fun _ => .pure

theorem keys_within : F.Within (Host.keys h) := by
  refine ownKeys_within.bind fun ks => Within.ensuring ?_ (.forM fun _ => dropKey_within)
  exact .mapM fun _ _ => keyText_within

/-! ## Calls -/

variable {args : List Handle} {this : Option Handle} {b : BoundFunction}

theorem invoke_within {v : Value} {vs : ArgBuffer} : F.Within (Host.invoke h v vs) :=
  asked_within fun _ _ => check_within

theorem call_within : F.Within (Host.call h this args) := invoke_within

theorem construct_within : F.Within (Host.construct h args) := asked_within fun _ _ => check_within

theorem callMethod_within {name : String} : F.Within (Host.callMethod h name args) :=
  get_within.bind fun _ => call_within.holding

theorem dupeEach_within : F.Within (Host.dupeEach args) := by
  induction args with
  | nil => exact .pure
  | cons h hs ih =>
      refine dupe_within.bind fun d => Within.bind (ih.tryCatch fun e => ?_) fun ds => .pure
      exact drop_within.bind fun _ => .throw

theorem bind_within : F.Within (Host.bind h this args) := by
  refine dupeEach_within.bind fun ds => ?_
  split
  · exact .pure
  · exact .pure

theorem callBound_within : F.Within (Host.callBound b args) := invoke_within

theorem dropBound_within : F.Within (Host.dropBound b) := .forM fun _ => drop_within

theorem boundDiagnostic_within : F.Within (Host.boundDiagnostic b) :=
  diagnostic_within.bind fun _ => .pure

theorem newSymbol_within : F.Within (Host.newSymbol c this) :=
  context_within.bind fun _ => call_within

theorem newError_within {message : String} : F.Within (Host.newError c message) := by
  refine asked_within fun _ _ => check_within.bind fun e => Within.tryCatch ?_ fun x => ?_
  · exact newString_within.bind fun _ => set_within.bind fun _ => .pure
  · exact drop_within.bind fun _ => .throw

/-! ## Collections -/

theorem newCached_within {field : Cache → Value} : F.Within (Host.newCached c field) :=
  context_within.bind fun _ => construct_within

theorem isCached_within {field : Cache → Value} : F.Within (Host.isCached h field) :=
  context_within.bind fun _ => isInstance_within

theorem firstKind_within {test : ElementKind → Action σ Bool} (htest : ∀ k, F.Within (test k))
    (ks : List ElementKind) : F.Within (Host.firstKind test ks) := by
  induction ks with
  | nil => exact .pure
  | cons k ks ih =>
      refine (htest k).bind fun b => ?_
      split
      · exact .pure
      · exact ih

theorem elementKind_within : F.Within (Host.elementKind? h) := by
  unfold Host.elementKind?
  split
  · exact firstKind_within (fun _ => isCached_within) _
  · exact .pure

/-- One question after another, until one is answered with yes. -/
theorem Within.ite {test : Action σ Bool} {x y : Action σ α} (htest : F.Within test)
    (hx : F.Within x) (hy : F.Within y) : F.Within (do if ← test then x else y) := by
  refine htest.bind fun b => ?_
  cases b with
  | true => exact hx
  | false => exact hy

theorem sizeKey_within : F.Within (Host.sizeKey? h) := by
  refine context_within.bind fun x => isCached_within.ite .pure ?_
  refine elementKind_within.bind fun kind => ?_
  split
  · exact .pure
  · exact isCached_within.ite .pure (isCached_within.ite .pure (isCached_within.ite .pure .pure))

theorem length_within : F.Within (Host.length h) := by
  refine sizeKey_within.bind fun key => ?_
  cases key with
  | none => exact typeName_within.bind fun _ => .fail
  | some k =>
      have hint : ∀ v, F.Within (Host.holding v Host.toInt64) := fun v =>
        Within.holding (asked_within fun _ _ => orThrow_within)
      refine getKey_within.bind fun v => (hint v).bind fun n => ?_
      split
      · exact .pure
      · exact .fail

theorem isEmpty_within : F.Within (Host.isEmpty h) := length_within.bind fun _ => .pure

/-! ## Scripts -/

theorem realmToRun_within : F.Within (Host.realmToRun c) := by
  refine context_within.bind fun x => ?_
  cases x.realm with
  | some r => exact .pure
  | none => exact .fail

theorem evalWith_within {source file : String} {mode : EvalMode} :
    F.Within (Host.evalWith c source file mode) := by
  refine realmToRun_within.bind fun r => ?_
  cases Host.zeroByte? file with
  | some i => exact .fail
  | none => exact Within.ask.bind fun _ => check_within

theorem eval_within {source : String} : F.Within (Host.eval c source) :=
  Within.read.bind fun _ => evalWith_within

theorem evalAsync_within {source : String} : F.Within (Host.evalAsync c source) :=
  Within.read.bind fun _ => evalWith_within

theorem failedJob_within {realm failed : RealmId} :
    F.Within (Host.failedJob c realm failed) := by
  unfold Host.failedJob
  split
  · exact throwPending_within
  · exact Within.ask.bind fun _ => Within.ask.bind fun _ => .fail

theorem runJobsUpTo_within {realm : RealmId} (bound count : Nat) :
    F.Within (Host.runJobsUpTo c realm bound count) := by
  induction bound generalizing count with
  | zero => exact .pure
  | succ bound ih =>
      refine Within.bind (x := Host.ask .runJob) .ask fun e => ?_
      rcases e with _ | _ | r
      · exact .pure
      · exact ih _
      · exact failedJob_within

theorem runPendingJobs_within : F.Within (Host.runPendingJobs c) := by
  intro s
  obtain ⟨bound, hbound⟩ := Host.runPendingJobs_eq c s
  rw [hbound]
  exact (realmToRun_within.bind fun _ => runJobsUpTo_within _ _) s

/-! ## Buffers -/

theorem newArrayBuffer_within {bytes : ByteArray} : F.Within (Host.newArrayBuffer c bytes) :=
  asked_within fun _ _ => check_within

theorem newSharedBuffer_within {bytes : ByteArray} : F.Within (Host.newSharedBuffer c bytes) := by
  unfold Host.newSharedBuffer
  split
  · exact newArrayBuffer_within
  · refine Within.bind (fun s => F.pin _ s) fun lent => asked_within fun _ v => ?_
    split
    · exact Within.bind (fun s => F.unpin _ s) fun _ => check_within
    · exact check_within

theorem arrayConstructor_within {kind : ElementKind} :
    F.Within (Host.arrayConstructor c kind) := by
  refine context_within.bind fun x => ?_
  dsimp only
  split
  · exact .pure
  · exact .fail

theorem newTypedArray_within {kind : ElementKind} {length : UInt32} :
    F.Within (Host.newTypedArray c kind length) :=
  arrayConstructor_within.bind fun _ => newUInt32_within.bind fun _ => construct_within

theorem newTypedArrayOver_within {kind : ElementKind} {buffer : Handle} :
    F.Within (Host.newTypedArrayOver c kind buffer) :=
  arrayConstructor_within.bind fun _ => construct_within

theorem newTypedArrayOf_within {kind : ElementKind} {bytes : ByteArray} :
    F.Within (Host.newTypedArrayOf c kind bytes) :=
  newArrayBuffer_within.bind fun _ => newTypedArrayOver_within.holding

theorem arrayInfo_within : F.Within (Host.arrayInfo h) := by
  refine isCached_within.ite ?_ (elementKind_within.bind fun kind => ?_)
  · exact length_within.bind fun n => dupe_within.bind fun _ => .pure
  · split
    · exact typeName_within.bind fun _ => .fail
    · exact asked_within fun _ _ => orViolation_within.bind fun _ => .pure

theorem byteViewOf_within {offset : Nat} {length : Option Nat} :
    F.Within (Host.byteViewOf h offset length) :=
  asked_within fun _ _ => orThrow_within.bind fun _ => .pure

theorem byteView_within : F.Within (Host.byteView h) := by
  refine isCached_within.ite byteViewOf_within (elementKind_within.bind fun kind => ?_)
  split
  · exact arrayInfo_within.bind fun i => byteViewOf_within.holding
  · exact typeName_within.bind fun _ => .fail

theorem toByteArray_within : F.Within (Host.toByteArray h) := byteView_within.bind fun _ => .ask

/-! ## Exchange of data -/

theorem parseJson_within {text : String} : F.Within (Host.parseJson c text) :=
  asked_within fun _ _ => check_within

theorem serialize_within {d : HostData} : F.Within (Host.serialize c d) := by
  unfold Host.serialize
  cases d.toDocument with
  | ok d => exact parseJson_within
  | error e => exact .fail

theorem toJson_within : F.Within (Host.toJson h) := by
  refine asked_within fun _ _ => check_within.bind fun v => Within.holding ?_
  split
  · exact .pure
  · exact toText_within.bind fun _ => .pure

theorem deserialize_within {schema : Schema} : F.Within (Host.deserialize h schema) := by
  refine toJson_within.bind fun text => ?_
  rcases text with _ | text
  · exact typeName_within.bind fun _ => .fail
  · unfold Host.decode
    dsimp only
    cases schema.decode text with
    | ok d => exact .pure
    | error e => exact .fail

/-! ## Operations -/

open Client

theorem maker_within {m : Maker} : F.Within (m.run c) := by
  cases m with
  | null | undefined | uninitialized | exception | bool _ | int32 _ | float _ => exact .pure
  | uint32 n => exact newUInt32_within
  | int64 n => exact newInt64_within
  | bigInt64 _ | bigUInt64 _ | string _ | object | array => exact asked_within fun _ _ => .pure
  | bigInt _ => exact eval_within
  | symbol => exact newSymbol_within
  | map | set | weakMap | weakSet => exact newCached_within
  | error message => exact newError_within
  | arrayBuffer bytes => exact newArrayBuffer_within
  | sharedBuffer bytes => exact newSharedBuffer_within
  | typedArray kind n => exact newTypedArray_within
  | typedArrayOf kind bytes => exact newTypedArrayOf_within
  | parseJson text => exact parseJson_within
  | serialize d => exact serialize_within
  | eval source => exact eval_within
  | evalAsync source => exact evalAsync_within
  | evalWith source file mode => exact evalWith_within

theorem getter_within {g : Getter} : F.Within g.run := by
  cases g with
  | dupe h => exact dupe_within
  | symbolOf c d => exact newSymbol_within
  | typedArrayOver c k b => exact newTypedArrayOver_within
  | keyValue k => exact keyValue_within
  | get h n => exact get_within
  | call f this args => exact call_within
  | construct f args => exact construct_within
  | callMethod h name args => exact callMethod_within
  | callBound b args => exact callBound_within
  | bufferOf h => exact arrayInfo_within.bind fun _ => .pure

theorem keyMaker_within {k : KeyMaker} : F.Within k.run := by
  cases k with
  | text c s => exact newKey_within
  | index c n => exact newIndexKey_within
  | ofValue h => exact toKey_within
  | dupe k => exact dupeKey_within

theorem question_within {q : Question} : F.Within (q.run h) := by
  cases q with
  | isError => exact isError_within.discard
  | isFunction => exact isFunction_within.discard
  | isConstructor => exact isConstructor_within.discard
  | typeName => exact typeName_within.discard
  | diagnostic => exact diagnostic_within.discard
  | record => exact errorRecord_within.discard
  | isArray | isMap | isSet | isWeakMap | isWeakSet | isArrayBuffer | isTypedArray _ =>
      exact isCached_within.discard
  | elementKind => exact elementKind_within.discard
  | length => exact length_within.discard
  | isEmpty => exact isEmpty_within.discard
  | keys => exact keys_within.discard
  | toJson => exact toJson_within.discard
  | bytes => exact toByteArray_within.discard
  | toBool => exact toBool_within.discard
  | toInt32 | toUInt32 | toInt64 | toFloat | toBigInt64 | toText =>
      exact (asked_within fun _ _ => orThrow_within).discard
  | toBigInt => exact toBigInt_within.discard
  | deserialize s => exact deserialize_within.discard
  | isInstance f => exact isInstance_within.discard
  | has n => exact has_within.discard
  | delete n => exact delete_within.discard
  | write start data => exact byteView_within.bind fun _ => .ask

theorem item_drop_within {i : Item} : F.Within i.drop := by
  cases i with
  | value h => exact drop_within
  | key k => exact dropKey_within
  | bound b => exact dropBound_within
  | bare r => exact .pure

end HostFrame

namespace Client.Operation

/-- Whether an operation lets a reference wait for the end of its context. -/
def defers : Operation → Bool
  | keepToEnd _ | keepKeyToEnd _ => true
  | _ => false

/-- An operation that neither makes nor ends a context and lets nothing wait stays within every
frame. -/
theorem run_within {F : HostFrame σ} {op : Operation} (hopened : op.opened? = none)
    (hclosed : op.closed? = none) (hdefers : op.defers = false) : F.Within op.run := by
  open HostFrame in
  cases op with
  | make c m => exact maker_within.bind fun _ => .pure
  | get g => exact getter_within.bind fun _ => .pure
  | key k => exact keyMaker_within.bind fun _ => .pure
  | ownKeys h f => exact ownKeys_within.bind fun _ => .pure
  | bind f this leading => exact bind_within.bind fun _ => .pure
  | ask h q => exact question_within.bind fun _ => .pure
  | keyText k => exact keyText_within.discard.bind fun _ => .pure
  | keyDiagnostic k => exact keyDiagnostic_within.discard.bind fun _ => .pure
  | boundDiagnostic b => exact boundDiagnostic_within.discard.bind fun _ => .pure
  | set h n v => exact set_within.bind fun _ => .pure
  | drop i => exact item_drop_within.bind fun _ => .pure
  | bareValue _ | bareKey _ => exact .pure
  | global c => exact (context_within.bind fun _ => .pure).bind fun _ => .pure
  | runJobs c => exact runPendingJobs_within.discard.bind fun _ => .pure
  | runGc => exact Within.ask.bind fun _ => .pure
  | keepToEnd _ | keepKeyToEnd _ => cases hdefers
  | openContext _ | openBare _ _ => cases hopened
  | freeContext _ | dropContext _ => cases hclosed

end Client.Operation

end ScriptHost
