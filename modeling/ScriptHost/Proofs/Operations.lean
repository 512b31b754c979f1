import ScriptHost.Proofs.Buffers
import ScriptHost.Proofs.Contexts
/-!
# Operations keep their accounts

Each kind of operation is one of the actions of the host.  What it needs is said of the items that
it uses, and what it yields is said of the items that come of it.
-/

namespace ScriptHost

namespace Client

/-! ## Items and contexts -/

namespace Item

/-- An item whose references are given back in live contexts. -/
def Rooted (X : Contexts) (i : Item) : Prop := ∀ p ∈ i.parts, Accounting.Rooted X p.1 p.2

/-- An item whose references wait for the ends of their contexts, as long as these are live. -/
structure Lent (X : Contexts) (i : Item) : Prop where
  covered : i.refs ⊆ i.parts.flatMap (·.2)
  waits : ∀ p ∈ i.parts, p.2 ≠ [] → p.1 ∈ X ∧ (X.isLive p.1 → p.2 ⊆ (X.entry p.1).waiting)

@[simp] theorem refs_value (h : Handle) : (value h).refs = h.refs := by simp [refs, parts]

@[simp] theorem refs_key (k : KeyHandle) : (key k).refs = k.refs := by simp [refs, parts]

@[simp] theorem refs_bound (b : BoundFunction) : (bound b).refs = b.refs := by
  simp [refs, parts, BoundFunction.refs, List.flatMap_map]

@[simp] theorem refs_bare (r : Ref) : (bare r).refs = r.counted := rfl

theorem rooted_value {X : Contexts} {h : Handle} :
    (value h).Rooted X ↔ Accounting.Rooted X h.context h.refs := by
  simp [Rooted, parts]

theorem rooted_key {X : Contexts} {k : KeyHandle} :
    (key k).Rooted X ↔ Accounting.Rooted X k.context k.refs := by
  simp [Rooted, parts]

theorem rooted_bound {X : Contexts} {b : BoundFunction} :
    (bound b).Rooted X ↔ ∀ h ∈ b.handles, Accounting.Rooted X h.context h.refs := by
  simp [Rooted, parts]

theorem rooted_bare (X : Contexts) (r : Ref) : (bare r).Rooted X := by
  simp [Rooted, parts]

end Item

@[simp] theorem flatMap_nameItems (n : PropertyName) : (nameItems n).flatMap Item.refs = n.refs := by
  cases n <;> simp [nameItems, PropertyName.refs]

end Client

namespace Accounting

open Client

variable {σ : Type} [Engine σ] {A : Accounting σ} {X : Contexts} {M K N : Multiset Ref}
  {c : ContextId} {α : Type}

/-! ## Making -/

/-- Making a value keeps the accounts, unless it pins memory in a context that is gone. -/
theorem maker_makes (hX : X.Tended) (hlend : A.Lends) {m : Maker}
    (hm : A.Leaks ∨ ∀ d ∈ (Operation.make c m).lends?, X.isLive d) :
    A.Makes X K c (m.run c) := by
  cases m with
  | null | undefined | uninitialized | exception | bool _ | int32 _ | float _ =>
      refine MakesPlain.makes ?_
      exact pure_makesPlain rfl
  | uint32 n => exact (newUInt32_makesPlain n).makes
  | int64 n => exact (newInt64_makesPlain n).makes
  | bigInt64 n => exact newBigInt64_makes n
  | bigUInt64 n => exact newBigUInt64_makes n
  | bigInt n => exact eval_makes _
  | string s => exact newString_makes s
  | symbol => exact newSymbol_makes hX (by simp)
  | object => exact newObject_makes
  | array => exact newArray_makes
  | map | set | weakMap | weakSet =>
      refine newCached_makes hX fun x => ?_
      simp [Cache.values]
  | error message => exact newError_makes message
  | arrayBuffer bytes => exact newArrayBuffer_makes bytes
  | sharedBuffer bytes => exact newSharedBuffer_makes hlend (hm.symm.imp_left fun h => h c rfl) bytes
  | typedArray kind n => exact newTypedArray_makes hX kind n
  | typedArrayOf kind bytes => exact newTypedArrayOf_makes hX kind bytes
  | parseJson text => exact parseJson_makes text
  | serialize d => exact serialize_makes d
  | eval source => exact eval_makes source
  | evalAsync source => exact evalAsync_makes source
  | evalWith source file mode => exact evalWith_makes source file mode

/-! ## Using -/

/-- Items of which each can be used in the context that it stands with. -/
def Serve (A : Accounting σ) (X : Contexts) (K : Multiset Ref)
    (us : List (ContextId × Item)) : Prop :=
  ∀ u ∈ us, Usable A X K u.1 u.2.refs

theorem Serve.value {us : List (ContextId × Item)} (hus : A.Serve X K us) {h : Handle}
    (hh : (c, .value h) ∈ us) : Usable A X K c h.refs :=
  Item.refs_value h ▸ hus _ hh

theorem Serve.key {us : List (ContextId × Item)} (hus : A.Serve X K us) {k : KeyHandle}
    (hk : (c, .key k) ∈ us) : Usable A X K c k.refs :=
  Item.refs_key k ▸ hus _ hk

theorem Serve.bound {us : List (ContextId × Item)} (hus : A.Serve X K us) {b : BoundFunction}
    (hb : (c, .bound b) ∈ us) {h : Handle} (hh : h ∈ b.handles) : Usable A X K c h.refs := by
  intro hc r hr
  refine hus _ hb hc r ?_
  rw [Item.refs_bound]
  exact List.mem_flatMap.2 ⟨h, hh, hr⟩

/-- The key by which a property is named, if it is, is among the items in use. -/
theorem Serve.name {us : List (ContextId × Item)} (hus : A.Serve X K us) {n : PropertyName}
    (hn : ∀ i ∈ nameItems n, (c, i) ∈ us) : Usable A X K c n.refs := by
  rw [← flatMap_nameItems]
  exact Usable.flatMap fun i hi => hus _ (hn i hi)

theorem getter_triple (hX : X.Tended) {g : Getter} (hus : A.Serve X K g.uses) :
    A.Triple X K g.run (fun h => Rooted X h.context h.refs) (fun h => h.refs + K)
      (A.Owing X K) := by
  -- Every getter makes one value; which context it is rooted in differs.
  have hmakes : ∃ c, A.Makes X K c g.run := by
    cases g with
    | dupe h => exact ⟨_, dupe_makes (hus.value (by simp [Getter.uses]))⟩
    | symbolOf c d =>
        refine ⟨c, newSymbol_makes hX fun h hh => hus.value ?_⟩
        cases hh
        simp [Getter.uses]
    | typedArrayOver c k b => exact ⟨c, newTypedArrayOver_makes hX k (hus.value (by simp [Getter.uses]))⟩
    | keyValue k => exact ⟨_, keyValue_makes (hus.key (by simp [Getter.uses]))⟩
    | get h n =>
        refine ⟨_, get_makes (hus.value (by simp [Getter.uses])) (hus.name fun i hi => ?_)⟩
        simp [Getter.uses, hi]
    | call f this args =>
        refine ⟨_, call_makes (hus.value (by simp [Getter.uses])) (fun h hh => hus.value ?_)
          fun h hh => hus.value ?_⟩
        · have hthis : this = some h := hh
          simp [Getter.uses, hthis]
        · simp [Getter.uses, hh]
    | construct f args =>
        refine ⟨_, construct_makes (hus.value (by simp [Getter.uses])) fun h hh => hus.value ?_⟩
        simp [Getter.uses, hh]
    | callMethod h name args =>
        refine ⟨_, callMethod_makes (hus.value (by simp [Getter.uses])) fun a ha => hus.value ?_⟩
        simp [Getter.uses, ha]
    | callBound b args =>
        refine ⟨_, callBound_makes (fun h hh => hus.bound (by simp [Getter.uses]) hh)
          fun a ha => hus.value ?_⟩
        simp [Getter.uses, ha]
    | bufferOf h => exact ⟨_, bufferOf_makes hX (hus.value (by simp [Getter.uses]))⟩
  obtain ⟨c, hc⟩ := hmakes
  exact hc.mono (fun _ hQ => ⟨hQ.1 ▸ hQ.2, rfl⟩) fun _ h => h

theorem keyMaker_triple {k : KeyMaker} (hus : A.Serve X K k.uses) :
    A.Triple X K k.run (fun k => Rooted X k.context k.refs) (fun k => k.refs + K)
      (A.Owing X K) := by
  have hmakes : ∃ c, A.MakesKey X K c k.run := by
    cases k with
    | text c s => exact ⟨c, newKey_makes s⟩
    | index c n => exact ⟨c, newIndexKey_makes n⟩
    | ofValue h => exact ⟨_, toKey_makes (hus.value (by simp [KeyMaker.uses]))⟩
    | dupe k => exact ⟨_, dupeKey_makes (hus.key (by simp [KeyMaker.uses]))⟩
  obtain ⟨c, hc⟩ := hmakes
  exact hc.mono (fun _ hQ => ⟨hQ.1 ▸ hQ.2, rfl⟩) fun _ h => h

theorem question_keeps (hX : X.Tended) {h : Handle} {q : Question}
    (hus : A.Serve X K ((.value h :: q.items).map (h.context, ·))) :
    A.Keeps X K (q.run h) := by
  have hu : Usable A X K h.context h.refs := hus.value (by simp)
  cases q with
  | isError => exact (isError_keeps hu).discard
  | isFunction => exact (isFunction_keeps hu).discard
  | isConstructor => exact (isConstructor_keeps hu).discard
  | typeName => exact (typeName_keeps hu).discard
  | diagnostic => exact (diagnostic_keeps hu).discard
  | record => exact (errorRecord_keeps hu).discard
  | isArray | isMap | isSet | isWeakMap | isWeakSet =>
      refine (isCached_keeps hX (fun x => ?_) hu).discard
      simp [Cache.values]
  | isArrayBuffer => exact (isArrayBuffer_keeps hX hu).discard
  | elementKind => exact (elementKind_keeps hX hu).discard
  | isTypedArray k => exact (isTypedArray_keeps hX k hu).discard
  | length => exact (length_keeps hX hu).discard
  | isEmpty => exact (isEmpty_keeps hX hu).discard
  | keys => exact (keys_keeps hu).discard
  | toJson => exact (toJson_keeps hu).discard
  | bytes => exact (toByteArray_keeps hX hu).discard
  | toBool => exact (toBool_keeps hu).discard
  | toInt32 => exact (toInt32_keeps hu).discard
  | toUInt32 => exact (toUInt32_keeps hu).discard
  | toInt64 => exact (toInt64_keeps hu).discard
  | toFloat => exact (toFloat_keeps hu).discard
  | toBigInt64 => exact (toBigInt64_keeps hu).discard
  | toBigInt => exact (toBigInt_keeps hu).discard
  | toText => exact (toText_keeps hu).discard
  | deserialize s => exact (deserialize_keeps hu s).discard
  | isInstance f =>
      have hf : Usable A X K h.context f.refs := hus.value (by simp [Question.items])
      exact (isInstance_keeps hu hf).discard
  | has n =>
      have hn : Usable A X K h.context n.refs := hus.name fun i hi => by simp [Question.items, hi]
      exact (has_keeps hu hn).discard
  | delete n =>
      have hn : Usable A X K h.context n.refs := hus.name fun i hi => by simp [Question.items, hi]
      exact (delete_keeps hu hn).discard
  | write start data => exact write_keeps hX hu start data

/-! ## Operations -/

/-- What is known of a host after an operation that yielded something: the table of contexts grew
but for the context that the operation was about, and what was yielded is accounted for. -/
def Settled (A : Accounting σ) (X : Contexts) (c? : Option ContextId) (K : Multiset Ref)
    (y : Yield) (h : Host σ) : Prop :=
  ∃ Y : Contexts, X.Grown c? Y ∧ Y.Tended ∧ (∀ i ∈ y.owned, i.Rooted Y) ∧
    (∀ i ∈ y.views, i.Lent Y) ∧ A.Owing Y ((y.owned.flatMap Item.refs : List Ref) + K) h

/-- An action that settles whether it ends well, and then with a yield, or stops. -/
def Settles (A : Accounting σ) (X : Contexts) (c? : Option ContextId) (M K : Multiset Ref)
    (x : Action σ Yield) : Prop :=
  ∀ h, A.Owing X M h → Ends (x h) (A.Settled X c? K) (A.Settled X c? K {})

/-- A table of contexts that grew, with nothing yielded. -/
theorem Settled.of_grown {Y : Contexts} {c? : Option ContextId} {h : Host σ}
    (hXY : X.Grown c? Y) (hY : Y.Tended) (hh : A.Owing Y K h) : A.Settled X c? K {} h := by
  refine ⟨Y, hXY, hY, by simp, by simp, ?_⟩
  simpa using hh

/-- An action that leaves the table of contexts as it is settles if what it yields is rooted. -/
theorem Triple.settles {x : Action σ α} {Q : α → Prop} {R : α → Multiset Ref} {f : α → List Item}
    {c? : Option ContextId} (hX : X.Tended) (hx : A.Triple X M x Q R (A.Owing X K))
    (hf : ∀ a, Q a → (∀ i ∈ f a, i.Rooted X) ∧
      R a = ((f a).flatMap Item.refs : List Ref) + K) :
    A.Settles X c? M K (do Pure.pure { owned := f (← x) }) := by
  intro h hh
  refine Ends.bind ((hx h hh).mono (fun _ _ ha => ha) fun h' hstop => ?_) ?_
  · exact Settled.of_grown (Contexts.Grown.refl _ X) hX hstop
  · rintro a h' ⟨hQ, ha⟩
    obtain ⟨hroot, hout⟩ := hf a hQ
    exact Ends.ok rfl ⟨X, Contexts.Grown.refl _ X, hX, hroot, by simp, hout ▸ ha⟩

/-- An action that yields nothing settles if it uses up what it has besides. -/
theorem Triple.settles_unit {x : Action σ α} {c? : Option ContextId} (hX : X.Tended)
    (hx : A.Triple X M x (fun _ => True) (fun _ => K) (A.Owing X K)) :
    A.Settles X c? M K (do let _ ← x; Pure.pure {}) :=
  hx.settles (f := fun _ => []) hX fun _ _ => by simp

theorem makes_settles {x : Action σ Handle} {c? : Option ContextId} (hX : X.Tended)
    (hx : A.Triple X K x (fun h => Rooted X h.context h.refs) (fun h => h.refs + K)
      (A.Owing X K)) :
    A.Settles X c? K K (do Pure.pure { owned := [.value (← x)] }) := by
  refine hx.settles (f := fun h => [.value h]) hX fun h hroot => ?_
  simpa [Item.rooted_value] using hroot

/-! ## Waiting -/

/-- A reference that waits with its context is yielded as a view. -/
theorem defer_settles (hX : X.Tended) {r : Ref} {i : Item} (hr : Rooted X c r.counted)
    (hparts : i.parts = [(c, r.counted)]) (hrefs : i.refs = r.counted) :
    A.Settles X none (r.counted + K) K (do Host.defer c r; Pure.pure { views := [i] }) := by
  intro h hh
  refine Ends.bind ((defer_ends hh hX hr).mono (fun _ _ ha => ha) fun h' hstop => ?_) ?_
  · exact Settled.of_grown (Contexts.Grown.refl none X) hX hstop
  · rintro _ h' ⟨Y, hgrown, hY, hc, hsub, hh'⟩
    have hlent : i.Lent Y := by
      refine ⟨by simp [hparts, hrefs], fun p hp _ => ?_⟩
      rw [hparts, List.mem_singleton] at hp
      exact hp ▸ ⟨hc, fun _ => hsub⟩
    exact Ends.ok rfl ⟨Y, hgrown, hY, by simp, by simpa using hlent, by simpa using hh'⟩

theorem keepToEnd_settles (hX : X.Tended) {h : Handle} (hh : Rooted X h.context h.refs) :
    A.Settles X none (h.refs + K) K (do Pure.pure { views := [.value (← Host.keepToEnd h)] }) := by
  have hdefer : A.Settles X none (h.refs + K) K (do
      Host.defer h.context (.value h.value)
      Pure.pure { views := [.value h] }) :=
    defer_settles (r := .value h.value) hX hh rfl (Item.refs_value h)
  simpa [Host.keepToEnd] using hdefer

theorem keepKeyToEnd_settles (hX : X.Tended) {k : KeyHandle} (hk : Rooted X k.context k.refs) :
    A.Settles X none (k.refs + K) K
      (do Pure.pure { views := [.key (← Host.keepKeyToEnd k)] }) := by
  have hdefer : A.Settles X none (k.refs + K) K (do
      Host.defer k.context (.key k.key)
      Pure.pure { views := [.key k] }) :=
    defer_settles (r := .key k.key) hX hk rfl (Item.refs_key k)
  simpa [Host.keepKeyToEnd] using hdefer

/-- The global object of a context waits for its end with everything else that was looked up. -/
theorem global_lent (hX : X.Tended) : (Item.value ⟨c, (X.entry c).cache.global⟩).Lent X := by
  refine ⟨by simp [Item.parts], fun p hp hne => ?_⟩
  rw [Item.parts, List.mem_singleton] at hp
  subst hp
  refine ⟨?_, fun hlive => ?_⟩
  · by_contra hc
    refine hne ?_
    rw [Contexts.entry, Std.TreeMap.getElem?_eq_none hc]
    rfl
  · have hglobal : (X.entry c).cache.global ∈ (X.entry c).cache.values := by simp [Cache.values]
    refine List.Subset.trans ?_ ((hX c).stocked hlive)
    refine List.subset_append_of_subset_left _ fun r hr => ?_
    exact List.mem_flatMap.2 ⟨_, hglobal, hr⟩

theorem global_settles (hX : X.Tended) :
    A.Settles X none K K (do Pure.pure { views := [.value (← Host.globalOf c)] }) := by
  intro h hh
  refine Ends.bind ((globalOf_triple h hh).mono (fun _ _ ha => ha) fun h' hstop => ?_) ?_
  · exact Settled.of_grown (Contexts.Grown.refl none X) hX hstop
  · rintro _ h' ⟨rfl, hh'⟩
    refine Ends.ok rfl ⟨X, Contexts.Grown.refl none X, hX, by simp, ?_, by simpa using hh'⟩
    simpa using global_lent hX

/-! ## All of them -/

/-- An action that makes or ends a context settles. -/
theorem changes_settles {x : Action σ Unit}
    (hx : ∀ h, A.Owing X K h → Ends (x h)
      (fun _ h' => ∃ Y : Contexts, X.SameBut c Y ∧ Y.Tended ∧ A.Owing Y K h') (A.Owing X K))
    (hX : X.Tended) : A.Settles X (some c) K K (do x; Pure.pure {}) := by
  intro h hh
  refine Ends.bind ((hx h hh).mono (fun _ _ ha => ha) fun h' hstop => ?_) ?_
  · exact Settled.of_grown (Contexts.Grown.refl _ X) hX hstop
  · rintro _ h' ⟨Y, hbut, hY, hh'⟩
    exact Ends.ok rfl (Settled.of_grown hbut.grown hY hh')

theorem runGc_keeps : A.Keeps X K (Host.runGc : Action σ Unit) :=
  Triple.inquiry_unnamed rfl rfl (fun _ => rfl) rfl

/-- An operation that consumes nothing settles with what it has besides. -/
theorem Settles.of_none {c? : Option ContextId} {consumed : Option Item} {x : Action σ Yield}
    (hx : A.Settles X c? K K x) (hnone : consumed = none) :
    A.Settles X c? ((consumed.toList.flatMap Item.refs : List Ref) + K) K x := by
  rw [hnone]
  simpa using hx

/-- An operation that consumes an item settles with the references of this and what it has besides. -/
theorem Settles.of_some {c? : Option ContextId} {consumed : Option Item} {i : Item}
    {x : Action σ Yield} (hx : A.Settles X c? (i.refs + K) K x) (hsome : consumed = some i) :
    A.Settles X c? ((consumed.toList.flatMap Item.refs : List Ref) + K) K x := by
  rw [hsome]
  simpa using hx

/-- Every operation settles, if what it consumes is rooted, what it uses can be used, and the context
that it makes is new. -/
theorem operation_settles (hX : X.Tended) (hlend : A.Lends) {op : Operation}
    (hlends : A.Leaks ∨ ∀ c ∈ op.lends?, X.isLive c) (hopened : ∀ c ∈ op.opened?, c ∉ X)
    (hroot : ∀ i ∈ op.consumed, i.Rooted X) (hus : A.Serve X K op.uses) :
    A.Settles X (op.opened?.or op.closed?) ((op.consumed.toList.flatMap Item.refs : List Ref) + K) K
      op.run := by
  -- One case for each operation; those that consume a handle settle what that handle owned.
  cases op with
  | make c m =>
      refine Settles.of_none (makes_settles hX ?_) rfl
      exact (maker_makes hX hlend hlends).mono (fun _ hQ => ⟨hQ.1 ▸ hQ.2, rfl⟩) fun _ h => h
  | get g => exact Settles.of_none (makes_settles hX (getter_triple hX hus)) rfl
  | key k =>
      refine Settles.of_none ((keyMaker_triple hus).settles (f := fun k => [.key k]) hX ?_) rfl
      intro k hk
      simpa [Item.rooted_key] using hk
  | ownKeys h filter =>
      have hkeys := ownKeys_triple (h := h) (f := filter) (hus.value (by simp [Operation.uses]))
      refine Settles.of_none (hkeys.settles (f := (·.map .key)) hX fun ks hks => ⟨?_, ?_⟩) rfl
      · intro i hi
        obtain ⟨k, hk, rfl⟩ := List.mem_map.1 hi
        exact Item.rooted_key.2 (hks k hk).2
      · simp [List.flatMap_map]
  | bind f this leading =>
      have hbind : A.Triple X K (Host.bind f this leading)
          (fun b => b = ⟨f, this.getD (Host.newUndefined f.context), leading⟩ ∧
            ∀ h ∈ b.handles, Rooted X h.context h.refs)
          (fun b => b.refs + K) (A.Owing X K) := by
        refine bind_triple (hus.value (by simp [Operation.uses])) (fun h hh => hus.value ?_)
          fun h hh => hus.value ?_
        · have hthis : this = some h := hh
          simp [Operation.uses, hthis]
        · simp [Operation.uses, hh]
      refine Settles.of_none (hbind.settles (f := fun b => [.bound b]) hX fun b hb => ?_) rfl
      simpa [Item.rooted_bound] using hb.2
  | ask h q => exact Settles.of_none ((question_keeps hX hus).settles_unit hX) rfl
  | keyText k =>
      have hk := keyText_keeps (k := k) (hus.key (by simp [Operation.uses]))
      exact Settles.of_none (hk.discard.settles_unit hX) rfl
  | keyDiagnostic k =>
      have hk := keyDiagnostic_keeps (k := k) (hus.key (by simp [Operation.uses]))
      exact Settles.of_none (hk.discard.settles_unit hX) rfl
  | boundDiagnostic b =>
      have hb : b.func ∈ b.handles := by simp [BoundFunction.handles]
      have hkeeps := boundDiagnostic_keeps (hus.bound (by simp [Operation.uses]) hb)
      exact Settles.of_none (hkeeps.discard.settles_unit hX) rfl
  | set h n v =>
      have hv : Rooted X v.context v.refs := Item.rooted_value.1 (hroot _ rfl)
      have hu : Usable A X K h.context h.refs := hus.value (by simp [Operation.uses])
      have hn : Usable A X K h.context n.refs := hus.name fun i hi => by simp [Operation.uses, hi]
      refine Settles.of_some (i := .value v) ?_ rfl
      rw [Item.refs_value]
      exact (set_triple hv hu hn).settles_unit hX
  | drop i =>
      cases i with
      | value h =>
          have hh : Rooted X h.context h.refs := Item.rooted_value.1 (hroot _ rfl)
          refine Settles.of_some (i := .value h) ?_ rfl
          rw [Item.refs_value]
          exact (drop_spends hh).sure.settles_unit hX
      | key k =>
          have hk : Rooted X k.context k.refs := Item.rooted_key.1 (hroot _ rfl)
          refine Settles.of_some (i := .key k) ?_ rfl
          rw [Item.refs_key]
          exact (dropKey_spends hk).sure.settles_unit hX
      | bound b =>
          have hb : ∀ h ∈ b.handles, Rooted X h.context h.refs := Item.rooted_bound.1 (hroot _ rfl)
          refine Settles.of_some (i := .bound b) ?_ rfl
          rw [Item.refs_bound]
          exact (dropBound_spends hb).sure.settles_unit hX
      | bare r => exact Settles.of_none (Keeps.pure.settles_unit hX) rfl
  | keepToEnd h =>
      refine Settles.of_some (i := .value h) ?_ rfl
      rw [Item.refs_value]
      exact keepToEnd_settles hX (Item.rooted_value.1 (hroot _ rfl))
  | keepKeyToEnd k =>
      refine Settles.of_some (i := .key k) ?_ rfl
      rw [Item.refs_key]
      exact keepKeyToEnd_settles hX (Item.rooted_key.1 (hroot _ rfl))
  | bareValue h =>
      refine Settles.of_some (i := .value h) ?_ rfl
      intro s hs
      refine Ends.ok rfl ⟨X, Contexts.Grown.refl _ X, hX, ?_, by simp, ?_⟩
      · simp [Item.rooted_bare]
      · simpa [Ref.counted, Handle.refs] using hs
  | bareKey k =>
      refine Settles.of_some (i := .key k) ?_ rfl
      intro s hs
      refine Ends.ok rfl ⟨X, Contexts.Grown.refl _ X, hX, ?_, by simp, ?_⟩
      · simp [Item.rooted_bare]
      · simpa [Ref.counted, KeyHandle.refs] using hs
  | global c => exact Settles.of_none (global_settles hX) rfl
  | runJobs c => exact Settles.of_none (runPendingJobs_keeps.discard.settles_unit hX) rfl
  | runGc => exact Settles.of_none (runGc_keeps.settles_unit hX) rfl
  | openContext c =>
      refine Settles.of_none (changes_settles (fun h hh => ?_) hX) rfl
      exact newContext_ends hh hX (hopened c rfl)
  | openBare c features =>
      refine Settles.of_none (changes_settles (fun h hh => ?_) hX) rfl
      exact newBareContext_ends hh hX (hopened c rfl) features
  | freeContext c =>
      refine Settles.of_none (changes_settles (fun h hh => ?_) hX) rfl
      refine (freeContext_ends hh hX).mono ?_ fun _ h => h.elim
      rintro _ h' ⟨Y, hbut, hY, -, hh'⟩
      exact ⟨Y, hbut, hY, hh'⟩
  | dropContext c =>
      refine Settles.of_none (changes_settles (fun h hh => ?_) hX) rfl
      exact (dropContext_ends hh hX).mono (fun _ _ h => h) fun _ h => h.elim

end Accounting

end ScriptHost
