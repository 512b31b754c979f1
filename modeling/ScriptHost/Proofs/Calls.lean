import ScriptHost.Host.Exchange
import ScriptHost.Host.Scripts
import ScriptHost.Proofs.Accounting
import ScriptHost.Proofs.Properties
/-!
# Calls, collections and scripts keep their accounts

Arguments stay the caller's own, a bound function has references to all of its parts or there is
none, and what a context looked up can be used as long as the context is live.
-/

namespace ScriptHost

namespace Accounting

variable {σ : Type} [Engine σ] {A : Accounting σ} {X : Contexts} {M K N : Multiset Ref}
  {c : ContextId} {α : Type}

/-! ## Calling -/

/-- The engine reads nothing but what is in the row. -/
theorem Usable.passed {b : ArgBuffer} {hs : List Handle} (hb : b.values = hs.map (·.value))
    (h : ∀ a ∈ hs, Usable A X K c a.refs) : Usable A X K c (b.passed.flatMap Ref.ofValue) := by
  refine Usable.flatMap fun v hv => ?_
  have hvalue : v ∈ b.values := by
    unfold ArgBuffer.passed ArgBuffer.pointer at hv
    split at hv
    next => simp at hv
    next => exact List.mem_of_mem_take hv
  rw [hb] at hvalue
  obtain ⟨a, ha, rfl⟩ := List.mem_map.1 hvalue
  exact h a ha

theorem invoke_makes {f : Handle} {this : Value} {args : ArgBuffer}
    (hf : Usable A X K f.context f.refs) (hthis : Usable A X K f.context (Ref.ofValue this))
    (hargs : Usable A X K f.context (args.passed.flatMap Ref.ofValue)) :
    A.Makes X K f.context (Host.invoke f this args) := by
  unfold Host.invoke
  exact checked_makes fun r hr => Triple.ask_free rfl rfl ((hf.append hthis).append hargs hr)

theorem call_makes {f : Handle} {this : Option Handle} {args : List Handle}
    (hf : Usable A X K f.context f.refs) (hthis : ∀ h ∈ this, Usable A X K f.context h.refs)
    (hargs : ∀ h ∈ args, Usable A X K f.context h.refs) :
    A.Makes X K f.context (Host.call f this args) := by
  refine invoke_makes hf ?_ (Usable.passed rfl hargs)
  cases this with
  | none => exact Usable.nil
  | some h => exact hthis h rfl

theorem construct_makes {f : Handle} {args : List Handle} (hf : Usable A X K f.context f.refs)
    (hargs : ∀ h ∈ args, Usable A X K f.context h.refs) :
    A.Makes X K f.context (Host.construct f args) := by
  unfold Host.construct
  exact checked_makes fun r hr => Triple.ask_free rfl rfl (hf.append (Usable.passed rfl hargs) hr)

theorem callMethod_makes {h : Handle} {name : String} {args : List Handle}
    (hu : Usable A X K h.context h.refs) (hargs : ∀ a ∈ args, Usable A X K h.context a.refs) :
    A.Makes X K h.context (Host.callMethod h name args) := by
  unfold Host.callMethod
  refine Triple.bind (get_makes hu Usable.nil) fun f ⟨hf, hroot⟩ => ?_
  rw [← hf] at hu hargs hroot ⊢
  refine Triple.holding hroot (Makes.swap ?_)
  refine call_makes (Usable.own _) (fun a ha => ?_) fun a ha => (hargs a ha).more
  cases ha
  exact hu.more

theorem callBound_makes {b : BoundFunction} {args : List Handle}
    (hb : ∀ h ∈ b.handles, Usable A X K b.func.context h.refs)
    (hargs : ∀ a ∈ args, Usable A X K b.func.context a.refs) :
    A.Makes X K b.func.context (Host.callBound b args) := by
  unfold Host.callBound
  refine invoke_makes (hb _ (by simp [BoundFunction.handles]))
    (hb b.this (by simp [BoundFunction.handles])) ?_
  refine Usable.passed List.map_append.symm fun a ha => ?_
  rcases List.mem_append.1 ha with ha | ha
  · exact hb a (by simp [BoundFunction.handles, ha])
  · exact hargs a ha

/-! ## Binding -/

/-- Second references to all of some values, or to none. -/
theorem dupeEach_triple {hs : List Handle} (hu : ∀ h ∈ hs, Usable A X K h.context h.refs) :
    A.Triple X K (Host.dupeEach hs)
      (fun ds => ds = hs ∧ ∀ h ∈ hs, Rooted X h.context h.refs)
      (fun ds => (ds.flatMap Handle.refs : List Ref) + K) (A.Owing X K) := by
  induction hs generalizing K with
  | nil => exact Triple.pure ⟨rfl, by simp⟩ (zero_add K).symm
  | cons h hs ih =>
      refine Triple.bind (dupe_triple (hu h List.mem_cons_self)) ?_
      rintro d ⟨rfl, hroot⟩
      have htail := ih (K := d.refs + K) fun a ha => (hu a (List.mem_cons_of_mem _ ha)).more
      refine Triple.bind (Triple.tryCatch htail fun e =>
        Triple.bind (drop_spends hroot).sure fun _ _ => Triple.throw) ?_
      rintro ds ⟨rfl, hroots⟩
      refine Triple.pure ⟨rfl, ?_⟩ ?_
      · intro a ha
        rcases List.mem_cons.1 ha with rfl | ha
        · exact hroot
        · exact hroots a ha
      · rw [List.flatMap_cons, ← Multiset.coe_add, add_assoc, add_left_comm]

theorem bind_triple {f : Handle} {this : Option Handle} {leading : List Handle}
    (hf : Usable A X K f.context f.refs) (hthis : ∀ h ∈ this, Usable A X K h.context h.refs)
    (hleading : ∀ h ∈ leading, Usable A X K h.context h.refs) :
    A.Triple X K (Host.bind f this leading)
      (fun b => b = ⟨f, this.getD (Host.newUndefined f.context), leading⟩ ∧
        ∀ h ∈ b.handles, Rooted X h.context h.refs)
      (fun b => b.refs + K) (A.Owing X K) := by
  unfold Host.bind
  have hparts : ∀ h ∈ this.getD (Host.newUndefined f.context) :: leading ++ [f],
      Usable A X K h.context h.refs := by
    intro h hh
    rcases List.mem_append.1 hh with hh | hh
    · rcases List.mem_cons.1 hh with rfl | hh
      · cases this with
        | none => exact Usable.nil
        | some t => exact hthis t rfl
      · exact hleading h hh
    · rw [List.mem_singleton.1 hh]
      exact hf
  refine Triple.bind (dupeEach_triple hparts) ?_
  rintro ds ⟨rfl, hroots⟩
  -- The function is the last reference that is taken, and the first part of what is bound.
  have hlast : (leading.append [f]).dropLast = leading := List.dropLast_concat
  have hperm := List.perm_append_singleton f (this.getD (Host.newUndefined f.context) :: leading)
  refine Triple.pure ⟨?_, ?_⟩ ?_
  · exact congrArg (BoundFunction.mk f _) hlast
  · intro h hh
    simp only [BoundFunction.handles, hlast] at hh
    exact hroots h (hperm.mem_iff.2 hh)
  · refine congrArg (· + K) (Multiset.coe_eq_coe.2 ?_)
    simp only [BoundFunction.refs, BoundFunction.handles, hlast]
    exact hperm.flatMap_right _

theorem dropBound_spends {b : BoundFunction} (hb : ∀ h ∈ b.handles, Rooted X h.context h.refs) :
    A.Spends X b.refs K (Host.dropBound b) :=
  Spends.forM fun h hh _ => drop_spends (hb h hh)

theorem boundDiagnostic_keeps {b : BoundFunction} (hf : Usable A X K b.func.context b.func.refs) :
    A.Keeps X K (Host.boundDiagnostic b) := by
  unfold Host.boundDiagnostic
  exact (diagnostic_keeps hf).bind fun _ => Keeps.pure

/-! ## What a context looked up -/

/-- What a context looked up can be used in it. -/
theorem Usable.looked (hX : X.Tended) {l : List Ref} (hl : l ⊆ (X.entry c).cache.refs) :
    Usable A X K c l := by
  intro hc r hr
  exact .inr (Multiset.mem_add.2 (.inr (Contexts.mem_bag hc ((hX c).stocked hc (hl hr)))))

theorem Usable.value (hX : X.Tended) {v : Value} (hv : v ∈ (X.entry c).cache.values) :
    Usable A X K c (Ref.ofValue v) := by
  refine Usable.looked hX fun r hr => ?_
  exact List.mem_append_left _ (List.mem_flatMap.2 ⟨v, hv, hr⟩)

theorem Usable.key (hX : X.Tended) {k : Key} (hk : k ∈ (X.entry c).cache.keys) :
    Usable A X K c (Ref.ofKey k) := by
  refine Usable.looked hX fun r hr => ?_
  exact List.mem_append_right _ (List.mem_flatMap.2 ⟨k, hk, hr⟩)

theorem newSymbol_makes (hX : X.Tended) {description : Option Handle}
    (hd : ∀ h ∈ description, Usable A X K c h.refs) :
    A.Makes X K c (Host.newSymbol c description) := by
  unfold Host.newSymbol
  refine Triple.bind Triple.context fun x hx => ?_
  subst hx
  refine call_makes (f := ⟨c, _⟩) (Usable.value hX (by simp [Cache.values])) (by simp) ?_
  simpa using hd

theorem newError_makes (message : String) : A.Makes X K c (Host.newError c message) := by
  unfold Host.newError
  refine Triple.bind Triple.live fun r hr => ?_
  refine Triple.bind (Triple.ask_free rfl rfl (Usable.nil hr)) fun v _ => ?_
  refine Triple.bind (check_makes hr v) ?_
  rintro e ⟨rfl, hroot⟩
  refine Triple.tryCatch ?_ fun x => Triple.bind (drop_spends hroot).sure fun _ _ => Triple.throw
  refine Triple.bind (newString_makes message) fun v ⟨hv, hvroot⟩ => ?_
  refine Triple.bind (set_triple (hv ▸ hvroot) (Usable.own _) Usable.nil) fun _ _ => ?_
  exact Triple.pure ⟨rfl, hroot⟩ rfl

theorem newCached_makes (hX : X.Tended) {field : Cache → Value}
    (hfield : ∀ x : Cache, field x ∈ x.values) : A.Makes X K c (Host.newCached c field) := by
  unfold Host.newCached
  refine Triple.bind Triple.context fun x hx => ?_
  subst hx
  exact construct_makes (f := ⟨c, _⟩) (Usable.value hX (hfield _)) (by simp)

/-! ## Asking what values are -/

theorem isCached_keeps (hX : X.Tended) {h : Handle} {field : Cache → Value}
    (hfield : ∀ x : Cache, field x ∈ x.values) (hu : Usable A X K h.context h.refs) :
    A.Keeps X K (Host.isCached h field) := by
  unfold Host.isCached
  refine Triple.bind Triple.context fun x hx => ?_
  subst hx
  exact isInstance_keeps hu (Usable.value hX (hfield _))

theorem isArrayBuffer_keeps (hX : X.Tended) {h : Handle} (hu : Usable A X K h.context h.refs) :
    A.Keeps X K (Host.isArrayBuffer h) :=
  isCached_keeps hX (by simp [Cache.values]) hu

theorem isTypedArray_keeps (hX : X.Tended) {h : Handle} (kind : ElementKind)
    (hu : Usable A X K h.context h.refs) : A.Keeps X K (Host.isTypedArray h kind) := by
  refine isCached_keeps hX (fun x => ?_) hu
  exact List.mem_append_right _ (List.mem_map_of_mem (ElementKind.mem_all kind))

theorem firstKind_keeps {test : ElementKind → Action σ Bool} (ht : ∀ k, A.Keeps X K (test k))
    (ks : List ElementKind) : A.Keeps X K (Host.firstKind test ks) := by
  induction ks with
  | nil => exact Keeps.pure
  | cons k ks ih =>
      refine (ht k).bind fun b => ?_
      split
      · exact Keeps.pure
      · exact ih

theorem elementKind_keeps (hX : X.Tended) {h : Handle} (hu : Usable A X K h.context h.refs) :
    A.Keeps X K (Host.elementKind? h) := by
  unfold Host.elementKind?
  split
  · exact firstKind_keeps (fun k => isTypedArray_keeps hX k hu) _
  · exact Keeps.pure

/-! ## Sizes -/

/-- The property that tells the size is one that the context looked up. -/
theorem sizeKey_triple (hX : X.Tended) {h : Handle} (hu : Usable A X K h.context h.refs) :
    A.Triple X K (Host.sizeKey? h) (fun k => ∀ key ∈ k, Usable A X K h.context (Ref.ofKey key))
      (fun _ => K) (A.Owing X K) := by
  -- Every key that is looked up for a size is one that the context keeps to its end.
  have hkey : ∀ key ∈ (X.entry h.context).cache.keys,
      A.Triple X K (Pure.pure (some key) : Action σ (Option Key))
        (fun k => ∀ key ∈ k, Usable A X K h.context (Ref.ofKey key)) (fun _ => K)
        (A.Owing X K) := by
    intro key hkey
    refine Triple.pure (fun k hk => ?_) rfl
    cases hk
    exact Usable.key hX hkey
  unfold Host.sizeKey?
  refine Triple.bind Triple.context fun x hx => ?_
  subst hx
  refine (isCached_keeps hX (by simp [Cache.values]) hu).bind fun isArray => ?_
  split
  · exact hkey _ (by simp [Cache.keys])
  refine (elementKind_keeps hX hu).bind fun kind => ?_
  split
  · exact hkey _ (by simp [Cache.keys])
  refine (isCached_keeps hX (by simp [Cache.values]) hu).bind fun isMap => ?_
  split
  · exact hkey _ (by simp [Cache.keys])
  refine (isCached_keeps hX (by simp [Cache.values]) hu).bind fun isSet => ?_
  split
  · exact hkey _ (by simp [Cache.keys])
  refine (isArrayBuffer_keeps hX hu).bind fun isBuffer => ?_
  split
  · exact hkey _ (by simp [Cache.keys])
  · exact Triple.pure (by simp) rfl

theorem length_keeps (hX : X.Tended) {h : Handle} (hu : Usable A X K h.context h.refs) :
    A.Keeps X K (Host.length h) := by
  unfold Host.length
  refine Triple.bind (sizeKey_triple hX hu) fun k hk => ?_
  cases k with
  | none => exact (typeName_keeps hu).bind fun _ => Keeps.fail
  | some k =>
      refine Triple.bind (getKey_makes hu (hk k rfl)) fun v ⟨hv, hroot⟩ => ?_
      have hsize : A.Triple X (v.refs + K) (Host.holding v Host.toInt64) (fun _ => True)
          (fun _ => K) (A.Owing X K) :=
        Triple.holding (hv ▸ hroot) (toInt64_keeps (Usable.own _))
      refine Triple.bind hsize fun n _ => ?_
      split
      · exact Keeps.pure
      · exact Keeps.fail

theorem isEmpty_keeps (hX : X.Tended) {h : Handle} (hu : Usable A X K h.context h.refs) :
    A.Keeps X K (Host.isEmpty h) := by
  unfold Host.isEmpty
  exact (length_keeps hX hu).bind fun _ => Keeps.pure

/-! ## Scripts -/

theorem realmToRun_triple :
    A.Triple X K (Host.realmToRun c) (fun _ => X.isLive c) (fun _ => K) (A.Owing X K) := by
  unfold Host.realmToRun
  refine Triple.bind Triple.context fun x hx => ?_
  cases hr : x.realm with
  | none => exact Triple.fail
  | some r => exact Triple.pure (by simp [Contexts.isLive, ← hx, hr]) rfl

theorem evalWith_makes (source file : String) (mode : EvalMode) :
    A.Makes X K c (Host.evalWith c source file mode) := by
  unfold Host.evalWith
  refine Triple.bind realmToRun_triple fun r hr => ?_
  split
  · exact Triple.fail
  · exact Triple.bind (Triple.ask_free rfl rfl (Usable.nil hr)) fun v _ => check_makes hr v

theorem eval_makes (source : String) : A.Makes X K c (Host.eval c source) :=
  Triple.bind Triple.read fun _ _ => evalWith_makes _ _ _

theorem evalAsync_makes (source : String) : A.Makes X K c (Host.evalAsync c source) :=
  Triple.bind Triple.read fun _ _ => evalWith_makes _ _ _

/-- However many pieces of work are done, what a failing one threw is given back. -/
theorem runJobsUpTo_keeps (hc : X.isLive c) (realm : RealmId) (bound count : Nat) :
    A.Keeps X K (Host.runJobsUpTo c realm bound count) := by
  induction bound generalizing count with
  | zero => exact Keeps.pure
  | succ bound ih =>
      unfold Host.runJobsUpTo
      refine Triple.bind (Triple.inquiry rfl rfl (fun _ => rfl) (Usable.nil hc)) fun job _ => ?_
      cases job with
      | idle => exact Keeps.pure
      | done => exact ih _
      | failed r =>
          unfold Host.failedJob
          change A.Keeps X K (if r == realm then _ else _)
          split
          · exact throwPending_triple
          · refine Triple.bind (Triple.ask_free rfl rfl (Usable.nil hc)) fun e _ => ?_
            exact Triple.bind release_value_spends.sure fun _ _ => Triple.fail

theorem runPendingJobs_keeps : A.Keeps X K (Host.runPendingJobs c) := by
  intro s
  obtain ⟨bound, hbound⟩ := Host.runPendingJobs_eq c s
  rw [hbound]
  exact Triple.bind realmToRun_triple (fun r hr => runJobsUpTo_keeps hr r _ _) s

/-! ## Exchange of data -/

theorem parseJson_makes (text : String) : A.Makes X K c (Host.parseJson c text) := by
  unfold Host.parseJson
  exact checked_makes fun r hr => Triple.ask_free rfl rfl (Usable.nil hr)

theorem serialize_makes (d : HostData) : A.Makes X K c (Host.serialize c d) := by
  unfold Host.serialize
  split
  · exact parseJson_makes _
  · exact Triple.fail

theorem toJson_keeps {h : Handle} (hu : Usable A X K h.context h.refs) :
    A.Keeps X K (Host.toJson h) := by
  unfold Host.toJson
  refine Triple.bind Triple.live fun r hr => ?_
  refine Triple.bind (Triple.ask_free rfl rfl (hu hr)) fun v _ => ?_
  refine Triple.bind (check_makes hr v) fun v ⟨hv, hroot⟩ => ?_
  refine Triple.holding (hv ▸ hroot) ?_
  split
  · exact Keeps.pure
  · exact (toText_keeps (Usable.own _)).bind fun _ => Keeps.pure

theorem decode_keeps (s : Schema) (text : String) : A.Keeps X K (Host.decode s text) := by
  unfold Host.decode
  split
  · exact Keeps.pure
  · exact Keeps.fail

theorem deserialize_keeps {h : Handle} (hu : Usable A X K h.context h.refs) (s : Schema) :
    A.Keeps X K (Host.deserialize h s) := by
  unfold Host.deserialize
  refine (toJson_keeps hu).bind fun text => ?_
  cases text with
  | none => exact (typeName_keeps hu).bind fun _ => Keeps.fail
  | some text => exact decode_keeps s text

end Accounting

end ScriptHost
