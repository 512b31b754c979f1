import ScriptHost.Host.Properties
import ScriptHost.Proofs.Values
/-!
# Properties keep their accounts

A key that is made for a property is given back, and a value that is written is used up whatever
comes of it.
-/

namespace ScriptHost

/-- The references by which a property is named. -/
def PropertyName.refs : PropertyName → List Ref
  | key k => k.refs
  | text _ | index _ => []

namespace Accounting

variable {σ : Type} [Engine σ] {A : Accounting σ} {X : Contexts} {M K N : Multiset Ref}
  {c : ContextId} {α : Type}

/-! ## Naming properties -/

theorem requireObject_keeps {operation : String} {h : Handle}
    (hu : Usable A X K h.context h.refs) : A.Keeps X K (Host.requireObject operation h) := by
  unfold Host.requireObject
  split
  · exact (typeName_keeps hu).bind fun _ => Keeps.fail
  · exact Keeps.pure

theorem indexKey_makes {h : Handle} (i : Int) : A.MakesKey X K h.context (Host.indexKey h i) := by
  unfold Host.indexKey
  split
  · exact newIndexKey_makes _
  · exact Triple.fail

/-- What is done with a key is done whether the key is at hand or made for it. -/
theorem withKey_triple {h : Handle} {n : PropertyName} {x : Key → Action σ α} {Q : α → Prop}
    {R : α → Multiset Ref} (hn : Usable A X K h.context n.refs)
    (hx : ∀ L k, Usable A X (L + K) h.context (Ref.ofKey k) →
      A.Triple X (L + K) (x k) Q (fun a => L + R a) (A.Owing X (L + K))) :
    A.Triple X K (Host.withKey h n x) Q R (A.Owing X K) := by
  have hmade : ∀ y : Action σ KeyHandle, A.MakesKey X K h.context y →
      A.Triple X K (y >>= fun k => Host.holdingKey k fun k => x k.key) Q R (A.Owing X K) := by
    intro y hy
    refine Triple.bind hy fun k hk => ?_
    exact Triple.holdingKey (hk.1 ▸ hk.2) (hx _ _ (Usable.own _))
  cases n with
  | text s => exact hmade _ (newKey_makes s)
  | index i => exact hmade _ (indexKey_makes i)
  | key k =>
      change A.Triple X K (x k.key) Q R (A.Owing X K)
      have hkey := hx 0 k.key (by rwa [zero_add])
      simpa only [zero_add] using hkey

theorem withKey_keeps {h : Handle} {n : PropertyName} {x : Key → Action σ α}
    (hn : Usable A X K h.context n.refs)
    (hx : ∀ L k, Usable A X (L + K) h.context (Ref.ofKey k) → A.Keeps X (L + K) (x k)) :
    A.Keeps X K (Host.withKey h n x) :=
  withKey_triple hn hx

/-! ## By key -/

theorem getKey_makes {h : Handle} {k : Key} (hu : Usable A X K h.context h.refs)
    (hk : Usable A X K h.context (Ref.ofKey k)) : A.Makes X K h.context (Host.getKey h k) := by
  unfold Host.getKey
  exact checked_makes fun r hr => Triple.ask_free rfl rfl (hu.append hk hr)

theorem hasKey_keeps {h : Handle} {k : Key} (hu : Usable A X K h.context h.refs)
    (hk : Usable A X K h.context (Ref.ofKey k)) : A.Keeps X K (Host.hasKey h k) := by
  unfold Host.hasKey
  refine (requireObject_keeps hu).bind fun _ => ?_
  exact violated_keeps fun r hr => Triple.inquiry rfl rfl (fun _ => rfl) (hu.append hk hr)

theorem deleteKey_keeps {h : Handle} {k : Key} (hu : Usable A X K h.context h.refs)
    (hk : Usable A X K h.context (Ref.ofKey k)) : A.Keeps X K (Host.deleteKey h k) := by
  unfold Host.deleteKey
  refine (requireObject_keeps hu).bind fun _ => ?_
  refine Triple.bind Triple.live fun r hr => ?_
  refine Triple.bind (Triple.inquiry rfl rfl (fun _ => rfl) (hu.append hk hr)) fun own _ => ?_
  refine orViolation_keeps.bind fun own => ?_
  split
  · exact violated_keeps fun r hr => Triple.inquiry rfl rfl (fun _ => rfl) (hu.append hk hr)
  · exact Keeps.pure

/-- The value passes to the engine, or is given back if it never gets there. -/
theorem setKey_triple {h v : Handle} {k : Key} (hv : Rooted X v.context v.refs)
    (hu : Usable A X K h.context h.refs) (hk : Usable A X K h.context (Ref.ofKey k)) :
    A.Triple X (v.refs + K) (Host.setKey h k v) (fun _ => True) (fun _ => K) (A.Owing X K) := by
  unfold Host.setKey
  refine Triple.bind (Q := fun _ => X.isLive h.context) (R := fun _ => v.refs + K) ?_
    fun r hr => ?_
  · refine Triple.tryCatch ?_ fun e => Triple.bind (drop_spends hv).sure fun _ _ => Triple.throw
    exact (requireObject_keeps hu.more).bind fun _ => Triple.live
  · have huses : ∀ s ∈ (Request.set r h.value k v.value).uses,
        A.exempt s ∨ s ∈ (v.refs : Multiset Ref) + K + X.bag :=
      ((hu.more.append hk.more).append (Usable.own v.refs)) hr
    refine Triple.bind (Triple.ask rfl huses) fun b _ => ?_
    have hkeep : A.Keeps X K (Host.orViolation h.context "set_atom" b) := orViolation_keeps
    have hnone : A.Keeps X K (do let _ ← Host.orViolation h.context "set_atom" b) :=
      hkeep.bind fun _ => Keeps.pure
    exact (zero_add K).symm ▸ hnone

/-! ## By any name -/

theorem get_makes {h : Handle} {n : PropertyName} (hu : Usable A X K h.context h.refs)
    (hn : Usable A X K h.context n.refs) : A.Makes X K h.context (Host.get h n) := by
  unfold Host.get
  refine withKey_triple hn fun L k hk => ?_
  exact (getKey_makes hu.more hk).mono (fun _ hQ => ⟨hQ, add_left_comm _ _ _⟩) fun _ h => h

theorem has_keeps {h : Handle} {n : PropertyName} (hu : Usable A X K h.context h.refs)
    (hn : Usable A X K h.context n.refs) : A.Keeps X K (Host.has h n) :=
  withKey_keeps hn fun _ _ hk => hasKey_keeps hu.more hk

theorem delete_keeps {h : Handle} {n : PropertyName} (hu : Usable A X K h.context h.refs)
    (hn : Usable A X K h.context n.refs) : A.Keeps X K (Host.delete h n) :=
  withKey_keeps hn fun _ _ hk => deleteKey_keeps hu.more hk

theorem set_triple {h v : Handle} {n : PropertyName} (hv : Rooted X v.context v.refs)
    (hu : Usable A X K h.context h.refs) (hn : Usable A X K h.context n.refs) :
    A.Triple X (v.refs + K) (Host.set h n v) (fun _ => True) (fun _ => K) (A.Owing X K) := by
  have hmade : ∀ y : Action σ KeyHandle, (∀ L, A.MakesKey X L h.context y) →
      A.Triple X (v.refs + K)
        (do
          let k ← tryCatch y fun e => do
            Host.drop v
            throw e
          Host.holdingKey k fun k => Host.setKey h k.key v)
        (fun _ => True) (fun _ => K) (A.Owing X K) := by
    intro y hy
    refine Triple.bind (Triple.tryCatch (hy _) fun e =>
      Triple.bind (drop_spends hv).sure fun _ _ => Triple.throw) fun k hk => ?_
    refine Triple.holdingKey (hk.1 ▸ hk.2) ?_
    rw [add_left_comm]
    exact setKey_triple hv hu.more (Usable.own _)
  unfold Host.set
  cases n with
  | text s => exact hmade _ fun _ => newKey_makes s
  | index i => exact hmade _ fun _ => indexKey_makes i
  | key k => exact setKey_triple hv hu hn

/-! ## Keys of an object -/

theorem ownKeys_triple {h : Handle} {f : KeyFilter} (hu : Usable A X K h.context h.refs) :
    A.Triple X K (Host.ownKeys h f)
      (fun ks => ∀ k ∈ ks, k.context = h.context ∧ Rooted X k.context k.refs)
      (fun ks => (ks.flatMap KeyHandle.refs : List Ref) + K) (A.Owing X K) := by
  unfold Host.ownKeys
  refine (requireObject_keeps hu).bind fun _ => ?_
  refine Triple.bind Triple.live fun r hr => ?_
  refine Triple.bind (Triple.ask_free rfl rfl (hu hr)) fun ks _ => ?_
  refine Triple.bind (Q := fun _ => True) (R := fun ks => (ks.flatMap Ref.ofKey : List Ref) + K)
    (orViolation_triple ?_ ?_) fun ks _ => Triple.pure ?_ ?_
  · rintro ks rfl
    exact ⟨trivial, rfl⟩
  · rintro rfl
    exact zero_add K
  · intro k hk
    obtain ⟨key, -, rfl⟩ := List.mem_map.1 hk
    exact ⟨rfl, Rooted.of_isLive hr⟩
  · rw [List.flatMap_map]
    rfl

theorem dropKeys_spends {ks : List KeyHandle} (hks : ∀ k ∈ ks, Rooted X k.context k.refs) :
    A.Spends X (ks.flatMap KeyHandle.refs : List Ref) K (Host.dropKeys ks) :=
  Spends.forM fun k hk _ => dropKey_spends (hks k hk)

theorem keys_keeps {h : Handle} (hu : Usable A X K h.context h.refs) :
    A.Keeps X K (Host.keys h) := by
  unfold Host.keys
  refine Triple.bind (ownKeys_triple hu) fun ks hks => ?_
  refine Triple.ensuring (Keeps.mapM fun k hk => keyText_keeps ?_) fun _ =>
    dropKeys_spends fun k hk => (hks k hk).2
  intro _ r hr
  exact .inr (by
    simp only [Multiset.mem_add, Multiset.mem_coe, List.mem_flatMap]
    exact .inl (.inl ⟨k, hk, hr⟩))

end Accounting

end ScriptHost
