import ScriptHost.Host.Contexts
import ScriptHost.Proofs.Lookup
/-!
# Contexts keep their accounts

Making, freeing and forgetting contexts, and letting references wait for their ends, change the
table of contexts; what the host has besides stays the same.
-/

namespace ScriptHost

namespace Contexts

/-- Two tables that differ in one context at most. -/
def SameBut (c : ContextId) (X Y : Contexts) : Prop :=
  ∀ d, d ≠ c → Y.entry d = X.entry d ∧ (d ∈ X → d ∈ Y)

/-- A table in which every context, save one perhaps, is as live as before and lets as much wait, or
more. -/
def Grown (c? : Option ContextId) (X Y : Contexts) : Prop :=
  ∀ d, c? ≠ some d → Y.isLive d = X.isLive d ∧ (d ∈ X → d ∈ Y) ∧
    (X.entry d).waiting ⊆ (Y.entry d).waiting

theorem Grown.refl (c? : Option ContextId) (X : Contexts) : X.Grown c? X :=
  fun _ _ => ⟨rfl, id, List.Subset.refl _⟩

theorem SameBut.grown {c : ContextId} {X Y : Contexts} (h : X.SameBut c Y) :
    X.Grown (some c) Y := by
  intro d hd
  obtain ⟨hentry, hmem⟩ := h d fun heq => hd (congrArg some heq.symm)
  rw [isLive, hentry]
  exact ⟨rfl, hmem, List.Subset.refl _⟩

theorem SameBut.trans {c : ContextId} {X Y Z : Contexts} (hXY : X.SameBut c Y)
    (hYZ : Y.SameBut c Z) : X.SameBut c Z := by
  intro d hd
  obtain ⟨hentry, hmem⟩ := hXY d hd
  obtain ⟨hentry', hmem'⟩ := hYZ d hd
  exact ⟨hentry'.trans hentry, fun h => hmem' (hmem h)⟩

theorem sameBut_insert (X : Contexts) (c : ContextId) (x : Context) :
    X.SameBut c (X.insert c x) := by
  intro d hd
  exact ⟨by rw [entry_insert, if_neg (Ne.symm hd)], fun h => by simp [h]⟩

theorem sameBut_modify {X : Contexts} {c : ContextId} (hc : c ∈ X) (f : Context → Context) :
    X.SameBut c (X.modify c f) := by
  intro d hd
  exact ⟨by rw [entry_modify hc, if_neg (Ne.symm hd)], fun h => Std.TreeMap.mem_modify.2 h⟩

theorem sameBut_erase (X : Contexts) (c : ContextId) : X.SameBut c (X.erase c) := by
  intro d hd
  refine ⟨by rw [entry_erase, if_neg (Ne.symm hd)], fun h => ?_⟩
  exact Std.TreeMap.mem_erase.2 ⟨fun heq => hd (Std.LawfulEqCmp.eq_of_compare heq).symm, h⟩

/-- A freed context with which nothing waits is tended. -/
theorem tended_of_ended {x : Context} (hrealm : x.realm = none) (hwaiting : x.waiting = []) :
    x.Tended := by
  refine ⟨?_, ?_, fun _ => hwaiting⟩ <;> simp [hrealm]

/-- A table is tended if it was before and the context that changed is. -/
theorem SameBut.tended {c : ContextId} {X Y : Contexts} (h : X.SameBut c Y) (hX : X.Tended)
    (hc : (Y.entry c).Tended) : Y.Tended := by
  intro d
  by_cases heq : d = c
  · rwa [heq]
  · rw [(h d heq).1]
    exact hX d

end Contexts

namespace Accounting

variable {σ : Type} [Engine σ] {A : Accounting σ} {X : Contexts} {M K N : Multiset Ref}
  {c : ContextId} {α : Type}

/-- An action that cannot stop comes to its end. -/
theorem Triple.run {x : Action σ α} {Q : α → Prop} {R : α → Multiset Ref} {h : Host σ}
    (hx : A.Triple X M x Q R fun _ => False) (hh : A.Owing X M h) :
    ∃ a h', x h = (.ok a, h') ∧ Q a ∧ A.Owing X (R a) h' := by
  have hx := hx h hh
  rcases hxh : x h with ⟨_ | a, h'⟩
  · rw [hxh] at hx
    exact hx.elim
  · rw [hxh] at hx
    exact ⟨a, h', rfl, hx⟩

/-- A host whose table of contexts changes has other references besides. -/
theorem Owing.update {Y : Contexts} {h : Host σ} (hh : A.Owing X M h)
    (hbag : M + X.bag = N + Y.bag) : A.Owing Y N { h with contexts := Y } :=
  ⟨rfl, hbag ▸ hh.books⟩

/-! ## Giving back and looking up -/

theorem drain_spends (realm : RealmId) (table : Array Ref) :
    A.Spends X (Ref.inTable table) K (Host.drain realm table) := by
  refine Triple.bind (Spends.forM fun r _ L => ?_) fun _ _ => Triple.report
  cases r with
  | value v => exact release_value_spends
  | key k =>
      have h : A.Spends X ([.key k].flatMap Ref.counted : List Ref) L
          (Host.ask (.release realm [.key k])) := release_spends
      rwa [List.flatMap_singleton] at h

theorem globalOf_triple :
    A.Triple X K (Host.globalOf c) (fun h => h = ⟨c, (X.entry c).cache.global⟩) (fun _ => K)
      (A.Owing X K) := by
  unfold Host.globalOf
  exact Triple.bind Triple.context fun x hx => Triple.pure (hx ▸ rfl) rfl

/-! ## Making contexts -/

/-- If a context is made the table stays tended; if it is not made, nothing of it is left. -/
theorem contextOf_ends {h : Host σ} (hh : A.Owing X K h) (hX : X.Tended) (hc : c ∉ X)
    (realm : Option RealmId) :
    Ends (Host.contextOf c realm h)
      (fun _ h' => ∃ Y, X.SameBut c Y ∧ Y.Tended ∧ A.Owing Y K h') (A.Owing X K) := by
  cases realm with
  | none => exact Ends.error rfl hh
  | some realm =>
      have hempty : A.Owing X ((Ref.inTable #[] : List Ref) + K) h := by
        simpa [Ref.inTable] using hh
      refine Ends.bind (Triple.sure (load_gathers realm #[] (List.nil_subset _)) h hempty) ?_
      rintro ⟨result, table⟩ h₁ ⟨⟨-, hlooked⟩, hh₁⟩
      cases result with
      | ok cache =>
          have hbut := Contexts.sameBut_insert X c ⟨some realm, cache, table, false⟩
          refine Ends.ok rfl ⟨_, hbut, hbut.tended hX ?_, ?_⟩
          · rw [Contexts.entry_insert, if_pos rfl]
            exact ⟨fun _ => rfl, fun _ => hlooked cache rfl, by simp⟩
          · refine ⟨congrArg (fun Y : Contexts => Y.insert c _) hh₁.contexts, ?_⟩
            rw [Contexts.bag_insert hc, ← add_assoc, add_comm K]
            exact hh₁.books
      -- Where something is missing, what was looked up so far is given back, and the realm is
      -- closed.
      | error name =>
          refine Ends.bind ((drain_spends realm table).sure h₁ hh₁) fun _ h₂ hh₂ => ?_
          have hclose : A.Triple X K (do
              Host.ask (.closeRealm realm)
              Host.report (.contextAborted (.missingGlobal name))
              Host.fail (.missingGlobal name) : Action σ Unit)
              (fun _ => False) (fun _ => K) (A.Owing X K) := by
            refine Triple.bind (Triple.inquiry_unnamed rfl rfl (fun _ => rfl) rfl)
              fun _ _ => ?_
            exact Triple.bind Triple.report fun _ _ => Triple.fail
          exact (hclose h₂ hh₂.2).mono (fun _ _ hfalse => hfalse.1.elim) fun _ h => h

theorem newContext_ends {h : Host σ} (hh : A.Owing X K h) (hX : X.Tended) (hc : c ∉ X) :
    Ends (Host.newContext c h)
      (fun _ h' => ∃ Y, X.SameBut c Y ∧ Y.Tended ∧ A.Owing Y K h') (A.Owing X K) := by
  have hask : A.Triple X K (Host.ask .openRealm) (fun _ => True) (fun _ => K) (A.Owing X K) :=
    Triple.inquiry_unnamed rfl rfl (fun _ => rfl) rfl
  exact Ends.bind (hask h hh) fun realm h₁ hh₁ => contextOf_ends hh₁.2 hX hc realm

theorem newBareContext_ends {h : Host σ} (hh : A.Owing X K h) (hX : X.Tended) (hc : c ∉ X)
    (features : Option (List Feature)) :
    Ends (Host.newBareContext c features h)
      (fun _ h' => ∃ Y, X.SameBut c Y ∧ Y.Tended ∧ A.Owing Y K h') (A.Owing X K) := by
  cases features with
  | none => exact contextOf_ends hh hX hc none
  | some fs =>
      have hask : A.Triple X K (Host.ask (.openBare fs)) (fun _ => True) (fun _ => K)
          (A.Owing X K) :=
        Triple.inquiry_unnamed rfl rfl (fun _ => rfl) rfl
      exact Ends.bind (hask h hh) fun realm h₁ hh₁ => contextOf_ends hh₁.2 hX hc realm

/-! ## Freeing contexts -/

theorem updateContext_ends {f : Context → Context} {stop : Host σ → Prop} {h : Host σ}
    (hh : A.Owing X M h) (hbag : M + X.bag = N + Contexts.bag (X.modify c f)) :
    Ends (Host.updateContext c f h) (fun _ => A.Owing (X.modify c f) N) stop :=
  Ends.ok rfl ⟨congrArg (fun Y : Contexts => Y.modify c f) hh.contexts, hbag ▸ hh.books⟩

/-- A context with which nothing waits any more. -/
def spent (x : Context) : Context := { x with deferred := #[], drained := true }

/-- A context without its realm. -/
def ended (x : Context) : Context := { x with realm := none }

/-- A context that is freed gives back what waits for its end, and nothing stops it. -/
theorem freeContext_ends {h : Host σ} (hh : A.Owing X K h) (hX : X.Tended) :
    Ends (Host.freeContext c h)
      (fun _ h' => ∃ Y, X.SameBut c Y ∧ Y.Tended ∧ Y.isLive c = false ∧ A.Owing Y K h')
      fun _ => False := by
  refine Ends.bind (Triple.context (c := c) h hh) ?_
  rintro x h₁ ⟨hx, hh₁⟩
  cases hr : x.realm with
  | none =>
      refine Ends.ok rfl ⟨X, fun d _ => ⟨rfl, id⟩, hX, ?_, hh₁⟩
      simp [Contexts.isLive, ← hx, hr]
  | some realm =>
      have hlive : X.isLive c := by simp [Contexts.isLive, ← hx, hr]
      have hc : c ∈ X := Contexts.mem_of_isLive hlive
      -- What waited is the host's own from here on, and it is given back.
      have hspent : Contexts.entry (X.modify c spent) c = spent x := by
        rw [Contexts.entry_modify hc, if_pos rfl, hx]
      have hbag : K + X.bag = (x.waiting + K) + Contexts.bag (X.modify c spent) := by
        have h := Contexts.bag_modify hc spent
        rw [← hx, show (spent x).waiting = [] from rfl, Multiset.coe_nil, zero_add] at h
        rw [← h, add_comm (Contexts.bag _), ← add_assoc, add_comm K]
      refine Ends.bind (updateContext_ends hh₁ hbag) fun _ h₂ hh₂ => ?_
      refine Ends.bind ((drain_spends realm x.deferred).sure h₂ hh₂) fun _ h₃ hh₃ => ?_
      have hclose : A.Triple (X.modify c spent) K (Host.ask (.closeRealm realm)) (fun _ => True)
          (fun _ => K) fun _ => False :=
        Triple.inquiry_unnamed rfl rfl (fun _ => rfl) rfl
      refine Ends.bind (hclose h₃ hh₃.2) fun _ h₄ hh₄ => ?_
      -- Without its realm the context lets wait what it let wait before: nothing.
      have hmem : c ∈ (X.modify c spent : Contexts) := Std.TreeMap.mem_modify.2 hc
      have hended : Contexts.entry ((X.modify c spent).modify c ended) c = ended (spent x) := by
        rw [Contexts.entry_modify hmem, if_pos rfl, hspent]
      have hbag' : K + Contexts.bag (X.modify c spent) =
          K + Contexts.bag ((X.modify c spent).modify c ended) := by
        have h := Contexts.bag_modify hmem ended
        rw [hspent] at h
        simpa [spent, ended, Context.waiting, Ref.inTable] using h.symm
      refine Ends.bind (updateContext_ends hh₄.2 hbag') fun _ h₅ hh₅ => ?_
      have hbut := (Contexts.sameBut_modify hc spent).trans (Contexts.sameBut_modify hmem ended)
      have hreport : A.Triple ((X.modify c spent).modify c ended) K
          (Host.report (.contextFreed x.deferred.size)) (fun _ => True) (fun _ => K)
          fun _ => False := Triple.report
      refine (hreport h₅ hh₅).mono (fun _ h₆ hh₆ => ?_) fun _ h => h
      refine ⟨_, hbut, hbut.tended hX ?_, ?_, hh₆.2⟩
      · rw [hended]
        exact Contexts.tended_of_ended rfl rfl
      · rw [Contexts.isLive, hended]
        rfl

theorem dropContext_ends {h : Host σ} (hh : A.Owing X K h) (hX : X.Tended) :
    Ends (Host.dropContext c h)
      (fun _ h' => ∃ Y, X.SameBut c Y ∧ Y.Tended ∧ A.Owing Y K h') fun _ => False := by
  refine Ends.bind (freeContext_ends hh hX) ?_
  rintro _ h₁ ⟨Y, hbut, hY, hdead, hh₁⟩
  have hbag : K + Y.bag = K + Contexts.bag (Y.erase c) := by
    by_cases hc : c ∈ Y
    · have hended := (hY c).ended (by simpa [Contexts.isLive] using hdead)
      rw [Contexts.bag_erase hc, hended, Multiset.coe_nil, zero_add]
    · rw [Contexts.bag_erase_of_not_mem hc]
  have hbut' := hbut.trans (Contexts.sameBut_erase Y c)
  refine Ends.ok rfl ⟨Y.erase c, hbut', hbut'.tended hX ?_,
    congrArg (fun Z : Contexts => Z.erase c) hh₁.contexts, hbag ▸ hh₁.books⟩
  rw [Contexts.entry_erase, if_pos rfl]
  exact Contexts.tended_of_ended rfl rfl

/-! ## Waiting for the end of a context -/

/-- A context that lets one more reference wait. -/
def withRef (r : Ref) (x : Context) : Context := { x with deferred := x.deferred.push r }

theorem waiting_withRef (r : Ref) (x : Context) :
    (withRef r x).waiting = x.waiting ++ r.counted := by
  simp [withRef, Context.waiting, Ref.inTable]

theorem bag_withRef {r : Ref} (hc : c ∈ X) :
    Contexts.bag (X.modify c (withRef r)) = r.counted + X.bag := by
  have h := Contexts.bag_modify hc (withRef r)
  rw [waiting_withRef, ← Multiset.coe_add, add_assoc, add_comm] at h
  exact add_left_cancel h

theorem grown_withRef {r : Ref} (hc : c ∈ X) : X.Grown none (X.modify c (withRef r)) := by
  intro d _
  rw [Contexts.isLive, Contexts.entry_modify hc]
  refine ⟨?_, fun h => Std.TreeMap.mem_modify.2 h, ?_⟩
  · split
    next heq => rw [← heq]; rfl
    next => rfl
  · split
    next heq =>
      rw [← heq, waiting_withRef]
      exact List.subset_append_left _ _
    next => exact List.Subset.refl _

/-- A live context that lets one more reference wait is tended as before. -/
theorem tended_withRef {r : Ref} {x : Context} (hx : x.Tended) (hlive : x.realm.isSome) :
    (withRef r x).Tended := by
  refine ⟨hx.undrained, fun hsome => ?_, fun hnone => ?_⟩
  · rw [waiting_withRef]
    exact List.Subset.trans (hx.stocked hsome) (List.subset_append_left _ _)
  · have hrealm : x.realm = none := hnone
    rw [hrealm] at hlive
    cases hlive

/-- A reference that is to wait waits with a live context, and there is none for another one. -/
theorem defer_ends {h : Host σ} {r : Ref} (hh : A.Owing X (r.counted + K) h) (hX : X.Tended)
    (hr : Rooted X c r.counted) :
    Ends (Host.defer c r h)
      (fun _ h' => ∃ Y, X.Grown none Y ∧ Y.Tended ∧ c ∈ Y ∧ r.counted ⊆ (Y.entry c).waiting ∧
        A.Owing Y K h')
      (A.Owing X K) := by
  refine Ends.bind (Triple.context (c := c) h hh) ?_
  rintro x h₁ ⟨rfl, hh₁⟩
  -- What is rooted in a context that is not live has no references to let wait.
  cases hlive : X.isLive c with
  | false =>
      have hnone : (X.entry c).realm = none := by simpa [Contexts.isLive] using hlive
      have hempty : r.counted = [] := by
        by_contra hne
        rw [hr hne] at hlive
        cases hlive
      rw [hnone, Option.isNone_none, Bool.or_true, if_pos rfl]
      rw [hempty, Multiset.coe_nil, zero_add] at hh₁
      exact Ends.error rfl hh₁
  | true =>
      have hsome : (X.entry c).realm.isSome := hlive
      have hc : c ∈ X := Contexts.mem_of_isLive hlive
      have hopen : ((X.entry c).drained || (X.entry c).realm.isNone) = false := by
        rw [(hX c).undrained hsome, Bool.false_or, Option.isNone_eq_false_iff]
        exact hsome
      rw [hopen, if_neg (by simp)]
      have hbag : (r.counted + K) + X.bag = K + Contexts.bag (X.modify c (withRef r)) := by
        rw [bag_withRef hc, add_comm (r.counted : Multiset Ref), add_assoc]
      have hentry : Contexts.entry (X.modify c (withRef r)) c = withRef r (X.entry c) := by
        rw [Contexts.entry_modify hc, if_pos rfl]
      refine Ends.bind (updateContext_ends hh₁ hbag) fun _ h₂ hh₂ => ?_
      have hreport : A.Triple (X.modify c (withRef r)) K
          (do Host.report (.releaseDeferred (← Host.pendingReleases c)) : Action σ Unit)
          (fun _ => True) (fun _ => K) (A.Owing X K) := by
        have hcount : A.Triple (X.modify c (withRef r)) K (Host.pendingReleases c)
            (fun _ => True) (fun _ => K) (A.Owing X K) :=
          Triple.bind Triple.context fun _ _ => Triple.pure trivial rfl
        exact Triple.bind hcount fun _ _ => Triple.report
      refine (hreport h₂ hh₂).mono (fun _ h₃ hh₃ => ?_) fun _ h => h
      refine ⟨_, grown_withRef hc, ?_, Std.TreeMap.mem_modify.2 hc, ?_, hh₃.2⟩
      · refine (Contexts.sameBut_modify hc (withRef r)).tended hX ?_
        rw [hentry]
        exact tended_withRef (hX c) hsome
      · rw [hentry, waiting_withRef]
        exact List.subset_append_right _ _

end Accounting

end ScriptHost
