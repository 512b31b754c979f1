import ScriptHost.Client.Record
import ScriptHost.Proofs.Contexts
import ScriptHost.Proofs.Registering
/-!
# How contexts come and go

What a context that is made starts with, what freeing it asks of the engine, request by request, and
what is reported of both.  Whatever becomes of one context, every other one stays as it is.
-/

namespace ScriptHost

open Accounting (Ends bind_ok bind_error ask_eq context_ok withRef spent ended)

theorem Contexts.sameBut_of_eq {c : ContextId} {X Y : Contexts} (h : Y = X) : X.SameBut c Y := by
  intro d _
  rw [h]
  exact ⟨rfl, id⟩

/-! ## Requests in a row -/

/-- A host whose engine was asked some requests in a row, and to which nothing else happened. -/
structure Host.Asked {σ : Type} (qs : List Request) (h h' : Host (Recorded σ)) : Prop where
  contexts : h'.contexts = h.contexts
  settings : h'.settings = h.settings
  told : h'.told = h.told
  history : ∃ new : History σ, h'.engine.history = new ++ h.engine.history ∧ new.requests = qs

namespace Host.Asked

variable {σ : Type} [Engine σ] {qs qs' : List Request} {h h₁ h₂ : Host (Recorded σ)}

omit [Engine σ] in
theorem requests_append (new old : History σ) :
    History.requests (new ++ old) = old.requests ++ new.requests := by
  simp [History.requests]

omit [Engine σ] in
theorem requests (hasked : Host.Asked qs h h₁) :
    h₁.engine.history.requests = h.engine.history.requests ++ qs := by
  obtain ⟨new, hnew, hqs⟩ := hasked.history
  rw [hnew, requests_append, hqs]

omit [Engine σ] in
theorem refl (h : Host (Recorded σ)) : Host.Asked [] h h := ⟨rfl, rfl, rfl, [], rfl, rfl⟩

omit [Engine σ] in
theorem trans (hasked : Host.Asked qs h h₁) (hasked' : Host.Asked qs' h₁ h₂) :
    Host.Asked (qs ++ qs') h h₂ where
  contexts := hasked'.contexts.trans hasked.contexts
  settings := hasked'.settings.trans hasked.settings
  told := hasked'.told.trans hasked.told
  history := by
    obtain ⟨new, hnew, hqs⟩ := hasked.history
    obtain ⟨new', hnew', hqs'⟩ := hasked'.history
    refine ⟨new' ++ new, by rw [hnew', hnew, List.append_assoc], ?_⟩
    rw [requests_append, hqs, hqs']

theorem ask (q : Request) (h : Host (Recorded σ)) : Host.Asked [q] h (Host.ask q h).2 where
  contexts := Host.contexts_ask q h
  settings := Host.settings_ask q h
  told := Host.told_ask q h
  history := by
    refine ⟨[h.engine.exchange q], ?_, rfl⟩
    rw [Host.engine_ask, Recorded.answer_history, List.singleton_append]

end Host.Asked

namespace Host

variable {σ : Type} [Engine σ] {c : ContextId} {r : RealmId}

omit [Engine σ] in
@[simp] theorem length_requests (history : History σ) : history.requests.length = history.length := by
  simp [History.requests]

/-! ## Draining -/

omit [Engine σ] in
/-- Things that make some requests each, as the table of contexts tells, make them in their order. -/
theorem forM_asks {α : Type} {f : α → Action (Recorded σ) Unit} {q : α → List Request}
    {l : List α} {X : Contexts} (hf : ∀ a ∈ l, ∀ h, h.contexts = X →
      ∃ h', f a h = (.ok (), h') ∧ Host.Asked (q a) h h')
    (h : Host (Recorded σ)) (hX : h.contexts = X) :
    ∃ h', l.forM f h = (.ok (), h') ∧ Host.Asked (l.flatMap q) h h' := by
  induction l generalizing h with
  | nil => exact ⟨h, rfl, .refl h⟩
  | cons a l ih =>
      obtain ⟨h₁, hrun, hasked⟩ := hf a List.mem_cons_self h hX
      obtain ⟨h₂, hrun', hasked'⟩ := ih (fun a ha => hf a (List.mem_cons_of_mem _ ha)) h₁
        (hasked.contexts.trans hX)
      exact ⟨h₂, (bind_ok hrun).trans hrun', hasked.trans hasked'⟩

/-- Gives one reference back, as `drain` does with each. -/
def handBack (r : RealmId) : Ref → Action σ Unit
  | .value v => Host.ask (.release r (Ref.ofValue v))
  | .key k => Host.ask (.release r [.key k])

theorem handBack_run (r : RealmId) (x : Ref) (h : Host σ) :
    handBack r x h = (.ok (), (Host.ask (x.release r) h).2) := by
  cases x <;> rfl

theorem drain_eq (r : RealmId) (table : Array Ref) : (Host.drain r table : Action σ Unit) = (do
    table.toList.forM (handBack r)
    report (.releasesDrained table.size)) := by
  unfold Host.drain
  congr 2

/-- Everything that waited is given back, each reference once and the oldest first, and then the
number is reported. -/
theorem drain_asks (r : RealmId) (table : Array Ref) (h : Host (Recorded σ)) :
    ∃ h', Host.drain r table h = (.ok (), h') ∧ h'.contexts = h.contexts ∧
      h'.settings = h.settings ∧ h'.told = h.told ++ [.releasesDrained table.size] ∧
      h'.engine.history.requests =
        h.engine.history.requests ++ table.toList.map (Ref.release r) := by
  obtain ⟨h₁, hrun, hasked⟩ := forM_asks (q := fun x => [x.release r]) (l := table.toList)
    (fun x _ h _ => ⟨_, handBack_run r x h, .ask (x.release r) h⟩) h rfl
  rw [← List.map_eq_flatMap] at hasked
  refine ⟨{ h₁ with log := h₁.log.push (.releasesDrained table.size) }, ?_,
    hasked.contexts, hasked.settings, ?_, hasked.requests⟩
  · rw [drain_eq, bind_ok hrun]
    rfl
  rw [told_report _ _ rfl, hasked.told]

/-! ## Freeing -/

omit [Engine σ] in
theorem contexts_entry_modify {X : Contexts} {f : Context → Context} {x : Context}
    (hx : X.entry c = x) (hlive : x.realm.isSome) : Contexts.entry (X.modify c f) c = f x := by
  have hc : c ∈ X := Contexts.mem_of_isLive (c := c) (by rw [Contexts.isLive, hx]; exact hlive)
  rw [Contexts.entry_modify hc, if_pos rfl, hx]

/-- A live context that is freed gives back everything that waited, and then its realm; the reports
tell how many references there were. -/
theorem freeContext_asks {h : Host (Recorded σ)} {x : Context}
    (hx : Contexts.entry h.contexts c = x) (hr : x.realm = some r) :
    ∃ h', Host.freeContext c h = (.ok (), h') ∧ Contexts.SameBut c h.contexts h'.contexts ∧
      Contexts.entry h'.contexts c = ended (spent x) ∧
      h'.told = h.told ++ [.releasesDrained x.deferred.size, .contextFreed x.deferred.size] ∧
      h'.engine.history.requests =
        h.engine.history.requests ++ (x.deferred.toList.map (Ref.release r) ++ [.closeRealm r]) := by
  -- First nothing more can wait, then what waited is given back, and only then is the realm closed.
  let h₁ : Host (Recorded σ) := { h with contexts := h.contexts.modify c spent }
  have hx₁ : Contexts.entry h₁.contexts c = spent x := contexts_entry_modify hx (by simp [hr])
  obtain ⟨h₂, hdrain, hcontexts₂, -, htold₂, hrequests₂⟩ := drain_asks r x.deferred h₁
  have hclose := Host.Asked.ask (.closeRealm r) h₂
  obtain ⟨h₃, hrun₃, -⟩ := ask_eq (.closeRealm r) h₂
  rw [hrun₃] at hclose
  have hx₃ : Contexts.entry h₃.contexts c = spent x := by rw [hclose.contexts, hcontexts₂, hx₁]
  let h₄ : Host (Recorded σ) := { h₃ with contexts := h₃.contexts.modify c ended }
  have hbut : Contexts.SameBut c h.contexts h₄.contexts := by
    have hmem : ∀ {X : Contexts}, (X.entry c).realm.isSome → c ∈ X := Contexts.mem_of_isLive
    have hspent : h₃.contexts = h.contexts.modify c spent := hclose.contexts.trans hcontexts₂
    refine (Contexts.sameBut_modify (hmem (by simp [hx, hr])) spent).trans ?_
    rw [← hspent]
    exact Contexts.sameBut_modify (hmem (by simp [hx₃, spent, hr])) ended
  refine ⟨{ h₄ with log := h₄.log.push (.contextFreed x.deferred.size) }, ?_, hbut,
    contexts_entry_modify hx₃ (by simp [spent, hr]), ?_, ?_⟩
  · rw [Host.freeContext, bind_ok (context_ok c h), hx, hr]
    have hupdate : Host.updateContext c spent h = (.ok (), h₁) := rfl
    exact (bind_ok hupdate).trans ((bind_ok hdrain).trans ((bind_ok hrun₃).trans rfl))
  · rw [told_report _ _ rfl]
    have htold : h₄.told = h.told ++ [.releasesDrained x.deferred.size] := by
      rw [show h₄.told = h₃.told from rfl, hclose.told, htold₂]
      rfl
    rw [htold, List.append_assoc]
    rfl
  · rw [← List.append_assoc]
    exact hclose.requests.trans (congrArg (· ++ _) hrequests₂)

/-- A context that was freed is freed again without any doing. -/
theorem freeContext_again {h : Host σ}
    (hr : (Contexts.entry h.contexts c).realm = none) : Host.freeContext c h = (.ok (), h) := by
  rw [Host.freeContext, bind_ok (context_ok c h), hr]
  rfl

/-! ## Making -/

/-- A context was made: it waits to give back just what it looked up, and each of these references
was reported. -/
def Opened (c : ContextId) (h h' : Host σ) : Prop :=
  ∃ r cache, h'.contexts = h.contexts.insert c ⟨some r, cache, cache.entries.toArray, false⟩ ∧
    h'.told = h.told ++ (Event.registrations 0 cache.entries.length ++
      [.contextCreated cache.entries.length])

/-- If a context is not made, the table of contexts stays as it was. -/
theorem contextOf_opens (c : ContextId) (realm : Option RealmId) (h : Host (Recorded σ)) :
    Ends (Host.contextOf c realm h) (fun _ => h.Opened c) fun h' => h'.contexts = h.contexts := by
  cases realm with
  | none => exact Ends.error rfl rfl
  | some r =>
      obtain ⟨result, table, h₁, hload, hreg, htable⟩ := Accounting.load_looks r h
      cases result with
      | ok cache =>
          have hentries : table = cache.entries.toArray := by simp [← htable cache rfl]
          subst hentries
          let h₂ : Host (Recorded σ) :=
            { h₁ with log := h₁.log.push (.contextCreated cache.entries.toArray.size) }
          have htold : h₂.told = _ := told_report _ _ rfl
          simp only [hreg.told, List.append_assoc, List.size_toArray, List.length_nil] at htold
          refine Ends.ok (h := { h₂ with contexts := h₂.contexts.insert c _ })
            ((bind_ok hload).trans rfl) ⟨r, cache, ?_, htold⟩
          exact congrArg (fun X : Contexts => X.insert c _) hreg.contexts
      | error name =>
          -- What was found is given back at once, and no context is entered.
          obtain ⟨h₂, hdrain, hcontexts, -⟩ := drain_asks r table h₁
          obtain ⟨h₃, hclose, hcontexts', -⟩ := ask_eq (.closeRealm r) h₂
          refine Ends.error
            (h := { h₃ with log := h₃.log.push (.contextAborted (.missingGlobal name)) })
            ((bind_ok hload).trans ((bind_ok hdrain).trans ((bind_ok hclose).trans rfl))) ?_
          exact hcontexts'.trans (hcontexts.trans hreg.contexts)

/-- A realm is asked for, and a context is made of it, if there is one. -/
theorem opens_after_ask {q : Request} {x : Action (Recorded σ) Unit} {realm : Option RealmId}
    {h : Host (Recorded σ)} (hx : x h = Host.contextOf c realm (Host.ask q h).2) :
    Ends (x h) (fun _ => h.Opened c) fun h' => h'.contexts = h.contexts := by
  obtain ⟨hcontexts, -, htold⟩ := HostFrame.quiet.ask q h
  rw [hx]
  refine (contextOf_opens c realm _).mono ?_ fun h' hsame => hsame.trans hcontexts
  rintro - h' ⟨r, cache, hinsert, htold'⟩
  exact ⟨r, cache, hcontexts ▸ hinsert, htold ▸ htold'⟩

theorem newContext_opens (c : ContextId) (h : Host (Recorded σ)) :
    Ends (Host.newContext c h) (fun _ => h.Opened c) fun h' => h'.contexts = h.contexts :=
  opens_after_ask (q := .openRealm) (bind_ok rfl)

theorem newBareContext_opens (c : ContextId) (features : Option (List Feature))
    (h : Host (Recorded σ)) :
    Ends (Host.newBareContext c features h) (fun _ => h.Opened c)
      fun h' => h'.contexts = h.contexts := by
  cases features with
  | none => exact contextOf_opens c none h
  | some fs => exact opens_after_ask (q := .openBare fs) (bind_ok rfl)

/-! ## Letting references wait -/

section Waiting

variable {τ : Type} {h : Host τ} {x : Context} {ref : Ref}

theorem defer_live (hx : Contexts.entry h.contexts c = x) (hr : x.realm.isSome)
    (hd : x.drained = false) :
    Host.defer c ref h = (.ok (), { h with
      contexts := h.contexts.modify c (withRef ref)
      log := h.log.push (.releaseDeferred (x.deferred.size + 1)) }) := by
  have hopen : (x.drained || x.realm.isNone) = false := by
    rw [hd, Bool.false_or, Option.isNone_eq_false_iff]
    exact hr
  let h₁ : Host τ := { h with contexts := h.contexts.modify c (withRef ref) }
  have hx₁ : Contexts.entry h₁.contexts c = withRef ref x := contexts_entry_modify hx hr
  have hcount : Host.pendingReleases c h₁ = (.ok (x.deferred.size + 1), h₁) := by
    rw [Host.pendingReleases, bind_ok (context_ok c h₁), hx₁]
    simp [withRef]
    rfl
  rw [Host.defer, bind_ok (context_ok c h), hx, hopen, if_neg (by simp)]
  have hupdate : Host.updateContext c (withRef ref) h = (.ok (), h₁) := rfl
  exact (bind_ok hupdate).trans ((bind_ok hcount).trans rfl)

theorem defer_ended (hx : Contexts.entry h.contexts c = x) (hr : x.drained || x.realm.isNone) :
    Host.defer c ref h = (.error (.panicked .deferredAfterTeardown), h) := by
  rw [Host.defer, bind_ok (context_ok c h), hx, if_pos hr]
  rfl

/-- A context that lets a reference wait, or stops because it was freed, leaves every other context
alone. -/
theorem defer_apart (c : ContextId) (ref : Ref) (h : Host τ) :
    Contexts.SameBut c h.contexts (Host.defer c ref h).2.contexts := by
  let x := Contexts.entry h.contexts c
  by_cases hended : x.drained || x.realm.isNone
  · rw [defer_ended rfl hended]
    exact Contexts.sameBut_of_eq rfl
  · rw [Bool.not_eq_true, Bool.or_eq_false_iff, Option.isNone_eq_false_iff] at hended
    rw [defer_live rfl hended.2 hended.1]
    exact Contexts.sameBut_modify (Contexts.mem_of_isLive hended.2) _

end Waiting

end Host

end ScriptHost
