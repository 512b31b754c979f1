import ScriptHost.Proofs.Clients
import ScriptHost.Proofs.Counting
import ScriptHost.Proofs.Lifetimes
/-!
# References that wait for the end of a context

From the moment when a context is made until it is freed, what waits with it is what it looked up,
followed by what its handles were told to keep, in this order and nothing else; every one of these
references was reported with its number.  Freeing the context gives each of them back once, and
after that nothing waits any more.
-/

namespace ScriptHost

open Accounting (Ends bind_ok bind_error withRef spent ended)

/-- A live context with which some references wait, in their order. -/
structure Context.Holds (x : Context) (r : RealmId) (cache : Cache) (refs : List Ref) : Prop where
  realm : x.realm = some r
  cache : x.cache = cache
  undrained : x.drained = false
  deferred : x.deferred.toList = refs

/-- A context that was freed, or that is not there. -/
structure Context.Gone (x : Context) : Prop where
  realm : x.realm = none
  deferred : x.deferred = #[]

namespace Context

variable {x : Context} {r : RealmId} {cache : Cache} {refs : List Ref}

theorem Holds.isSome (hx : x.Holds r cache refs) : x.realm.isSome := by
  rw [hx.realm]
  rfl

theorem Holds.size (hx : x.Holds r cache refs) : x.deferred.size = refs.length := by
  rw [← hx.deferred, Array.length_toList]

theorem Holds.withRef (hx : x.Holds r cache refs) (ref : Ref) :
    (withRef ref x).Holds r cache (refs ++ [ref]) where
  realm := hx.realm
  cache := hx.cache
  undrained := hx.undrained
  deferred := by simp [Accounting.withRef, hx.deferred]

theorem gone_ended (x : Context) : (ended (spent x)).Gone := ⟨rfl, rfl⟩

end Context

namespace Client

variable {σ : Type} [Engine σ] {s : Client (Recorded σ)} {op : Operation} {c d : ContextId}
  {r : RealmId} {cache : Cache} {refs : List Ref}

/-- What is known of a context of a client. -/
def entry {τ : Type} (s : Client τ) (c : ContextId) : Context := Contexts.entry s.host.contexts c

/-! ## Steps of the host -/

theorem step_host {τ : Type} [Engine τ] {s : Client τ} (hp : s.permits op) :
    (s.step op).host = (op.run s.host).2 := by
  rw [step, if_pos hp]
  rcases op.run s.host with ⟨_ | y, h⟩ <;> rfl

theorem step_of_not_permits {τ : Type} [Engine τ] {s : Client τ} (hp : ¬s.permits op) :
    s.step op = s := if_neg hp

theorem requests_eq {qs : List Request}
    (h : (s.step op).host.engine.history.requests = s.host.engine.history.requests ++ qs) :
    s.requests op = qs := by
  rw [requests, h, ← Host.length_requests, List.drop_left]

theorem reported_eq {τ : Type} [Engine τ] {s : Client τ} {es : List Event}
    (h : (s.step op).host.told = s.host.told ++ es) : s.reported op = es := by
  rw [reported, h, List.drop_left]

theorem reported_of_eq {τ : Type} [Engine τ] {s : Client τ}
    (h : (s.step op).host.told = s.host.told) : s.reported op = [] :=
  reported_eq (by rw [h, List.append_nil])

/-! ## What operations do to the contexts that they are not about -/

/-- The context that an operation makes, ends, or lets a reference wait with. -/
def Operation.touched? (op : Operation) : Option ContextId :=
  (op.opened?.or op.closed?).or (if op.defers then op.place? else none)

/-- An operation that touches no context leaves all of them alone and tells nothing but of lent
memory. -/
theorem run_quiet (hop : op.touched? = none) (h : Host (Recorded σ)) :
    HostFrame.quiet.rel h (op.run h).2 := by
  have hnone : op.opened? = none ∧ op.closed? = none ∧ op.defers = false := by
    cases op <;> simp_all [Operation.touched?, Operation.opened?, Operation.closed?,
      Operation.defers, Operation.place?]
  exact op.run_within hnone.1 hnone.2.1 hnone.2.2 h

/-- An operation that is to make a context makes it, or leaves the table of contexts as it was. -/
theorem opened_ends (hop : op.opened? = some c) (h : Host (Recorded σ)) :
    Ends (op.run h) (fun _ => h.Opened c) fun h' => h'.contexts = h.contexts := by
  cases op with
  | openContext d =>
      cases hop
      exact Ends.bind (Host.newContext_opens c h) fun _ _ hmade => Ends.ok rfl hmade
  | openBare d features =>
      cases hop
      exact Ends.bind (Host.newBareContext_opens c features h) fun _ _ hmade => Ends.ok rfl hmade
  | _ => cases hop

/-- An operation that ends a live context gives back what waited with it, and then its realm. -/
theorem closed_live (hop : op.closed? = some c) {h : Host (Recorded σ)} {x : Context}
    (hx : Contexts.entry h.contexts c = x) (hr : x.realm = some r) :
    ∃ h', op.run h = (.ok {}, h') ∧ Contexts.SameBut c h.contexts h'.contexts ∧
      (Contexts.entry h'.contexts c).Gone ∧
      h'.told = h.told ++ [.releasesDrained x.deferred.size, .contextFreed x.deferred.size] ∧
      h'.engine.history.requests =
        h.engine.history.requests ++ (x.deferred.toList.map (Ref.release r) ++ [.closeRealm r]) := by
  obtain ⟨h₁, hfree, hbut, hentry, htold, hrequests⟩ := Host.freeContext_asks hx hr
  -- Forgetting a context frees it first and then drops what is left of it.
  cases op with
  | freeContext d =>
      cases hop
      refine ⟨h₁, (bind_ok hfree).trans rfl, hbut, ?_, htold, hrequests⟩
      rw [hentry]
      exact x.gone_ended
  | dropContext d =>
      cases hop
      have hdrop : Host.dropContext c h =
          (.ok (), { h₁ with contexts := h₁.contexts.erase c }) := (bind_ok hfree).trans rfl
      refine ⟨_, (bind_ok hdrop).trans rfl, hbut.trans (Contexts.sameBut_erase _ c), ?_, htold,
        hrequests⟩
      rw [Contexts.entry_erase, if_pos rfl]
      exact ⟨rfl, rfl⟩
  | _ => cases hop

/-- An operation that ends a context that was freed does nothing but forget it. -/
theorem closed_again (hop : op.closed? = some c) {h : Host σ}
    (hr : (Contexts.entry h.contexts c).realm = none) :
    ∃ X : Contexts, op.run h = (.ok {}, { h with contexts := X }) ∧ Contexts.SameBut c h.contexts X ∧
      (X.entry c = Contexts.entry h.contexts c ∨ X.entry c = { realm := none }) := by
  have hfree := Host.freeContext_again hr
  cases op with
  | freeContext d =>
      cases hop
      exact ⟨h.contexts, (bind_ok hfree).trans rfl, Contexts.sameBut_of_eq rfl, .inl rfl⟩
  | dropContext d =>
      cases hop
      have hdrop : Host.dropContext c h = (.ok (), { h with contexts := h.contexts.erase c }) :=
        (bind_ok hfree).trans rfl
      refine ⟨_, (bind_ok hdrop).trans rfl, Contexts.sameBut_erase _ c, .inr ?_⟩
      rw [Contexts.entry_erase, if_pos rfl]
  | _ => cases hop

/-- An operation that lets a reference wait is the deferral of this reference, whose outcome it has. -/
theorem defers_run (hop : op.defers) (hc : op.place? = some c) (h : Host σ) :
    ∃ ref, op.kept? c = some ref ∧ (op.run h).2 = (Host.defer c ref h).2 := by
  cases op with
  | keepToEnd k =>
      cases hc
      refine ⟨.value k.value, if_pos rfl, ?_⟩
      rcases hrun : Host.defer k.context (.value k.value) h with ⟨e | _, h'⟩
      · exact congrArg Prod.snd (bind_error (bind_error hrun))
      · exact congrArg Prod.snd (bind_ok (a := k) ((bind_ok hrun).trans rfl))
  | keepKeyToEnd k =>
      cases hc
      refine ⟨.key k.key, if_pos rfl, ?_⟩
      rcases hrun : Host.defer k.context (.key k.key) h with ⟨e | _, h'⟩
      · exact congrArg Prod.snd (bind_error (bind_error hrun))
      · exact congrArg Prod.snd (bind_ok (a := k) ((bind_ok hrun).trans rfl))
  | _ => cases hop

/-- An operation leaves every context alone but the one that it touches. -/
theorem run_apart (hop : op.touched? = some d) (h : Host (Recorded σ)) :
    Contexts.SameBut d h.contexts (op.run h).2.contexts := by
  -- It opens the context, ends it, or lets something wait with it.
  rcases Option.or_eq_some_iff.1 hop with hchange | ⟨-, hdefers⟩
  · rcases Option.or_eq_some_iff.1 hchange with hopened | ⟨-, hclosed⟩
    · have hends := opened_ends hopened h
      rcases hrun : op.run h with ⟨e | y, h'⟩
      · rw [hrun] at hends
        exact Contexts.sameBut_of_eq hends
      · rw [hrun] at hends
        obtain ⟨r, cache, hcontexts, -⟩ := hends
        exact hcontexts ▸ Contexts.sameBut_insert _ d _
    · cases hr : (Contexts.entry h.contexts d).realm with
      | some r =>
          obtain ⟨h', hrun, hbut, -⟩ := closed_live hclosed rfl hr
          rw [hrun]
          exact hbut
      | none =>
          obtain ⟨X, hrun, hbut, -⟩ := closed_again hclosed hr
          rw [hrun]
          exact hbut
  · split at hdefers
    next hkeeps =>
      obtain ⟨ref, -, hrun⟩ := defers_run hkeeps hdefers h
      rw [hrun]
      exact Host.defer_apart d ref h
    next => cases hdefers

theorem place_of_touched (hop : op.touched? = some d) : op.place? = some d := by
  cases op <;> simp_all [Operation.touched?, Operation.opened?, Operation.closed?,
    Operation.defers, Operation.place?]

/-- An operation lets nothing wait with a context that it does not touch. -/
theorem kept_of_not_touched (hop : op.touched? ≠ some c) : op.kept? c = none := by
  cases op <;> simp_all [Operation.touched?, Operation.opened?, Operation.closed?,
    Operation.defers, Operation.place?, Operation.kept?]

/-! ## While a context is live -/

omit [Engine σ] in
theorem mem_of_holds (hx : (s.entry c).Holds r cache refs) : c ∈ s.host.contexts :=
  Contexts.mem_of_isLive hx.isSome

/-- What waits with a live context is added to by operations that let a reference wait with it, each
of which reports the new number, and by nothing else. -/
theorem step_holds (hx : (s.entry c).Holds r cache refs) (hlive : (s.step op).isLive c) :
    ((s.step op).entry c).Holds r cache (refs ++ s.keeps c op) ∧
      s.registers c op = List.range' (refs.length + 1) (s.keeps c op).length := by
  by_cases hp : s.permits op
  swap
  · have hsame := step_of_not_permits hp
    have hnone : s.reported op = [] := reported_of_eq (by rw [hsame])
    simp [hsame, keeps, hp, registers, hnone, hx]
  -- An operation that does not touch the context leaves it as it is and reports nothing of it.
  have hother : (s.step op).entry c = s.entry c → op.touched? ≠ some c → s.registers c op = [] →
      ((s.step op).entry c).Holds r cache (refs ++ s.keeps c op) ∧
        s.registers c op = List.range' (refs.length + 1) (s.keeps c op).length := by
    intro hentry htouched hnone
    simp [hentry, keeps, kept_of_not_touched htouched, hnone, hx]
  cases htouched : op.touched? with
  | none =>
      obtain ⟨hcontexts, -, htold⟩ := run_quiet htouched s.host
      refine hother ?_ (by simp [htouched]) ?_
      · rw [entry, step_host hp, hcontexts, entry]
      · have hnone : s.reported op = [] := reported_of_eq (by rw [step_host hp, htold])
        simp [registers, hnone]
  | some d =>
      by_cases hd : d = c
      swap
      · have hentry := (run_apart htouched s.host c (Ne.symm hd)).1
        refine hother ?_ (by simpa [htouched] using hd) ?_
        · rw [entry, step_host hp, hentry, entry]
        · simp [registers, place_of_touched htouched, hd]
      subst hd
      rcases Option.or_eq_some_iff.1 htouched with hchange | ⟨-, hdefers⟩
      · rcases Option.or_eq_some_iff.1 hchange with hopened | ⟨-, hclosed⟩
        · exact absurd (mem_of_holds hx) ((permits_iff.1 hp).2.2.1 d hopened)
        · obtain ⟨h', hrun, -, hgone, -⟩ := closed_live hclosed (h := s.host) rfl hx.realm
          rw [isLive, step_host hp, hrun, Contexts.isLive, hgone.realm] at hlive
          cases hlive
      · split at hdefers
        swap
        · cases hdefers
        next hkeeps =>
          obtain ⟨ref, hkept, hrun⟩ := defers_run hkeeps hdefers s.host
          have hdefer : Host.defer d ref s.host = _ := Host.defer_live rfl hx.isSome hx.undrained
          have hhost := (step_host hp).trans (hrun.trans (congrArg Prod.snd hdefer))
          have htold : (s.step op).host.told = s.host.told ++ [.releaseDeferred (refs.length + 1)] := by
            rw [hhost, ← hx.size]
            exact Host.told_report _ { s.host with contexts := _ } rfl
          have hnow : s.keeps d op = [ref] := by simp [keeps, hp, hkept]
          refine ⟨?_, ?_⟩
          · rw [hnow, entry, hhost]
            rw [Host.contexts_entry_modify (x := s.entry d) rfl hx.isSome]
            exact hx.withRef ref
          · simp [registers, hdefers, reported_eq htold, Event.registered?, hnow]

/-- While a context stays live, what waits with it is what waited before and what the run let wait
with it, and the numbers reported of it go on without a gap. -/
theorem run_holds {ops : List Operation} (hx : (s.entry c).Holds r cache refs)
    (hlive : s.staysLive c ops) :
    ((s.run ops).entry c).Holds r cache (refs ++ s.kept c ops) ∧
      s.registrations c ops = List.range' (refs.length + 1) (s.kept c ops).length := by
  induction ops generalizing s refs with
  | nil => simpa [run, kept, registrations] using hx
  | cons op ops ih =>
      obtain ⟨-, hlive⟩ := Bool.and_eq_true_iff.1 hlive
      have hstep : (s.step op).isLive c := by
        cases ops with
        | nil => exact hlive
        | cons op' ops => exact (Bool.and_eq_true_iff.1 hlive).1
      obtain ⟨hholds, hnow⟩ := step_holds hx hstep
      obtain ⟨hholds', hlater⟩ := ih hholds hlive
      refine ⟨by rwa [List.append_assoc] at hholds', ?_⟩
      rw [registrations, hnow, hlater, kept, List.length_append, List.length_append,
        ← List.range'_append]
      congr 2
      omega

/-! ## After a context was freed -/

/-- With a context that was freed nothing waits, and no operation on it reports that anything does,
unless a new context is made under its name. -/
theorem step_gone (hx : (s.entry c).Gone) (hop : op.opened? ≠ some c) :
    ((s.step op).entry c).Gone ∧ s.registers c op = [] := by
  -- Where neither the context changes nor anything is told, there is nothing to show.
  have hsame : (s.step op).entry c = s.entry c → (s.step op).host.told = s.host.told →
      ((s.step op).entry c).Gone ∧ s.registers c op = [] := by
    intro hentry htold
    simp [hentry, registers, reported_of_eq htold, hx]
  by_cases hp : s.permits op
  swap
  · rw [step_of_not_permits hp] at hsame ⊢
    exact hsame rfl rfl
  cases htouched : op.touched? with
  | none =>
      obtain ⟨hcontexts, -, htold⟩ := run_quiet htouched s.host
      refine hsame ?_ (by rw [step_host hp, htold])
      rw [entry, step_host hp, hcontexts, entry]
  | some d =>
      by_cases hd : d = c
      swap
      · have hentry := (run_apart htouched s.host c (Ne.symm hd)).1
        refine ⟨?_, by simp [registers, place_of_touched htouched, hd]⟩
        rw [entry, step_host hp, hentry]
        exact hx
      subst hd
      rcases Option.or_eq_some_iff.1 htouched with hchange | ⟨-, hdefers⟩
      · rcases Option.or_eq_some_iff.1 hchange with hopened | ⟨-, hclosed⟩
        · exact absurd hopened hop
        · obtain ⟨X, hrun, -, hentry⟩ := closed_again hclosed (h := s.host) hx.realm
          have hhost : (s.step op).host = { s.host with contexts := X } := by
            rw [step_host hp, hrun]
          have htold : (s.step op).host.told = s.host.told := by
            rw [hhost]
            rfl
          refine ⟨?_, by simp [registers, reported_of_eq htold]⟩
          rw [entry, hhost]
          rcases hentry with hentry | hentry
          · exact hentry ▸ hx
          · exact hentry ▸ ⟨rfl, rfl⟩
      · split at hdefers
        swap
        · cases hdefers
        next hkeeps =>
          obtain ⟨ref, -, hrun⟩ := defers_run hkeeps hdefers s.host
          have hrealm : (Contexts.entry s.host.contexts d).realm = none := hx.realm
          have hdefer : Host.defer d ref s.host = _ := Host.defer_ended rfl (by rw [hrealm]; simp)
          have hhost : (s.step op).host = s.host := by rw [step_host hp, hrun, hdefer]
          exact hsame (by rw [entry, hhost, entry]) (by rw [hhost])

theorem run_gone {ops : List Operation} (hx : (s.entry c).Gone)
    (hops : ∀ op ∈ ops, op.opened? ≠ some c) :
    ((s.run ops).entry c).Gone ∧ s.registrations c ops = [] := by
  induction ops generalizing s with
  | nil => exact ⟨hx, rfl⟩
  | cons op ops ih =>
      obtain ⟨hgone, hnow⟩ := step_gone hx (hops op List.mem_cons_self)
      obtain ⟨hgone', hlater⟩ := ih hgone fun op' h => hops op' (List.mem_cons_of_mem _ h)
      exact ⟨hgone', by rw [registrations, hnow, hlater, List.append_nil]⟩

/-- Freeing a context again asks nothing of the engine and reports nothing. -/
theorem closed_gone (hx : (s.entry c).Gone) (hop : op.closed? = some c) :
    s.requests op = [] ∧ s.reported op = [] := by
  have hengine : (s.step op).host.engine = s.host.engine ∧
      (s.step op).host.told = s.host.told := by
    by_cases hp : s.permits op
    · obtain ⟨X, hrun, -⟩ := closed_again hop (h := s.host) hx.realm
      rw [step_host hp, hrun]
      exact ⟨rfl, rfl⟩
    · rw [step_of_not_permits hp]
      exact ⟨rfl, rfl⟩
  exact ⟨requests_eq (by rw [hengine.1, List.append_nil]), reported_of_eq hengine.2⟩

/-! ## From the beginning to the end -/

theorem registrations_append {τ : Type} [Engine τ] (s : Client τ) (ops ops' : List Operation) :
    s.registrations c (ops ++ ops') =
      s.registrations c ops ++ (s.run ops).registrations c ops' := by
  induction ops generalizing s with
  | nil => rfl
  | cons op ops ih =>
      rw [List.cons_append, registrations, registrations, ih, List.append_assoc]
      rfl

theorem pendingReleases_ok {τ : Type} (c : ContextId) (h : Host τ) :
    Host.pendingReleases c h = (.ok (Contexts.entry h.contexts c).deferred.size, h) := by
  rw [Host.pendingReleases, bind_ok (Accounting.context_ok c h)]
  rfl

/-- A context that was just made waits to give back what it looked up, and reported each of it. -/
theorem step_created (hop : op.opened? = some c) (hp : s.permits op)
    (hlive : (s.step op).isLive c) :
    ∃ (r : RealmId) (cache : Cache), ((s.step op).entry c).Holds r cache cache.entries ∧
      s.reported op = Event.registrations 0 cache.entries.length ++
        [.contextCreated cache.entries.length] := by
  have hends := opened_ends hop s.host
  have hhost := step_host hp
  rcases hrun : op.run s.host with ⟨e | y, h'⟩
  · rw [hrun] at hends hhost
    have hc : c ∈ s.host.contexts := by
      rw [isLive, hhost] at hlive
      exact (show h'.contexts = _ from hends) ▸ Contexts.mem_of_isLive hlive
    exact absurd hc ((permits_iff.1 hp).2.2.1 c hop)
  · rw [hrun] at hends hhost
    obtain ⟨r, cache, hcontexts, htold⟩ := hends
    refine ⟨r, cache, ?_, reported_eq (by rw [hhost, htold])⟩
    rw [entry, hhost, hcontexts, Contexts.entry_insert, if_pos rfl]
    exact ⟨rfl, rfl, rfl, by simp⟩

/-- What waits for the end of a context, over a whole run.  While the context is live, that is what
it looked up, in the order of the lookup, and then what its handles were told to keep, in the order
in which they were told.  The first time that it is freed or forgotten, each of these references is
given back once, in this order, and the realm after all of them; the reports of that tell how many
there were, and nothing waits any more.  Every later time nothing is given back.  All along, the
numbers reported of references that wait with the context are those from one on. -/
theorem deferred_over_run {create : Operation} (hcreate : create.opened? = some c)
    (hnew : s.permits create) (hmade : (s.step create).isLive c) :
    ∃ (r : RealmId) (cache : Cache), ((s.step create).entry c).Holds r cache cache.entries ∧
      s.reported create = Event.registrations 0 cache.entries.length ++
        [.contextCreated cache.entries.length] ∧
      ∀ used, (s.step create).staysLive c used →
        let full := (s.step create).run used
        let refs := cache.entries ++ (s.step create).kept c used
        (full.entry c).Holds r cache refs ∧
        Host.pendingReleases c full.host = (.ok refs.length, full.host) ∧
        s.registrations c (create :: used) = List.range' 1 refs.length ∧
        ∀ free, free.closed? = some c → full.permits free →
          full.requests free = refs.map (Ref.release r) ++ [.closeRealm r] ∧
          full.reported free = [.releasesDrained refs.length, .contextFreed refs.length] ∧
          ∀ later, (∀ op ∈ later, op.opened? ≠ some c) →
            let after := (full.step free).run later
            Host.pendingReleases c after.host = (.ok 0, after.host) ∧
            s.registrations c (create :: used ++ free :: later) = List.range' 1 refs.length ∧
            ∀ again, again.closed? = some c →
              after.requests again = [] ∧ after.reported again = [] := by
  obtain ⟨r, cache, hcreated, hreported⟩ := step_created hcreate hnew hmade
  refine ⟨r, cache, hcreated, hreported, ?_⟩
  intro used hused full refs
  obtain ⟨hfull, hkept⟩ : (full.entry c).Holds r cache refs ∧ _ := run_holds hcreated hused
  have hplace : create.place? = some c :=
    place_of_touched (by simp [Operation.touched?, hcreate])
  have hregistered : s.registrations c (create :: used) = List.range' 1 refs.length := by
    have hfirst : s.registers c create = List.range' 1 cache.entries.length := by
      rw [registers, if_pos hplace, hreported, List.filterMap_append,
        Event.filterMap_registrations]
      simp [Event.registered?]
    rw [registrations, hfirst, hkept, List.length_append, ← List.range'_append, Nat.one_mul,
      Nat.add_comm 1]
  have hcount : (full.entry c).deferred.size = refs.length := hfull.size
  refine ⟨hfull, ?_, hregistered, ?_⟩
  · rw [pendingReleases_ok]
    exact congrArg (fun n => (Except.ok n, full.host)) hcount
  intro free hfree hp
  -- The first time it is freed, what waited is given back in the order in which it came.
  obtain ⟨h', hrun, -, hgone, htold, hrequests⟩ :=
    closed_live hfree (h := full.host) rfl hfull.realm
  have hhost : (full.step free).host = h' := by rw [step_host hp, hrun]
  have hentry : ((full.step free).entry c).Gone := by
    rw [entry, hhost]
    exact hgone
  have hdrained : full.reported free = [.releasesDrained refs.length, .contextFreed refs.length] := by
    rw [← hcount]
    exact reported_eq (by rw [hhost, htold]; rfl)
  refine ⟨?_, hdrained, ?_⟩
  · have hall : (Contexts.entry full.host.contexts c).deferred.toList = refs := hfull.deferred
    rw [hall] at hrequests
    exact requests_eq (by rw [hhost, hrequests])
  intro later hlater after
  -- From then on it is gone, and nothing that is done to it waits.
  obtain ⟨hafter, hnone⟩ := run_gone hentry hlater
  have hfreed : full.registers c free = [] := by
    simp [registers, hdrained, Event.registered?]
  refine ⟨?_, ?_, fun again hagain => closed_gone hafter hagain⟩
  · rw [pendingReleases_ok]
    exact congrArg (fun x : Array Ref => (Except.ok x.size, after.host)) hafter.deferred
  · rw [registrations_append, hregistered]
    change _ ++ (full.registers c free ++ (full.step free).registrations c later) = _
    rw [hfreed, hnone, List.append_nil, List.append_nil]

/-- A client of an engine that counts, with nothing in it. -/
def counting : Client (Recorded Counter) := start ⟨{}, []⟩ {}

/-- An object is kept to the end of a context, which is freed and then forgotten. -/
theorem deferred_over_run_counting :
    let used : List Operation := [.make 0 .object, .keepToEnd ⟨0, .object 24⟩]
    let full := (counting.step (.openContext 0)).run used
    counting.permits (.openContext 0) ∧ full.permits (.freeContext 0) ∧
      ∃ (r : RealmId) (refs : List Ref), .value (.object 24) ∈ refs ∧
        full.requests (.freeContext 0) = refs.map (Ref.release r) ++ [.closeRealm r] ∧
        counting.registrations 0 (.openContext 0 :: used ++ [.freeContext 0, .dropContext 0]) =
          List.range' 1 refs.length := by
  intro used full
  have hnew : counting.permits (.openContext 0) := by decide
  have hfree : full.permits (.freeContext 0) := by decide +kernel
  have hkept : (counting.step (.openContext 0)).kept 0 used = [.value (.object 24)] := by
    decide +kernel
  obtain ⟨r, cache, -, -, hrun⟩ := deferred_over_run rfl hnew (by decide +kernel)
  obtain ⟨-, -, -, hend⟩ := hrun used (by decide +kernel)
  obtain ⟨hrequests, -, hlater⟩ := hend (.freeContext 0) rfl hfree
  obtain ⟨-, hregistrations, -⟩ := hlater [.dropContext 0] (by simp [Operation.opened?])
  exact ⟨hnew, hfree, r, _, by simp [hkept], hrequests, hregistrations⟩

end Client

end ScriptHost
