import Mathlib.Algebra.Order.Group.Multiset
import ScriptHost.Client.Operation
/-!
# Accountings

An accounting says something of an engine and of the memory lent to it, given the references that
the host has.  It has to survive every plain request that takes only references that the host has
and names only things that it has references to.  What an action of the host does to references is
then a triple: what the host has before, what it has if the action succeeds, and what it has if the
action stops.  The triples hold for every accounting, so one set of them serves whatever is to be
shown of all that clients do.

References that wait for the ends of contexts are counted as a multiset, since the order of contexts
does not matter.  How much work waits is not known when the doing of it begins, since each piece may
put off more.  Whatever comes of it comes of doing some number of pieces at most.
-/

namespace ScriptHost

/-! ## References that wait -/

namespace Cache

/-- The values that a context looked up. -/
def values (x : Cache) : List Value :=
  [x.global, x.array, x.map, x.set, x.weakMap, x.weakSet, x.buffer, x.symbol] ++
    ElementKind.all.map x.elements

/-- The keys that a context looked up. -/
def keys (x : Cache) : List Key := [x.length, x.size, x.byteLength]

/-- The references in what a context looked up. -/
def refs (x : Cache) : List Ref := x.values.flatMap Ref.ofValue ++ x.keys.flatMap Ref.ofKey

end Cache

/-- A live context takes references that are to wait, and among them are those to what it looked up;
with a freed one nothing waits. -/
structure Context.Tended (x : Context) : Prop where
  undrained : x.realm.isSome → x.drained = false
  stocked : x.realm.isSome → x.cache.refs ⊆ x.waiting
  ended : x.realm = none → x.waiting = []

namespace Contexts

/-- The references that wait for the ends of contexts, without an order. -/
def bag (X : Contexts) : Multiset Ref := X.waiting

/-- Every context is tended. -/
def Tended (X : Contexts) : Prop := ∀ c, (X.entry c).Tended

/-! ### Looking up -/

theorem entry_insert (X : Contexts) (c d : ContextId) (x : Context) :
    entry (X.insert c x) d = if c = d then x else X.entry d := by
  rw [entry, Std.TreeMap.getElem?_insert]
  by_cases h : c = d
  · simp [h]
  · simp [entry, Std.LawfulEqCmp.compare_eq_iff_eq, h]

theorem entry_modify {X : Contexts} {c : ContextId} (hc : c ∈ X) (d : ContextId)
    (f : Context → Context) :
    entry (X.modify c f) d = if c = d then f (X.entry c) else X.entry d := by
  rw [entry, Std.TreeMap.getElem?_modify]
  by_cases h : c = d
  · subst h
    simp [entry, Std.TreeMap.getElem?_eq_some_getElem hc]
  · simp [entry, Std.LawfulEqCmp.compare_eq_iff_eq, h]

theorem entry_erase (X : Contexts) (c d : ContextId) :
    entry (X.erase c) d = if c = d then { realm := none } else X.entry d := by
  rw [entry, Std.TreeMap.getElem?_erase]
  by_cases h : c = d
  · simp [h]
  · simp [entry, Std.LawfulEqCmp.compare_eq_iff_eq, h]

theorem getElem?_of_mem {X : Contexts} {c : ContextId} (h : c ∈ X) : X[c]? = some (X.entry c) := by
  rw [entry, Std.TreeMap.getElem?_eq_some_getElem h, Option.getD_some]

/-- A context that is live is there. -/
theorem mem_of_isLive {X : Contexts} {c : ContextId} (h : X.isLive c) : c ∈ X := by
  by_contra hc
  simp [isLive, entry, Std.TreeMap.getElem?_eq_none hc] at h

/-! ### Counting what waits -/

/-- What waits for the end of a context waits. -/
theorem mem_bag {X : Contexts} {c : ContextId} {r : Ref} (hc : X.isLive c)
    (hr : r ∈ (X.entry c).waiting) : r ∈ X.bag := by
  have hpair : (c, X.entry c) ∈ X.toList :=
    Std.TreeMap.mem_toList_iff_getElem?_eq_some.2 (getElem?_of_mem (mem_of_isLive hc))
  exact List.mem_flatMap.2 ⟨_, hpair, hr⟩

theorem bag_congr {X Y : Contexts} (h : X.Equiv Y) : X.bag = Y.bag :=
  Multiset.coe_eq_coe.2 ((Std.TreeMap.equiv_iff_toList_perm.1 h).flatMap_right _)

/-- A new context adds what it lets wait. -/
theorem bag_insert {X : Contexts} {c : ContextId} (hc : c ∉ X) (x : Context) :
    bag (X.insert c x) = x.waiting + X.bag := by
  have hfilter : X.toList.filter (fun p => ¬c == p.1) = X.toList := by
    refine List.filter_eq_self.2 fun p hp => ?_
    have hget : X[p.1]? = some p.2 := Std.TreeMap.mem_toList_iff_getElem?_eq_some.1 hp
    have hne : c ≠ p.1 := by
      intro heq
      rw [← heq, Std.TreeMap.getElem?_eq_none hc] at hget
      cases hget
    simpa using hne
  have hperm := (Std.TreeMap.toList_insert_perm (t := X) (k := c) (v := x)).flatMap_right
    fun p => p.2.waiting
  rw [hfilter] at hperm
  simpa [bag, waiting] using Multiset.coe_eq_coe.2 hperm

/-- A context that is forgotten takes away what it let wait. -/
theorem bag_erase {X : Contexts} {c : ContextId} (hc : c ∈ X) :
    X.bag = (X.entry c).waiting + bag (X.erase c) := by
  have hequiv : X.Equiv ((X.erase c).insert c (X.entry c)) := by
    refine Std.TreeMap.Equiv.of_forall_constGet?_eq fun d => ?_
    rw [Std.TreeMap.getElem?_insert, Std.TreeMap.getElem?_erase]
    by_cases h : compare c d = .eq
    · rw [if_pos h, ← Std.LawfulEqCmp.eq_of_compare h, getElem?_of_mem hc]
    · rw [if_neg h, if_neg h]
  rw [bag_congr hequiv, bag_insert (by simp)]

/-- A context that is not there takes nothing away. -/
theorem bag_erase_of_not_mem {X : Contexts} {c : ContextId} (hc : c ∉ X) :
    bag (X.erase c) = X.bag := by
  refine bag_congr (Std.TreeMap.Equiv.of_forall_constGet?_eq fun d => ?_)
  rw [Std.TreeMap.getElem?_erase]
  by_cases h : compare c d = .eq
  · rw [if_pos h, ← Std.LawfulEqCmp.eq_of_compare h, Std.TreeMap.getElem?_eq_none hc]
  · rw [if_neg h]

/-- A context that changes trades what it let wait for what it lets wait now. -/
theorem bag_modify {X : Contexts} {c : ContextId} (hc : c ∈ X) (f : Context → Context) :
    bag (X.modify c f) + (X.entry c).waiting = (f (X.entry c)).waiting + X.bag := by
  have hequiv : (X.modify c f).Equiv ((X.erase c).insert c (f (X.entry c))) := by
    refine Std.TreeMap.Equiv.of_forall_constGet?_eq fun d => ?_
    rw [Std.TreeMap.getElem?_insert, Std.TreeMap.getElem?_erase, Std.TreeMap.getElem?_modify]
    by_cases h : compare c d = .eq
    · have hd := Std.LawfulEqCmp.eq_of_compare h
      subst hd
      rw [if_pos h, if_pos h, getElem?_of_mem hc, Option.map_some]
    · rw [if_neg h, if_neg h, if_neg h]
  rw [bag_congr hequiv, bag_insert (by simp), bag_erase hc, add_assoc,
    add_comm (bag _), ← add_assoc]

end Contexts

/-! ## Accountings -/

variable {σ : Type} [Engine σ]

/-- Whether a request neither lends memory nor frees everything. -/
def Request.isPlain : Request → Bool
  | lendBuffer _ _ _ _ | shutDown => false
  | _ => true

/-- Something that is said of an engine and of lent memory, given the references of the host. -/
structure Accounting (σ : Type) [Engine σ] where
  books : Multiset Ref → σ → Pins → Prop
  /-- References that may be named to the engine though the host does not have them. -/
  exempt : Ref → Prop
  ask : ∀ {K : Multiset Ref} {e : σ} {p : Pins} (q : Request), q.isPlain →
    (∀ r ∈ q.uses, exempt r ∨ r ∈ (q.taken : Multiset Ref) + K) →
    books ((q.taken : Multiset Ref) + K) e p →
    books ((q.given (Engine.answer q e).reply : Multiset Ref) + K) (Engine.answer q e).state
      ((Engine.answer q e).freed.foldl Pins.takeBack p)

/-- What is known of a host with a table of contexts: besides what waits for the ends of these, it
has these references. -/
structure Accounting.Owing (A : Accounting σ) (X : Contexts) (M : Multiset Ref) (h : Host σ) :
    Prop where
  contexts : h.contexts = X
  books : A.books (M + X.bag) h.engine h.pins

namespace Accounting

variable {A : Accounting σ} {X : Contexts} {M K N : Multiset Ref} {α β : Type}

/-- How an action ended: well, with a result, or stopped. -/
def Ends (r : Except Stop α × Host σ) (well : α → Host σ → Prop) (stop : Host σ → Prop) : Prop :=
  match r with
  | (.ok a, h) => well a h
  | (.error _, h) => stop h

/-- From a host that has some references, an action ends well with a result and references that go
by it, or stops in a certain state.  The table of contexts stays as it is. -/
def Triple (A : Accounting σ) (X : Contexts) (M : Multiset Ref) (x : Action σ α) (Q : α → Prop)
    (R : α → Multiset Ref) (stop : Host σ → Prop) : Prop :=
  ∀ h, A.Owing X M h → Ends (x h) (fun a h' => Q a ∧ A.Owing X (R a) h') stop

/-- An action that leaves the references of the host as they are, however it ends. -/
abbrev Keeps (A : Accounting σ) (X : Contexts) (K : Multiset Ref) (x : Action σ α) : Prop :=
  A.Triple X K x (fun _ => True) (fun _ => K) (A.Owing X K)

/-- An action that cannot stop and that uses up references. -/
abbrev Spends (A : Accounting σ) (X : Contexts) (N K : Multiset Ref) (x : Action σ α) : Prop :=
  A.Triple X (N + K) x (fun _ => True) (fun _ => K) (fun _ => False)

/-! ## Running -/

omit [Engine σ] in
theorem Ends.ok {r : Except Stop α × Host σ} {well : α → Host σ → Prop} {stop : Host σ → Prop}
    {a : α} {h : Host σ} (hr : r = (.ok a, h)) (hwell : well a h) : Ends r well stop := by
  subst hr
  exact hwell

omit [Engine σ] in
theorem Ends.error {r : Except Stop α × Host σ} {well : α → Host σ → Prop} {stop : Host σ → Prop}
    {e : Stop} {h : Host σ} (hr : r = (.error e, h)) (hstop : stop h) : Ends r well stop := by
  subst hr
  exact hstop

omit [Engine σ] in
theorem Ends.mono {r : Except Stop α × Host σ} {well well' : α → Host σ → Prop}
    {stop stop' : Host σ → Prop} (hr : Ends r well stop) (hwell : ∀ a h, well a h → well' a h)
    (hstop : ∀ h, stop h → stop' h) : Ends r well' stop' := by
  rcases r with ⟨_ | a, h⟩
  · exact hstop h hr
  · exact hwell a h hr

omit [Engine σ] in
theorem Ends.bind {x : Action σ α} {f : α → Action σ β} {well : α → Host σ → Prop}
    {well' : β → Host σ → Prop} {stop : Host σ → Prop} {h : Host σ} (hx : Ends (x h) well stop)
    (hf : ∀ a h', well a h' → Ends (f a h') well' stop) : Ends ((x >>= f) h) well' stop := by
  change Ends (ExceptT.bindCont f (x h).1 (x h).2) well' stop
  rcases hxh : x h with ⟨_ | a, h'⟩
  · rw [hxh] at hx
    exact hx
  · rw [hxh] at hx
    exact hf a h' hx

omit [Engine σ] in
theorem Ends.tryCatch {x : Action σ α} {f : Stop → Action σ α} {well : α → Host σ → Prop}
    {stop stop' : Host σ → Prop} {h : Host σ} (hx : Ends (x h) well stop)
    (hf : ∀ e h', stop h' → Ends (f e h') well stop') : Ends (tryCatch x f h) well stop' := by
  change Ends (ExceptT.tryCatch x f h) well stop'
  simp only [ExceptT.tryCatch, ExceptT.mk, Bind.bind, StateT.bind]
  rcases hxh : x h with ⟨e | a, h'⟩
  · rw [hxh] at hx
    exact hf e h' hx
  · rw [hxh] at hx
    exact hx

omit [Engine σ] in
theorem bind_ok {x : Action σ α} {f : α → Action σ β} {h h' : Host σ} {a : α}
    (hx : x h = (.ok a, h')) : (x >>= f) h = f a h' := by
  change ExceptT.bindCont f (x h).1 (x h).2 = f a h'
  rw [hx]
  rfl

omit [Engine σ] in
theorem bind_error {x : Action σ α} {f : α → Action σ β} {h h' : Host σ} {e : Stop}
    (hx : x h = (.error e, h')) : (x >>= f) h = (.error e, h') := by
  change ExceptT.bindCont f (x h).1 (x h).2 = (.error e, h')
  rw [hx]
  rfl

omit [Engine σ] in
/-- What gives a result has got through its first step. -/
theorem bind_inv {x : Action σ α} {f : α → Action σ β} {h : Host σ} {b : β}
    (hx : ((x >>= f) h).1 = .ok b) :
    ∃ a h₁, x h = (.ok a, h₁) ∧ (f a h₁).1 = .ok b := by
  rcases hxh : x h with ⟨e | a, h₁⟩
  · rw [bind_error hxh] at hx
    cases hx
  · rw [bind_ok hxh] at hx
    exact ⟨a, h₁, rfl, hx⟩

omit [Engine σ] in
theorem tryCatch_ok {x : Action σ α} {f : Stop → Action σ α} {a : α} {h h' : Host σ}
    (hx : x h = (.ok a, h')) : tryCatch x f h = (.ok a, h') := by
  change ExceptT.tryCatch x f h = (.ok a, h')
  simp only [ExceptT.tryCatch, ExceptT.mk, Bind.bind, StateT.bind, hx]
  rfl

omit [Engine σ] in
theorem tryCatch_error {x : Action σ α} {f : Stop → Action σ α} {e : Stop} {h h' : Host σ}
    (hx : x h = (.error e, h')) : tryCatch x f h = f e h' := by
  change ExceptT.tryCatch x f h = f e h'
  simp only [ExceptT.tryCatch, ExceptT.mk, Bind.bind, StateT.bind, hx]

omit [Engine σ] in
theorem context_ok (c : ContextId) (h : Host σ) :
    Host.context c h = (.ok (Contexts.entry h.contexts c), h) := by
  simp [Host.context, Contexts.entry]
  rfl

omit [Engine σ] in
theorem live_ok {h : Host σ} {c : ContextId} {r : RealmId}
    (hr : (Contexts.entry h.contexts c).realm = some r) : Host.live c h = (.ok r, h) := by
  rw [Host.live, bind_ok (context_ok c h), hr]
  rfl

omit [Engine σ] in
theorem live_error {h : Host σ} {c : ContextId}
    (hr : (Contexts.entry h.contexts c).realm = none) :
    Host.live c h = (.error (.panicked .usedAfterFree), h) := by
  rw [Host.live, bind_ok (context_ok c h), hr]
  rfl

/-! ## Rules -/

theorem Triple.pure {Q : α → Prop} {R : α → Multiset Ref} {stop : Host σ → Prop} {a : α}
    (hQ : Q a) (hM : M = R a) : A.Triple X M (Pure.pure a) Q R stop := by
  intro h hh
  exact ⟨hQ, hM ▸ hh⟩

theorem Triple.fail {Q : α → Prop} {R : α → Multiset Ref} {e : HostError} :
    A.Triple X M (Host.fail e) Q R (A.Owing X M) := by
  intro h hh
  exact hh

theorem Triple.misuse {Q : α → Prop} {R : α → Multiset Ref} {p : Panic} :
    A.Triple X M (Host.misuse p) Q R (A.Owing X M) := by
  intro h hh
  exact hh

theorem Triple.throw {Q : α → Prop} {R : α → Multiset Ref} {e : Stop} :
    A.Triple X M (throw e) Q R (A.Owing X M) := by
  intro h hh
  exact hh

theorem Triple.bind {x : Action σ α} {f : α → Action σ β} {Q : α → Prop} {Q' : β → Prop}
    {R : α → Multiset Ref} {R' : β → Multiset Ref} {stop : Host σ → Prop}
    (hx : A.Triple X M x Q R stop)
    (hf : ∀ a, Q a → A.Triple X (R a) (f a) Q' R' stop) :
    A.Triple X M (x >>= f) Q' R' stop := fun h hh =>
  Ends.bind (hx h hh) fun a h' ha => hf a ha.1 h' ha.2

theorem Triple.tryCatch {x : Action σ α} {f : Stop → Action σ α} {Q : α → Prop}
    {R : α → Multiset Ref} {stop : Host σ → Prop} (hx : A.Triple X M x Q R (A.Owing X K))
    (hf : ∀ e, A.Triple X K (f e) Q R stop) :
    A.Triple X M (tryCatch x f) Q R stop := fun h hh =>
  Ends.tryCatch (hx h hh) hf

/-- What follows from a triple is a triple. -/
theorem Triple.mono {x : Action σ α} {Q Q' : α → Prop} {R R' : α → Multiset Ref}
    {stop stop' : Host σ → Prop} (hx : A.Triple X M x Q R stop)
    (hQ : ∀ a, Q a → Q' a ∧ R a = R' a) (hstop : ∀ h, stop h → stop' h) :
    A.Triple X M x Q' R' stop' := by
  intro h hh
  refine (hx h hh).mono (fun a h' ha => ?_) hstop
  obtain ⟨hQ', hout⟩ := hQ a ha.1
  exact ⟨hQ', hout ▸ ha.2⟩

/-- An action that cannot stop fits in everywhere. -/
theorem Triple.sure {x : Action σ α} {Q : α → Prop} {R : α → Multiset Ref}
    {stop : Host σ → Prop} (hx : A.Triple X M x Q R fun _ => False) :
    A.Triple X M x Q R stop :=
  hx.mono (fun _ hQ => ⟨hQ, rfl⟩) fun _ h => h.elim

theorem Keeps.bind {x : Action σ α} {f : α → Action σ β} {Q' : β → Prop}
    {R' : β → Multiset Ref} (hx : A.Keeps X K x)
    (hf : ∀ a, A.Triple X K (f a) Q' R' (A.Owing X K)) :
    A.Triple X K (x >>= f) Q' R' (A.Owing X K) :=
  Triple.bind hx fun a _ => hf a

theorem Keeps.pure {a : α} : A.Keeps X K (Pure.pure a) := Triple.pure trivial rfl

theorem Keeps.fail {e : HostError} : A.Keeps X K (Host.fail e : Action σ α) := Triple.fail

theorem Keeps.discard {x : Action σ α} (hx : A.Keeps X K x) : A.Keeps X K (discard x) := by
  have hmap : A.Keeps X K (x >>= fun _ => Pure.pure ()) := hx.bind fun _ => Keeps.pure
  exact hmap

/-- What is done at the end uses up what the action had besides. -/
theorem Triple.ensuring {x : Action σ α} {last : Action σ Unit} {Q : α → Prop}
    {R : α → Multiset Ref} (hx : A.Triple X M x Q (fun a => N + R a) (A.Owing X (N + K)))
    (hlast : ∀ L, A.Spends X N L last) :
    A.Triple X M (Host.ensuring x last) Q R (A.Owing X K) := by
  refine Triple.bind (Q := Q) (R := fun a => N + R a) ?_ ?_
  · refine Triple.tryCatch hx fun e => ?_
    exact Triple.bind (hlast K).sure fun _ _ => Triple.throw
  · intro a hQ
    exact Triple.bind (hlast (R a)).sure fun _ _ => Triple.pure hQ rfl

/-! ## The state of a host -/

/-- An action that changes nothing but the log, or nothing at all. -/
theorem Triple.of_eq {x : Action σ α} {stop : Host σ → Prop} {Q : α → Prop}
    (hx : ∀ h : Host σ, h.contexts = X → ∃ a h', x h = (.ok a, h') ∧ Q a ∧ h'.contexts = X ∧
      h'.engine = h.engine ∧ h'.pins = h.pins) :
    A.Triple X M x Q (fun _ => M) stop := by
  intro h hh
  obtain ⟨a, h', hrun, hQ, hcontexts, hengine, hpins⟩ := hx h hh.contexts
  exact Ends.ok hrun ⟨hQ, hcontexts, hengine ▸ hpins ▸ hh.books⟩

theorem Triple.report {e : Event} {stop : Host σ → Prop} :
    A.Triple X M (Host.report e) (fun _ => True) (fun _ => M) stop :=
  Triple.of_eq fun h hX => ⟨(), { h with log := h.log.push e }, rfl, trivial, hX, rfl, rfl⟩

theorem Triple.read {stop : Host σ → Prop} :
    A.Triple X M (getThe (Host σ)) (fun h => h.contexts = X) (fun _ => M) stop :=
  Triple.of_eq fun h hX => ⟨h, h, rfl, hX, hX, rfl, rfl⟩

theorem Triple.context {c : ContextId} {stop : Host σ → Prop} :
    A.Triple X M (Host.context c) (fun x => x = X.entry c) (fun _ => M) stop :=
  Triple.of_eq fun h hX =>
    ⟨_, h, rfl, by simp [Contexts.entry, hX], hX, rfl, rfl⟩

/-- In a live context there is a realm. -/
theorem Triple.live_of {c : ContextId} {stop : Host σ → Prop} (hc : X.isLive c) :
    A.Triple X M (Host.live c) (fun _ => True) (fun _ => M) stop := by
  refine Triple.bind Triple.context fun x hx => ?_
  obtain ⟨r, hr⟩ := Option.isSome_iff_exists.1 hc
  rw [hx, hr]
  exact Triple.pure trivial rfl

/-- Whoever gets a realm is in a live context. -/
theorem Triple.live {c : ContextId} :
    A.Triple X K (Host.live c) (fun _ => X.isLive c) (fun _ => K) (A.Owing X K) := by
  refine Triple.bind Triple.context fun x hx => ?_
  cases hr : x.realm with
  | none => exact Triple.misuse
  | some r => exact Triple.pure (by simp [Contexts.isLive, ← hx, hr]) rfl

/-! ## Requests -/

omit [Engine σ] in
theorem takeBack_eq (h : Host σ) (t : Token) :
    (h.takeBack t).contexts = h.contexts ∧ (h.takeBack t).engine = h.engine ∧
      (h.takeBack t).pins = h.pins.takeBack t := by
  unfold Host.takeBack Pins.takeBack
  split
  · exact ⟨rfl, rfl, rfl⟩
  · cases h.pins.region? t with
    | some r => exact ⟨rfl, rfl, rfl⟩
    | none => exact ⟨rfl, rfl, rfl⟩

omit [Engine σ] in
theorem takeBacks_eq (h : Host σ) (ts : List Token) :
    (ts.foldl Host.takeBack h).contexts = h.contexts ∧
      (ts.foldl Host.takeBack h).engine = h.engine ∧
      (ts.foldl Host.takeBack h).pins = ts.foldl Pins.takeBack h.pins := by
  induction ts generalizing h with
  | nil => exact ⟨rfl, rfl, rfl⟩
  | cons t ts ih =>
      obtain ⟨hc, he, hp⟩ := takeBack_eq h t
      obtain ⟨hc', he', hp'⟩ := ih (h.takeBack t)
      refine ⟨hc'.trans hc, he'.trans he, ?_⟩
      rw [List.foldl_cons, hp', hp, List.foldl_cons]

/-- A request gives a reply and changes the engine, the lent memory and the log. -/
theorem ask_eq (q : Request) (h : Host σ) :
    ∃ h', Host.ask q h = (.ok (Engine.answer q h.engine).reply, h') ∧ h'.contexts = h.contexts ∧
      h'.engine = (Engine.answer q h.engine).state ∧
      h'.pins = (Engine.answer q h.engine).freed.foldl Pins.takeBack h.pins := by
  obtain ⟨hc, he, hp⟩ := takeBacks_eq { h with engine := (Engine.answer q h.engine).state }
    (Engine.answer q h.engine).freed
  exact ⟨_, rfl, hc, he, hp⟩

theorem Triple.ask {q : Request} {stop : Host σ → Prop} (hq : q.isPlain)
    (hu : ∀ r ∈ q.uses, A.exempt r ∨ r ∈ (q.taken : Multiset Ref) + K + X.bag) :
    A.Triple X (q.taken + K) (Host.ask q) (fun _ => True) (fun reply => q.given reply + K) stop := by
  intro h hh
  obtain ⟨h', hrun, hcontexts, hengine, hpins⟩ := ask_eq q h
  refine Ends.ok hrun ⟨trivial, hcontexts.trans hh.contexts, ?_⟩
  rw [hengine, hpins, add_assoc]
  have hbooks := hh.books
  rw [add_assoc] at hbooks
  exact A.ask q hq (by simpa only [add_assoc] using hu) hbooks

/-- A request that takes nothing. -/
theorem Triple.ask_free {q : Request} {stop : Host σ → Prop} (hq : q.isPlain)
    (ht : q.taken = []) (hu : ∀ r ∈ q.uses, A.exempt r ∨ r ∈ K + X.bag) :
    A.Triple X K (Host.ask q) (fun _ => True) (fun reply => q.given reply + K) stop := by
  have h : A.Triple X (q.taken + K) (Host.ask q) (fun _ => True) (fun reply => q.given reply + K)
      stop := Triple.ask hq (by simpa [ht] using hu)
  simpa [ht] using h

/-- A request that takes and names nothing. -/
theorem Triple.ask_unnamed {q : Request} {stop : Host σ → Prop} (hq : q.isPlain)
    (ht : q.taken = []) (hu : q.uses = []) :
    A.Triple X K (Host.ask q) (fun _ => True) (fun reply => q.given reply + K) stop :=
  Triple.ask_free hq ht (by simp [hu])

/-- A request that neither takes nor gives anything. -/
theorem Triple.inquiry {q : Request} {stop : Host σ → Prop} (hq : q.isPlain)
    (ht : q.taken = []) (hg : ∀ reply, q.given reply = [])
    (hu : ∀ r ∈ q.uses, A.exempt r ∨ r ∈ K + X.bag) :
    A.Triple X K (Host.ask q) (fun _ => True) (fun _ => K) stop :=
  (Triple.ask_free hq ht hu).mono (fun reply _ => ⟨trivial, by simp [hg]⟩) fun _ h => h

/-- A request that neither takes nor gives nor names anything. -/
theorem Triple.inquiry_unnamed {q : Request} {stop : Host σ → Prop} (hq : q.isPlain)
    (ht : q.taken = []) (hg : ∀ reply, q.given reply = []) (hu : q.uses = []) :
    A.Triple X K (Host.ask q) (fun _ => True) (fun _ => K) stop :=
  Triple.inquiry hq ht hg (by simp [hu])

/-! ## Lists -/

theorem Keeps.mapM {β : Type} {l : List α} {f : α → Action σ β}
    (hf : ∀ a ∈ l, A.Keeps X K (f a)) : A.Keeps X K (l.mapM f) := by
  induction l with
  | nil => exact Keeps.pure
  | cons a l ih =>
      rw [List.mapM_cons]
      refine (hf a List.mem_cons_self).bind fun b => ?_
      exact (ih fun a ha => hf a (List.mem_cons_of_mem _ ha)).bind fun bs => Keeps.pure

/-- What is used up one by one is used up. -/
theorem Spends.forM {l : List α} {f : α → Action σ Unit} {refs : α → List Ref}
    (hf : ∀ a ∈ l, ∀ L, A.Spends X (refs a) L (f a)) :
    A.Spends X (l.flatMap refs : List Ref) K (l.forM f) := by
  induction l with
  | nil => exact Triple.pure trivial (zero_add K)
  | cons a l ih =>
      have hhead := hf a List.mem_cons_self ((l.flatMap refs : List Ref) + K)
      have htail := ih fun a ha => hf a (List.mem_cons_of_mem _ ha)
      have hsum : (((a :: l).flatMap refs : List Ref) : Multiset Ref) + K =
          refs a + ((l.flatMap refs : List Ref) + K) := by
        rw [List.flatMap_cons, ← Multiset.coe_add, add_assoc]
      rw [Spends, hsum]
      exact Triple.bind hhead fun _ _ => htail

end Accounting

/-! ## Work that is done up to a bound -/

namespace Host

open Accounting (bind_ok bind_error)

variable {c : ContextId}

/-- Does so many pieces of waiting work at most; counts the pieces. -/
def runJobsUpTo (c : ContextId) (realm : RealmId) : Nat → Nat → Action σ Nat
  | 0, count => pure count
  | bound + 1, count => do
    match ← ask .runJob with
    | .idle => pure count
    | .done => runJobsUpTo c realm bound (count + 1)
    | .failed r => failedJob c realm r

/-- Work that comes to an end does so within some bound. -/
theorem runJobsUpTo_of_comes {realm : RealmId} {x : Nat × Host σ} {outcome : Except Stop Nat × Host σ}
    (h : Loop.Comes (attemptJob c realm) x outcome) :
    ∃ bound, runJobsUpTo c realm bound x.1 x.2 = outcome := by
  induction h with
  | @here x outcome hend =>
      obtain ⟨count, s⟩ := x
      -- The turn that ends the loop is one that a bound of one allows.
      refine ⟨1, ?_⟩
      simp only [attemptJob] at hend
      rcases hask : ask .runJob s with ⟨e | reply, s'⟩
      · rw [hask] at hend
        cases hend
        exact bind_error hask
      · rw [hask] at hend
        cases reply with
        | idle | failed _ =>
            cases hend
            exact bind_ok hask
        | done => cases hend
  | @later x x' outcome hgoes _ ih =>
      obtain ⟨bound, hbound⟩ := ih
      obtain ⟨count, s⟩ := x
      refine ⟨bound + 1, ?_⟩
      simp only [attemptJob] at hgoes
      rcases hask : ask .runJob s with ⟨e | reply, s'⟩
      · rw [hask] at hgoes
        cases hgoes
      · rw [hask] at hgoes
        cases reply with
        | idle | failed _ => cases hgoes
        | done =>
            cases hgoes
            exact (bind_ok hask).trans hbound

/-- What comes of waiting work comes of some number of pieces at most. -/
theorem runPendingJobs_eq (c : ContextId) (s : Host σ) : ∃ bound, runPendingJobs c s = (do
    let realm ← realmToRun c
    runJobsUpTo c realm bound 0 : Action σ Nat) s := by
  rcases hrealm : realmToRun c s with ⟨e | realm, s'⟩
  · exact ⟨0, (bind_error hrealm).trans (bind_error hrealm).symm⟩
  · have hwhole : runPendingJobs c s = (runJobs c realm 0 s').getD (.ok 0, s') := bind_ok hrealm
    cases hrun : runJobs c realm 0 s' with
    | none =>
        rw [hwhole, hrun]
        exact ⟨0, (bind_ok (f := fun realm => runJobsUpTo c realm 0 0) hrealm).symm⟩
    | some outcome =>
        obtain ⟨bound, hbound⟩ := runJobsUpTo_of_comes (untilEnd_eq_some.1 hrun)
        rw [hwhole, hrun]
        exact ⟨bound, ((bind_ok hrealm).trans hbound).symm⟩

end Host

end ScriptHost
