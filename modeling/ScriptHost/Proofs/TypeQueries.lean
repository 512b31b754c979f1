import ScriptHost.Proofs.Identifying
import ScriptHost.Proofs.Leftovers
/-!
# Asking what values are

An engine in which nothing waits to be freed is left as it is by a question of what a value is, as long
as no script has a say in the answer.  So the answers can be told beforehand, for any questions in any
order.
-/

namespace ScriptHost

/-! ## Answers -/

namespace Machine

variable (m : Machine) (r : RealmId) (calls : List CallSite) (used : Nat)

theorem loose_amid (roots : List Node) : (m.amid r calls used).loose roots = m.loose roots := by
  have hheap : (m.amid r calls used).heap = m.heap := rfl
  exact loose_of_same hheap rfl rfl roots

theorem finding_amid (q : TypeQuery) (x : Cache) (v : Value) :
    q.finding x (m.amid r calls used) v = q.finding x m v := by
  cases q with
  | number | bigInt | tagged _ | error | function => rfl
  | constructor =>
      unfold TypeQuery.finding
      rw [constructs_amid]
  | array | map | set | weakMap | weakSet | arrayBuffer | typedArray _ =>
      exact congrArg Finding.truth (m.inherits_amid r calls used _ _)
  | elementKind =>
      unfold TypeQuery.finding
      simp only [inherits_amid]
  | typeName => cases v <;> rfl

end Machine

/-! ## Engines -/

namespace ScriptEngine

variable {e e' : ScriptEngine} {q : Request} {a : q.Reply} {r : RealmId} {v f : Value}

theorem Alike.refl (e : ScriptEngine) : e.Alike e :=
  ⟨e.machine.realm, e.machine.calls, e.machine.stackUsed, rfl⟩

theorem Alike.trans {e'' : ScriptEngine} (h : e.Alike e') (h' : e'.Alike e'') : e.Alike e'' := by
  obtain ⟨_, _, _, rfl⟩ := h
  obtain ⟨r, calls, used, rfl⟩ := h'
  exact ⟨r, calls, used, rfl⟩

theorem Settled.alike (hs : e.Settled) (h : e.Alike e') : e'.Settled := by
  obtain ⟨r, calls, used, rfl⟩ := h
  refine ⟨hs.released, hs.jobs, fun hwatched => ?_⟩
  rw [Machine.loose_amid]
  exact hs.freed hwatched

/-- A request on which nothing changes hands, and which leaves an engine alike in which nothing waits,
is answered with that engine. -/
theorem Settled.answer_alike (hs : e.Settled) (hplain : q ≠ .collect ∧ q ≠ .shutDown)
    (hledger : e.ledger.after q a = e.ledger) (hcore : core q e = (a, e')) (halike : e.Alike e') :
    Engine.answer q e = ⟨a, e', []⟩ := by
  have hsettled : e'.Settled := hs.alike halike
  have hcounted : { e' with ledger := e'.ledger.after q a } = e' := by
    obtain ⟨_, _, _, rfl⟩ := halike
    rw [hledger]
  -- What would be freed after the answer is freed already.
  have htidy : tidy q a e' = e' := by
    rw [tidy_eq hplain]
    split
    next hfree =>
      have hnone := hsettled.freed (Bool.and_eq_true_iff.1 hfree).1
      rw [Machine.settle, hnone]
    next => rfl
  have hrested : e'.AtRest := ⟨hsettled.released, hsettled.jobs⟩
  have hanswer : Engine.answer q e = ScriptEngine.answer q e := rfl
  rw [hanswer, answer, hcore]
  dsimp only
  rw [hcounted, htidy, hrested.rested, hsettled.released]

/-- Whether a value is an instance of a constructor is found out without changing anything. -/
theorem Settled.answer_isInstance (hs : e.Settled) (h : e.machine.TellsInstance v f)
    (hv : v.isObject = true) (hf : f.isObject = true) :
    Engine.answer (.isInstance r v f) e =
      ⟨some (e.machine.inherits v f), { e with machine := e.machine.started r }, []⟩ := by
  have hstarted : e.machine.started r = e.machine.amid r [] 0 := rfl
  have htells : (e.machine.started r).TellsInstance v f := h.amid r [] 0
  have hcore : core (.isInstance r v f) e =
      (some (e.machine.inherits v f), { e with machine := e.machine.started r }) := by
    refine run_reads ?_
    have hfound := Eval.instanceOf_tells (d := 9999) htells hv hf rfl
    rwa [hstarted, Machine.inherits_amid] at hfound
  exact hs.answer_alike ⟨nofun, nofun⟩ rfl hcore ⟨r, [], 0, rfl⟩

end ScriptEngine

/-! ## Hosts -/

namespace Host

open Accounting (bind_ok context_ok live_ok)

variable {s s' : Host ScriptEngine} {h : Handle} {α β : Type}

theorem Alike.refl (s : Host ScriptEngine) : s.Alike s := ⟨rfl, .refl _⟩

theorem Alike.trans {s'' : Host ScriptEngine} (h : s.Alike s') (h' : s'.Alike s'') : s.Alike s'' := by
  refine ⟨?_, h.2.trans h'.2⟩
  rw [h'.1, h.1]

theorem Alike.contexts (h : s.Alike s') : s'.contexts = s.contexts := by rw [h.1]

/-- An action that finds something out about a host, whatever its engine did last. -/
def Finds (s : Host ScriptEngine) (x : Action ScriptEngine α) (a : α) : Prop :=
  ∀ s', s.Alike s' → ∃ s'', x s' = (.ok a, s'') ∧ s.Alike s''

namespace Finds

variable {x : Action ScriptEngine α} {y : α → Action ScriptEngine β} {a : α} {b : β}

theorem pure : s.Finds (Pure.pure a) a := fun s' hs' => ⟨s', rfl, hs'⟩

theorem bind (hx : s.Finds x a) (hy : s.Finds (y a) b) : s.Finds (x >>= y) b := by
  intro s' hs'
  obtain ⟨t, hrun, ht⟩ := hx s' hs'
  obtain ⟨t', hrun', ht'⟩ := hy t ht
  exact ⟨t', (bind_ok hrun).trans hrun', ht'⟩

theorem context (c : ContextId) : s.Finds (Host.context c) (Contexts.entry s.contexts c) := by
  intro s' hs'
  have hrun := context_ok c s'
  rw [hs'.contexts] at hrun
  exact ⟨s', hrun, hs'⟩

theorem live {c : ContextId} {r : RealmId} (hr : (Contexts.entry s.contexts c).realm = some r) :
    s.Finds (Host.live c) r := by
  intro s' hs'
  rw [← hs'.contexts] at hr
  exact ⟨s', live_ok hr, hs'⟩

/-- A request that is answered with an engine that is alike. -/
theorem ask {q : Request} {a : q.Reply}
    (hq : ∀ e, s.engine.Alike e → ∃ e', Engine.answer q e = ⟨a, e', []⟩ ∧ e.Alike e') :
    s.Finds (Host.ask q) a := by
  intro s' hs'
  obtain ⟨e', hanswer, halike⟩ := hq s'.engine hs'.2
  refine ⟨s'.withEngine e', ?_, ?_⟩
  · rw [ask_run, hanswer]
    rfl
  · refine ⟨?_, hs'.2.trans halike⟩
    rw [hs'.1]
    rfl

end Finds

section Questions

variable (hs : s.engine.Settled)
include hs

/-- A question that an engine answers from its machine. -/
theorem reads_finds {q : Request} {a : q.Reply} (hplain : q ≠ .collect ∧ q ≠ .shutDown)
    (hledger : ∀ l : Ledger, l.after q a = l)
    (hcore : ∀ e, s.engine.Alike e → ScriptEngine.core q e = (a, e)) : s.Finds (Host.ask q) a := by
  refine Finds.ask fun e he => ⟨e, ?_, .refl e⟩
  exact (hs.alike he).answer_alike hplain (hledger _) (hcore e he) (.refl e)

theorem isInstance_finds {f : Value} (hlive : (Contexts.entry s.contexts h.context).realm.isSome = true)
    (ht : s.engine.machine.TellsInstance h.value f) :
    s.Finds (Host.isInstance h f) (s.engine.machine.inherits h.value f) := by
  obtain ⟨r, hr⟩ := Option.isSome_iff_exists.1 hlive
  unfold Host.isInstance
  by_cases hobjects : (h.value.isObject && f.isObject) = true
  · rw [if_pos hobjects]
    obtain ⟨hv, hf⟩ := Bool.and_eq_true_iff.1 hobjects
    have hasked : s.Finds (Host.ask (.isInstance r h.value f))
        (some (s.engine.machine.inherits h.value f)) := by
      refine Finds.ask fun e he => ?_
      -- Between the questions only calls were counted, which has no say in the answer.
      have hsettled := hs.alike he
      obtain ⟨r', calls, used, rfl⟩ := he
      have hanswer := hsettled.answer_isInstance (r := r) (ht.amid r' calls used) hv hf
      rw [Machine.inherits_amid] at hanswer
      exact ⟨_, hanswer, r, [], 0, rfl⟩
    exact (Finds.live hr).bind (hasked.bind Finds.pure)
  · rw [if_neg hobjects]
    have hno : s.engine.machine.inherits h.value f = false :=
      Bool.eq_false_iff.2 fun hyes => hobjects (Machine.objects_of_inherits hyes)
    rw [hno]
    exact Finds.pure

theorem isCached_finds (field : Cache → Value)
    (hlive : (Contexts.entry s.contexts h.context).realm.isSome = true)
    (ht : s.engine.machine.TellsInstance h.value (field (Contexts.entry s.contexts h.context).cache)) :
    s.Finds (Host.isCached h field)
      (s.engine.machine.inherits h.value (field (Contexts.entry s.contexts h.context).cache)) :=
  (Finds.context h.context).bind (isInstance_finds hs hlive ht)

theorem firstKind_finds (hlive : (Contexts.entry s.contexts h.context).realm.isSome = true)
    (ks : List ElementKind) (ht : ∀ k ∈ ks, s.engine.machine.TellsInstance h.value
      ((Contexts.entry s.contexts h.context).cache.elements k)) :
    s.Finds (Host.firstKind (Host.isTypedArray h) ks) (ks.find? fun k =>
      s.engine.machine.inherits h.value ((Contexts.entry s.contexts h.context).cache.elements k)) := by
  induction ks with
  | nil => exact Finds.pure
  | cons k ks ih =>
      rw [Host.firstKind, List.find?_cons]
      have htest := isCached_finds hs (fun x => x.elements k) hlive (ht k List.mem_cons_self)
      have hrest := ih fun k hk => ht k (List.mem_cons_of_mem _ hk)
      refine Finds.bind htest ?_
      -- The first kind of which the value is an instance ends the search.
      cases s.engine.machine.inherits h.value
        ((Contexts.entry s.contexts h.context).cache.elements k) with
      | true => exact Finds.pure
      | false => exact hrest

theorem elementKind_finds (hlive : (Contexts.entry s.contexts h.context).realm.isSome = true)
    (ht : ∀ k, s.engine.machine.TellsInstance h.value
      ((Contexts.entry s.contexts h.context).cache.elements k)) :
    s.Finds (Host.elementKind? h) (ElementKind.all.find? fun k =>
      s.engine.machine.inherits h.value ((Contexts.entry s.contexts h.context).cache.elements k)) := by
  unfold Host.elementKind?
  split
  next => exact firstKind_finds hs hlive _ fun k _ => ht k
  next hv =>
    have hnone : (fun k => s.engine.machine.inherits h.value
        ((Contexts.entry s.contexts h.context).cache.elements k)) = fun _ => false := by
      funext k
      refine Bool.eq_false_iff.2 fun hyes => hv ?_
      exact (Bool.and_eq_true_iff.1 (Machine.objects_of_inherits hyes)).1
    rw [hnone]
    exact Finds.pure

omit hs in
/-- What is asked of objects only. -/
theorem ifObject_finds {x : RealmId → Action ScriptEngine Bool} {b : Bool}
    (hlive : (Contexts.entry s.contexts h.context).realm.isSome = true)
    (hx : ∀ r, s.Finds (x r) b) :
    s.Finds (if h.value.isObject then do x (← live h.context) else Pure.pure false)
      (h.value.isObject && b) := by
  obtain ⟨r, hr⟩ := Option.isSome_iff_exists.1 hlive
  split
  next hv =>
    rw [hv, Bool.true_and]
    exact (Finds.live hr).bind (hx r)
  next hv =>
    rw [Bool.eq_false_iff.2 hv, Bool.false_and]
    exact Finds.pure

variable (hlive : (Contexts.entry s.contexts h.context).realm.isSome = true)
include hlive

theorem isFunction_finds :
    s.Finds (Host.isFunction h) (h.value.isObject && s.engine.machine.callable h.value) := by
  refine ifObject_finds hlive fun r => reads_finds hs ⟨nofun, nofun⟩ (fun _ => rfl) fun e he => ?_
  obtain ⟨_, _, _, rfl⟩ := he
  rfl

theorem isConstructor_finds :
    s.Finds (Host.isConstructor h) (h.value.isObject && s.engine.machine.constructs h.value) := by
  refine ifObject_finds hlive fun r => reads_finds hs ⟨nofun, nofun⟩ (fun _ => rfl) fun e he => ?_
  obtain ⟨r', calls, used, rfl⟩ := he
  rw [← s.engine.machine.constructs_amid r' calls used]
  rfl

theorem isError_finds :
    s.Finds (Host.isError h) (h.value.isObject && s.engine.machine.isError h.value) := by
  refine ifObject_finds hlive fun r => reads_finds hs ⟨nofun, nofun⟩ (fun _ => rfl) fun e he => ?_
  obtain ⟨_, _, _, rfl⟩ := he
  rfl

theorem typeName_finds : s.Finds (Host.typeName h) (s.engine.machine.typeWord h.value) := by
  have hfunction := isFunction_finds hs hlive
  unfold Host.typeName
  cases hv : h.value with
  | object id =>
      rw [hv] at hfunction
      exact hfunction.bind Finds.pure
  | _ => exact Finds.pure

end Questions

end Host

namespace TypeQuery

open Host (Finds)

variable {s : Host ScriptEngine} {h : Handle}

/-- A question is answered as the machine tells beforehand. -/
theorem ask_finds (hs : s.engine.Settled) {q : TypeQuery} (ht : q.Told s h) : s.Finds (q.ask h)
    (q.finding (Contexts.entry s.contexts h.context).cache s.engine.machine h.value) := by
  have hlive := ht.live
  have hone : ∀ field : Cache → Value,
      (∀ f ∈ [field (Contexts.entry s.contexts h.context).cache],
        s.engine.machine.TellsInstance h.value f) →
      s.Finds (do pure (Finding.truth (← Host.isCached h field)))
        (.truth (s.engine.machine.inherits h.value
          (field (Contexts.entry s.contexts h.context).cache))) := fun field hall =>
    Finds.bind (Host.isCached_finds hs field hlive (hall _ List.mem_cons_self)) Finds.pure
  cases q with
  | number | bigInt | tagged _ => exact Finds.pure
  | error => exact (Host.isError_finds hs hlive).bind Finds.pure
  | function => exact (Host.isFunction_finds hs hlive).bind Finds.pure
  | constructor => exact (Host.isConstructor_finds hs hlive).bind Finds.pure
  | array => exact hone (·.array) ht.tells
  | map => exact hone (·.map) ht.tells
  | set => exact hone (·.set) ht.tells
  | weakMap => exact hone (·.weakMap) ht.tells
  | weakSet => exact hone (·.weakSet) ht.tells
  | arrayBuffer => exact hone (·.buffer) ht.tells
  | typedArray k => exact hone (fun x => x.elements k) ht.tells
  | elementKind =>
      have hall := fun k => ht.tells _ (List.mem_map_of_mem (ElementKind.mem_all k))
      exact (Host.elementKind_finds hs hlive hall).bind Finds.pure
  | typeName => exact (Host.typeName_finds hs hlive).bind Finds.pure

end TypeQuery

namespace Host

variable {s : Host ScriptEngine} {α β : Type}

/-- Any number of things can be found out, one after another. -/
theorem Finds.mapM {x : α → Action ScriptEngine β} {found : α → β} {l : List α}
    (hx : ∀ a ∈ l, s.Finds (x a) (found a)) : s.Finds (l.mapM x) (l.map found) := by
  induction l with
  | nil => exact Finds.pure
  | cons a l ih =>
      have hrest := ih fun b hb => hx b (List.mem_cons_of_mem a hb)
      rw [List.mapM_cons]
      exact (hx a List.mem_cons_self).bind (hrest.bind Finds.pure)

/-- Questions of what values are leave a host as it is in which nothing waits to be freed, unless a
script has a say in an answer: its contexts, settings, lent memory and log, and in its engine every
object, realm and piece of work, what is pending, and who holds what.  So each question has the answer
that it has by itself, however often and in whichever order the questions are put. -/
theorem type_queries_pure (hs : s.engine.Settled) (asked : List (TypeQuery × Handle))
    (htold : ∀ a ∈ asked, a.1.Told s a.2) :
    ∃ s', TypeQuery.askAll asked s = (.ok (TypeQuery.findings s asked), s') ∧ s.Alike s' := by
  have hall : s.Finds (TypeQuery.askAll asked) (TypeQuery.findings s asked) :=
    Finds.mapM fun a ha => TypeQuery.ask_finds hs (htold a ha)
  exact hall s (.refl s)

/-- A host with one context, which has the constructors of maps and of a kind of typed arrays.  There
is a map, a proxy for it, a typed array, one that has the prototype of a map, an object that only
inherits what typed arrays do, and a buffer. -/
def variedHost : Host ScriptEngine :=
  let constructor (index prototype : Nat) : Obj :=
    { body := .native { family := .constructors, index := index, constructs := true } 0
      proto := some 0
      props := { members := #[(Key.str "prototype", .hidden (.object prototype))] } }
  let typed (proto : Nat) : Obj :=
    { body := .typed { kind := .uint8, buffer := 12, length := 4, count := 4, region := some 0 }
      proto := some proto }
  { engine := { machine :=
      { heap := #[
          { props := { members := #[(.symbol WellKnown.hasInstance, .hidden (.object 5))] } },
          {}, {}, constructor 23 1, constructor 32 2,
          { body := .native { family := .functionPrototype, index := 4 } 0 },
          { body := .map #[] 0, proto := some 1 }, { body := .proxy (some 6) (some 8) false false }, {},
          typed 2, typed 1, { proto := some 2 }, { body := .buffer { region := some 0, length := 4 } }]
        regions := #[⟨#[1, 2, 3, 4]⟩], realms := #[{}] } }
    contexts := (∅ : Contexts).insert 0
      { realm := some 0
        cache :=
          { map := .object 3
            elements := fun k => if k = .uint8 then .object 4 else .undefined } } }

/-- What is an instance of the constructors of the host is told by prototypes alone. -/
theorem variedHost_tells {id : Nat} (hid : id < 13) {f : Value}
    (hf : f = .object 3 ∨ f = .object 4 ∨ f = .undefined) :
    variedHost.engine.machine.TellsInstance (.object id) f := by
  have hjudge : variedHost.engine.machine.Performs 0 Builtin.hasInstance 5 := ⟨_, _, rfl, rfl, rfl⟩
  have hplain : variedHost.engine.machine.IsPlain 0 := by decide
  have hshown : ∀ id < 13, (variedHost.engine.machine.ancestors id).isSome = true := by
    decide
  constructor
  case judges =>
    intro _ c _ hc
    rcases hf with rfl | rfl | rfl
    · cases hc
      exact ⟨1, by decide, ⟨_, _, rfl⟩, rfl, [0], 5, 0, ⟨rfl, hplain, rfl⟩, rfl, hjudge⟩
    · cases hc
      exact ⟨2, by decide, ⟨_, _, rfl⟩, rfl, [0], 5, 0, ⟨rfl, hplain, rfl⟩, rfl, hjudge⟩
    · cases hc
  case shown =>
    intro _ c hv _
    cases hv
    exact hshown id hid
  case room => exact fun _ _ => by decide

/-- The kinds of typed arrays are told of everything in the host. -/
theorem variedHost_tellsKinds {id : Nat} (hid : id < 13) (k : ElementKind) :
    variedHost.engine.machine.TellsInstance (.object id)
      ((Contexts.entry variedHost.contexts 0).cache.elements k) := by
  have hfield : (Contexts.entry variedHost.contexts 0).cache.elements k =
      if k = .uint8 then .object 4 else .undefined := rfl
  refine variedHost_tells hid ?_
  rw [hfield]
  split
  · exact .inr (.inl rfl)
  · exact .inr (.inr rfl)

/-- A proxy for a map is a map, and the kind of a typed array is that of its prototypes. -/
theorem type_queries_pure_varied : ∃ s', TypeQuery.askAll [(.map, ⟨0, .object 6⟩),
      (.map, ⟨0, .object 7⟩), (.elementKind, ⟨0, .object 9⟩), (.elementKind, ⟨0, .object 10⟩),
      (.map, ⟨0, .object 6⟩)] variedHost =
    (.ok [.truth true, .truth true, .kind (some .uint8), .kind none, .truth true], s') ∧
      variedHost.Alike s' := by
  have hmap : ∀ id < 13, TypeQuery.map.Told variedHost ⟨0, .object id⟩ := fun id hid =>
    ⟨rfl, fun f hf => variedHost_tells hid (.inl (List.mem_singleton.1 hf))⟩
  have hkind : ∀ id < 13, TypeQuery.elementKind.Told variedHost ⟨0, .object id⟩ := by
    refine fun id hid => ⟨rfl, fun f hf => ?_⟩
    obtain ⟨k, -, rfl⟩ := List.mem_map.1 hf
    exact variedHost_tellsKinds hid k
  have hpure := type_queries_pure (s := variedHost) ⟨rfl, rfl, nofun⟩
    [(.map, ⟨0, .object 6⟩), (.map, ⟨0, .object 7⟩), (.elementKind, ⟨0, .object 9⟩),
      (.elementKind, ⟨0, .object 10⟩), (.map, ⟨0, .object 6⟩)] (by
    simp only [List.mem_cons, List.not_mem_nil, or_false, forall_eq_or_imp, forall_eq]
    exact ⟨hmap 6 (by decide), hmap 7 (by decide), hkind 9 (by decide), hkind 10 (by decide),
      hmap 6 (by decide)⟩)
  have hfound : TypeQuery.findings variedHost [(.map, ⟨0, .object 6⟩), (.map, ⟨0, .object 7⟩),
      (.elementKind, ⟨0, .object 9⟩), (.elementKind, ⟨0, .object 10⟩), (.map, ⟨0, .object 6⟩)] =
        [.truth true, .truth true, .kind (some .uint8), .kind none, .truth true] := by
    decide
  rwa [hfound] at hpure

/-- A host with one context, in which a script has a say in what a map is: the constructor of maps
takes a value out of a set, and says whether it was there. -/
def hookedHost : Host ScriptEngine :=
  { engine := { machine :=
      { heap := #[
          {}, { body := .set #[some (.object 0, .undefined)] 1 },
          { body := .native { family := .setPrototype, index := 2 } 0 },
          { body := .bound (.object 2) (.object 1) #[] },
          { body := .native { family := .constructors, index := 23 } 0
            props := { members := #[(.symbol WellKnown.hasInstance, .plain (.object 3))] } }]
        realms := #[{}] } }
    contexts := (∅ : Contexts).insert 0 { realm := some 0, cache := { map := .object 4 } } }

/-- Asked whether it is a map, a value is one, and asked again it is none, for the set is empty then. -/
theorem query_changes_answer : hookedHost.engine.Settled ∧
    (TypeQuery.askAll [(.map, ⟨0, .object 0⟩), (.map, ⟨0, .object 0⟩)] hookedHost).1.toOption =
      some [.truth true, .truth false] ∧
    ¬hookedHost.Alike (TypeQuery.askAll [(.map, ⟨0, .object 0⟩)] hookedHost).2 := by
  refine ⟨⟨rfl, rfl, nofun⟩, by decide +kernel, fun halike => ?_⟩
  -- What the set still refers to tells the two apart.
  let left (s : Host ScriptEngine) : Nat := (Node.ofBody (s.engine.machine.body 1)).length
  have hsame : left (TypeQuery.askAll [(.map, ⟨0, .object 0⟩)] hookedHost).2 = left hookedHost := by
    obtain ⟨r, calls, used, hengine⟩ := halike.2
    unfold left
    rw [hengine]
    rfl
  have hnone : left (TypeQuery.askAll [(.map, ⟨0, .object 0⟩)] hookedHost).2 = 0 := by
    decide +kernel
  rw [hnone] at hsame
  cases hsame

end Host

end ScriptHost
