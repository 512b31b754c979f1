import ScriptHost.Proofs.TypeErrors
/-!
# What requests do to properties

What the engine answers when it is to write a property, to delete one, or to say whether there is one,
and what is known of its machine afterwards: one property was changed or none, and nothing was freed
that is held.
-/

namespace ScriptHost

namespace Machine

variable {m m' m₀ : Machine} {id j : Nat} {k : Key} {p : Property} {ps held : List Nat}
  {but : Nat → Key → Prop} {v : Value}

/-! ## Changing one property -/

/-- Changing what an object has under one key. -/
theorem Evolves.of_table {f : PropertyTable → PropertyTable}
    (hf : ∀ t k', k' ≠ k → (f t).get? k' = t.get? k') :
    m.Evolves (place id k) (m.withProps id f) := by
  refine .of_props (by simp) (fun j _ => body_withProps ..) (fun j hj => ?_) rfl rfl
    fun j _ k' hk' => .inl ?_
  · rw [body_withProps]
    exact (Grows.refl m).new j hj
  · rw [obj_withProps]
    split
    next hid => exact hf _ _ fun hk => hk' ⟨hid.1.symm, hk⟩
    next => rfl

theorem evolves_putAt : m.Evolves (place id k) (m.putAt id k p) :=
  .of_table fun t k' hk' => by rw [PropertyTable.get_put, if_neg hk']

theorem evolves_eraseAt : m.Evolves (place id k) (m.eraseAt id k) :=
  .of_table fun t k' hk' => by rw [PropertyTable.get_erase, if_neg hk']

/-! ## What is known between two requests -/

/-- What is known of a machine that came from another one. -/
structure Follows (m₀ : Machine) (held : List Nat) (but : Nat → Key → Prop) (m : Machine) :
    Prop where
  evolves : m₀.Evolves but m
  alive : ∀ j ∈ held, m.body j = .freed → m₀.body j = .freed

theorem Follows.keeps (h : m₀.Follows held but m) : m₀.Keeps held but m :=
  ⟨h.evolves.same, h.alive⟩

theorem Follows.of_grows (h : m₀.Grows m) : m₀.Follows held but m := by
  refine ⟨h.evolves, fun j _ hfreed => ?_⟩
  rcases Nat.lt_or_ge j m₀.heap.size with hj | hj
  · rwa [h.body j hj] at hfreed
  · have hnew := h.new j hj
    rw [hfreed] at hnew
    cases hnew

theorem Follows.trans (h : m₀.Follows held but m) (h' : m.Follows held but m') :
    m₀.Follows held but m' :=
  ⟨h.evolves.trans h'.evolves, fun j hj hfreed => h.alive j hj (h'.alive j hj hfreed)⟩

theorem Follows.mono {but' : Nat → Key → Prop} (h : m₀.Follows held but m)
    (hsub : ∀ j k, but j k → but' j k) : m₀.Follows held but' m := ⟨h.evolves.mono hsub, h.alive⟩

theorem Follows.started (r : RealmId) : m.Follows held but (m.started r) :=
  ⟨.of_same rfl rfl rfl, fun _ _ hfreed => hfreed⟩

/-- Nothing that is held is freed. -/
theorem Sheds.body_freed {roots : List Node}
    (h : m.Sheds (fun id => m.Held roots (.object id)) m') (hj : m.Held roots (.object j))
    (hfreed : m'.body j = .freed) : m.body j = .freed := by
  have hstays := h.stays j hj
  obtain ⟨o, ho⟩ : ∃ o, o = m'.obj j := ⟨_, rfl⟩
  rw [body, ← ho] at hfreed
  rw [← ho] at hstays
  cases hstays with
  | same => exact hfreed
  | noticed _ hnew =>
      dsimp only at hfreed
      rw [hfreed] at hnew
      cases hnew

/-- An object that is held stays as plain as it is. -/
theorem Sheds.isPlain {roots : List Node}
    (h : m.Sheds (fun id => m.Held roots (.object id)) m') (hid : m.Held roots (.object id))
    (hplain : m.IsPlain id) : m'.obj id = m.obj id ∧ m'.IsPlain id :=
  ⟨(h.stays id hid).eq hplain.not_weak, (Spares.of_sheds h).isPlain hid hplain⟩

/-- A plain object whose properties came from those of another moment. -/
theorem Follows.rel (h : m₀.Follows held nowhere m) (hplain₀ : m₀.IsPlain id) (hplain : m.IsPlain id)
    (k : Key) : Option.Rel Property.Settles ((m₀.obj id).props.get? k) ((m.obj id).props.get? k) := by
  have hthere : ¬m₀.Gone m id := by
    rintro (hfreed | ⟨t, g, i, b, htyped, -⟩)
    · have hbody := hplain.2
      rw [hfreed] at hbody
      cases hbody
    · have hbody := hplain₀.2
      rw [htyped] at hbody
      cases hbody
  have hrel := h.evolves.same id hplain₀.1 hthere k fun hno => hno
  rwa [hplain₀.own_eq, hplain.own_eq] at hrel

/-- What is known after a write went well. -/
structure Written (m₀ : Machine) (held : List Nat) (id : Nat) (k : Key) (v : Value) (m : Machine) :
    Prop where
  follows : m₀.Follows (v.objects ++ held) (place id k) m
  plain : m.IsPlain id
  own : (m.obj id).props.get? k =
    some { ((m₀.obj id).props.get? k).getD (.plain v) with content := .data v true }

/-- What is known after a deletion went well. -/
structure Deleted (m₀ : Machine) (held : List Nat) (id : Nat) (k : Key) (m : Machine) : Prop where
  follows : m₀.Follows held (place id k) m
  plain : m.IsPlain id
  own : (m.obj id).props.get? k = none

end Machine

namespace ScriptEngine

open Machine (Follows Written Deleted nowhere place)

variable {m m₀ : Machine} {id : Nat} {k : Key} {ps held : List Nat} {but : Nat → Key → Prop}
  {v : Value} {r : RealmId} {e : ScriptEngine}

theorem Steady.follows : Steady held fun m => m₀.Follows held but m := by
  refine ⟨fun m m' roots hroots hm hsheds => ?_, fun m m' hm hgrows => ?_⟩
  · refine ⟨hm.evolves.trans (.of_sheds hsheds), fun j hj hfreed => hm.alive j hj ?_⟩
    exact hsheds.body_freed (.root (List.mem_append_left _ (hroots j hj))) hfreed
  · have hnext : m.Follows held nowhere m' := .of_grows hgrows
    exact ⟨hm.evolves.trans hgrows.evolves, fun j hj hfreed => hm.alive j hj (hnext.alive j hj hfreed)⟩

theorem isPlain_lasting (hid : id ∈ held) : Lasting held fun m => m.IsPlain id := by
  intro m m' roots hroots hm hsheds
  exact (hsheds.isPlain (.root (List.mem_append_left _ (hroots id hid))) hm).2

/-- What was written stays, and holds what was handed over. -/
theorem written_lasting (hid : id ∈ held) : Lasting held fun m => m₀.Written held id k v m := by
  intro m m' roots hroots hm hsheds
  have hheld : ∀ j ∈ held, m.Held roots (.object j) := fun j hj =>
    .root (List.mem_append_left _ (hroots j hj))
  obtain ⟨hobj, hplain⟩ := hsheds.isPlain (hheld id hid) hm.plain
  refine ⟨⟨hm.follows.evolves.trans (.of_sheds hsheds), fun j hj hfreed => ?_⟩, hplain, ?_⟩
  · refine hm.follows.alive j hj (hsheds.body_freed ?_ hfreed)
    rcases List.mem_append.1 hj with hj | hj
    · refine .object (hheld id hid) hm.plain.not_weak (Machine.mem_refs_property hm.own ?_)
      cases v with
      | object i =>
          obtain rfl := List.mem_singleton.1 hj
          exact Machine.mem_ofProperty_of_value rfl
      | _ => cases hj
    · exact hheld j hj
  · rw [hobj]
    exact hm.own

theorem deleted_lasting (hid : id ∈ held) : Lasting held fun m => m₀.Deleted held id k m := by
  intro m m' roots hroots hm hsheds
  obtain ⟨hobj, hplain⟩ := hsheds.isPlain (.root (List.mem_append_left _ (hroots id hid))) hm.plain
  refine ⟨Steady.follows.lasting m m' roots hroots hm.follows hsheds, hplain, ?_⟩
  rw [hobj]
  exact hm.own

end ScriptEngine

namespace Machine

variable {m m' : Machine} {id : Nat} {k : Key} {p : Property} {ps : List Nat} {r : RealmId}

/-! ## What is done for a request -/

theorem Simple.of_heap (h : m.Simple k id ps) (hheap : m'.heap = m.heap) : m'.Simple k id ps := by
  have hobj : ∀ j, m'.obj j = m.obj j := fun j => by rw [obj, hheap, obj]
  refine ⟨⟨hheap ▸ h.plain.1, ?_⟩, ?_, h.descends.of_heap hheap, fun j hj p hp => ?_⟩
  · rw [body, hobj]
    exact h.plain.2
  · rw [body, hobj]
    exact h.noArray
  · rw [hobj] at hp
    exact h.noAccessor j hj p hp

theorem TellsTypeErrors.started (h : m.TellsTypeErrors r) : (m.started r).TellsTypeErrors r := by
  intro q hq
  obtain ⟨ps, hplain, hps, hdata⟩ := h q hq
  exact ⟨ps, hplain, .of_heap (m := m) rfl hps, hdata⟩

/-- A write is done, or a type error was raised. -/
theorem Simple.write (h : m.Simple k id ps) (interp : Interp) (held : List Nat) (v : Value) :
    (∃ m', Eval.setProp id k v interp m = .ok () m' ∧ m.Written held id k v m') ∨
    ∃ m' reason, m.Grows m' ∧ Eval.setProp id k v interp m =
      .error (.object m'.heap.size) (Eval.raised m' .type reason) := by
  have hset : Eval.setProp id k v = (do Eval.orThrow (← Eval.setFor id k v (.object id))) := rfl
  obtain ⟨c, m', hrun, hwrote⟩ := Eval.setFor_wrote (I := interp) h v
  rw [hset, Eval.bind_of_ok hrun]
  cases hwrote with
  | refused reason hgrows => exact .inr ⟨_, reason, hgrows, rfl⟩
  | done hgrows =>
      refine .inl ⟨_, rfl, ?_, ?_, ?_⟩
      · refine (Follows.of_grows hgrows).trans ⟨evolves_putAt, fun j _ hfreed => ?_⟩
        rwa [body_withProps] at hfreed
      · exact isPlain_withProps (hgrows.isPlain h.plain) _
      · rw [obj_withProps, if_pos ⟨rfl, (hgrows.isPlain h.plain).1⟩]
        exact (PropertyTable.get_put _).trans (if_pos rfl)

/-- A configurable property is taken off, any other stays. -/
theorem IsPlain.delete (h : m.IsPlain id) (hp : (m.obj id).props.get? k = some p) (interp : Interp)
    (held : List Nat) : ∃ m', (do pure ((← Eval.delete id k) == .done) : Eval Bool) interp m =
      .ok p.configurable m' ∧ if p.configurable then m.Deleted held id k m' else m' = m := by
  have hdelete := Eval.delete_simple (I := interp) h hp
  cases hconfigurable : p.configurable with
  | false =>
      rw [hconfigurable, if_neg Bool.false_ne_true] at hdelete
      exact ⟨m, Eval.bind_of_ok hdelete, rfl⟩
  | true =>
      rw [hconfigurable, if_pos rfl] at hdelete
      refine ⟨_, Eval.bind_of_ok hdelete, ⟨evolves_eraseAt, fun j _ hfreed => ?_⟩,
        isPlain_withProps h _, ?_⟩
      · rwa [body_withProps] at hfreed
      · rw [obj_withProps, if_pos ⟨rfl, h.1⟩]
        exact (PropertyTable.get_erase _).trans (if_pos rfl)

end Machine

namespace Host

open Accounting (bind_ok bind_error tryCatch_ok live_ok)
open Machine (Follows Written Deleted IsTold nowhere place)
open ScriptEngine (Holds Steady)

variable {X : Contexts} {c : ContextId} {r : RealmId} {m : Machine} {id : Nat} {k : Key}
  {p : Property} {ps held : List Nat} {v : Value} {s : Host ScriptEngine}

/-! ## Requests -/

section Asking

variable (hsimple : m.Simple k id ps) (hid : id ∈ held)
include hsimple hid

/-- The engine writes a value, or it raises an error that says why not. -/
theorem ask_set : Yields X (fun e => Holds e (v.objects ++ held) (· = m))
    (Host.ask (.set r (.object id) k v)) fun a e =>
      (a = some true ∧ Holds e held fun m' => m.Written held id k v m') ∨
      (a = none ∧ (m.TellsTypeErrors r → ∃ d, e.pending = some (.object d) ∧
        Holds e held fun m' => m.Follows held nowhere m' ∧ m'.IsTold d)) := by
  refine Yields.ask fun e he => ?_
  obtain rfl := he.machine
  have hcore : ScriptEngine.core (.set r (.object id) k v) e = ScriptEngine.run r (do
      Eval.setProp id k v
      pure true) e := rfl
  have hcount : ∀ j, held.count j +
      (Request.set r (.object id) k v).taken.count (.value (.object j)) ≤
        (v.objects ++ held).count j := by
    intro j
    have htaken : (Request.set r (.object id) k v).taken = Ref.ofValue v := rfl
    rw [htaken, Value.count_objects, List.count_append]
    omega
  have hstarted : ∀ but held, e.machine.Follows held but (e.machine.started r) :=
    fun _ _ => .started r
  have hready : (e.machine.started r).Simple k id ps := hsimple.of_heap rfl
  -- Either the property is there with its value or an error was raised; nothing else can happen to
  -- a simple object.
  rcases hready.write (Eval.interp Builtin.supply ScriptEngine.depthLimit) held v with
      ⟨m', hrun, hwritten⟩ | ⟨m', reason, hgrows, hrun⟩
  · have hwritten' : e.machine.Written held id k v m' :=
      ⟨(hstarted _ _).trans hwritten.follows, hwritten.plain, hwritten.own⟩
    obtain ⟨hreply, hholds, -⟩ := he.answered (q := .set r (.object id) k v)
      (ScriptEngine.written_lasting hid) ⟨nofun, nofun⟩
      (hcore.trans (ScriptEngine.run_eq (Eval.bind_of_ok hrun))) rfl hwritten' hcount
    exact .inl ⟨hreply, hholds⟩
  · -- The error is pending, and is all that is new.
    let thrown : ScriptEngine := { e with
      machine := Eval.raised m' .type reason, pending := some (.object m'.heap.size) }
    have hthrown : ScriptEngine.core (.set r (.object id) k v) e = (none, thrown) :=
      hcore.trans (ScriptEngine.run_error (Eval.bind_of_error hrun))
    have hheld : ∀ j, held.count j ≤ e.ledger.count (.value (.object j)) -
        (Request.set r (.object id) k v).taken.count (.value (.object j)) +
        ((Request.set r (.object id) k v).given none).count (.value (.object j)) := by
      intro j
      have hle := he.held j
      have hcount := hcount j
      omega
    obtain ⟨hreply, -⟩ := ScriptEngine.answer_holds (q := .set r (.object id) k v)
      (I := fun _ => True) ⟨nofun, nofun⟩ hthrown rfl trivial (fun _ _ _ _ _ _ => trivial) hheld
    refine .inr ⟨hreply, fun htells => ?_⟩
    have htold : (Eval.raised m' .type reason).IsTold m'.heap.size := by
      refine Machine.isTold_raised ?_ reason
      have hrealm : m'.realm = r := hgrows.realm
      rw [hrealm]
      exact hgrows.tellsTypeErrors htells.started
    have hfollows : e.machine.Follows held nowhere (Eval.raised m' .type reason) :=
      (hstarted _ _).trans (.of_grows (hgrows.trans (Eval.raised_grows ..)))
    have hsteady : Steady (held ++ thrown.thrownObjects) fun m₁ =>
        e.machine.Follows held nowhere m₁ ∧ m₁.IsTold m'.heap.size := by
      refine (Steady.follows.mono fun _ => List.mem_append_left _).and (.isTold ?_)
      exact List.mem_append_right _ (List.mem_singleton_self _)
    obtain ⟨-, hholds, hpending⟩ := ScriptEngine.answer_holds (q := .set r (.object id) k v)
      ⟨nofun, nofun⟩ hthrown rfl ⟨hfollows, htold⟩ hsteady.lasting hheld
    exact ⟨_, hpending, hholds⟩

omit hid in
theorem ask_has : Yields X (fun e => Holds e held (· = m)) (Host.ask (.has r (.object id) k))
    fun a e => a = some (m.firstProperty k (id :: ps)).isSome ∧
      Holds e held fun m' => m.Follows held nowhere m' := by
  refine Yields.ask fun e he => ?_
  obtain rfl := he.machine
  have hcore : ScriptEngine.core (.has r (.object id) k) e =
      ScriptEngine.run r (Eval.hasProperty id k) e := rfl
  have hready : (e.machine.started r).Simple k id ps := hsimple.of_heap rfl
  have hrun := Eval.hasProperty_simple (I := Eval.interp Builtin.supply ScriptEngine.depthLimit)
    hready
  have hfollows : e.machine.Follows held nowhere (e.machine.started r) := .started r
  obtain ⟨hreply, hholds, -⟩ := he.answered (q := .has r (.object id) k) Steady.follows.lasting
    ⟨nofun, nofun⟩ (hcore.trans (ScriptEngine.run_eq hrun)) rfl hfollows
    fun j => Nat.le_add_right _ _
  exact ⟨hreply, hholds⟩

theorem ask_hasOwn : Yields X (fun e => Holds e held (· = m))
    (Host.ask (.hasOwn r (.object id) k)) fun a e => a = some ((m.obj id).props.get? k).isSome ∧
      Holds e held fun m' => m.Follows held nowhere m' ∧ m'.IsPlain id := by
  refine Yields.ask fun e he => ?_
  obtain rfl := he.machine
  have hcore : ScriptEngine.core (.hasOwn r (.object id) k) e =
      ScriptEngine.run r (Eval.hasOwn id k) e := rfl
  have hready : (e.machine.started r).Simple k id ps := hsimple.of_heap rfl
  obtain ⟨m', hrun, hgrows⟩ := Eval.hasOwn_simple
    (I := Eval.interp Builtin.supply ScriptEngine.depthLimit) hready
  have hmachine : e.machine.Follows held nowhere m' ∧ m'.IsPlain id :=
    ⟨(Follows.started r).trans (.of_grows hgrows), hgrows.isPlain hready.plain⟩
  obtain ⟨hreply, hholds, -⟩ := he.answered (q := .hasOwn r (.object id) k)
    (Steady.follows.lasting.and (ScriptEngine.isPlain_lasting hid)) ⟨nofun, nofun⟩
    (hcore.trans (ScriptEngine.run_eq hrun)) rfl hmachine fun j => Nat.le_add_right _ _
  exact ⟨hreply, hholds⟩

/-- The engine deletes a property that is configurable. -/
theorem ask_delete (hp : (m.obj id).props.get? k = some p) :
    Yields X (fun e => Holds e held fun m' => m.Follows held nowhere m' ∧ m'.IsPlain id)
      (Host.ask (.delete r (.object id) k)) fun a e => a = some p.configurable ∧
        Holds e held fun m' => if p.configurable then m.Deleted held id k m'
          else m.Follows held nowhere m' := by
  refine Yields.ask fun e he => ?_
  obtain ⟨hfollows, hplain⟩ := he.machine
  have hcore : ScriptEngine.core (.delete r (.object id) k) e = ScriptEngine.run r (do
      pure ((← Eval.delete id k) == .done)) e := rfl
  -- The property may have been settled, which makes no difference to whether it stays.
  obtain ⟨p', hp', hsame⟩ : ∃ p', (e.machine.obj id).props.get? k = some p' ∧
      p'.configurable = p.configurable := by
    have hrel := hfollows.rel hsimple.plain hplain k
    rw [hp] at hrel
    cases hp' : (e.machine.obj id).props.get? k with
    | none =>
        rw [hp'] at hrel
        cases hrel
    | some p' =>
        rw [hp'] at hrel
        refine ⟨p', rfl, ?_⟩
        cases hrel with
        | some hsettles => cases hsettles <;> rfl
  have hplain' : (e.machine.started r).IsPlain id := hplain
  obtain ⟨m', hrun, hdeleted⟩ := hplain'.delete hp'
    (Eval.interp Builtin.supply ScriptEngine.depthLimit) held
  have hfollows' : m.Follows held nowhere (e.machine.started r) := hfollows.trans (.started r)
  rw [hsame] at hrun hdeleted
  cases hconfigurable : p.configurable with
  | false =>
      rw [hconfigurable] at hrun hdeleted
      obtain rfl : m' = e.machine.started r := hdeleted
      obtain ⟨hreply, hholds, -⟩ := he.answered (q := .delete r (.object id) k)
        Steady.follows.lasting ⟨nofun, nofun⟩ (hcore.trans (ScriptEngine.run_eq hrun)) rfl
        hfollows' fun j => Nat.le_add_right _ _
      exact ⟨hreply, hholds⟩
  | true =>
      rw [hconfigurable] at hrun hdeleted
      have hdeleted : (e.machine.started r).Deleted held id k m' := hdeleted
      have hdeleted' : m.Deleted held id k m' :=
        ⟨(hfollows'.mono fun _ _ => False.elim).trans hdeleted.follows, hdeleted.plain,
          hdeleted.own⟩
      obtain ⟨hreply, hholds, -⟩ := he.answered (q := .delete r (.object id) k)
        (ScriptEngine.deleted_lasting hid) ⟨nofun, nofun⟩ (hcore.trans (ScriptEngine.run_eq hrun))
        rfl hdeleted' fun j => Nat.le_add_right _ _
      exact ⟨hreply, hholds⟩

end Asking

end Host

end ScriptHost
