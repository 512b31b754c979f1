import ScriptHost.Proofs.Buffers
/-!
# What a context looks up

A lookup registers every reference that it takes, also when it ends early, and what it returns is
among what it registered.
-/

namespace ScriptHost

namespace Accounting

open Host (Lookup)

variable {σ : Type} [Engine σ] {A : Accounting σ} {X : Contexts} {K : Multiset Ref} {α β : Type}
  {known : List Ref}

/-- A lookup that starts with certain references registered and returns things whose references it
registered.  It cannot stop. -/
def Gathers (A : Accounting σ) (X : Contexts) (K : Multiset Ref) (known : List Ref)
    (m : Lookup σ α) (looked : α → List Ref) : Prop :=
  ∀ table : Array Ref, known ⊆ Ref.inTable table →
    A.Triple X (Ref.inTable table + K) (m.run.run table)
      (fun r => Ref.inTable table ⊆ Ref.inTable r.2 ∧
        ∀ a, r.1 = .ok a → looked a ⊆ Ref.inTable r.2)
      (fun r => Ref.inTable r.2 + K) fun _ => False

/-! ## Running -/

omit [Engine σ] in
/-- An action of the host inside a lookup. -/
theorem run_lift (x : Action σ α) (table : Array Ref) :
    (liftM x : Lookup σ α).run.run table = x >>= fun a => Pure.pure (.ok a, table) := by
  have hunfold : (liftM x : Lookup σ α).run.run table =
      (x >>= fun a => Pure.pure (a, table)) >>= fun r => Pure.pure (.ok r.1, r.2) := rfl
  rw [hunfold, bind_assoc]
  simp only [pure_bind]

omit [Engine σ] in
theorem run_bind (m : Lookup σ α) (f : α → Lookup σ β) (table : Array Ref) :
    (m >>= f).run.run table = m.run.run table >>= fun r =>
      match r with
      | (.ok a, table) => (f a).run.run table
      | (.error e, table) => Pure.pure (.error e, table) := by
  refine congrArg (m.run.run table >>= ·) (funext fun r => ?_)
  rcases r with ⟨_ | a, table'⟩ <;> rfl

omit [Engine σ] in
theorem run_lift_bind (x : Action σ α) (f : α → Lookup σ β) (table : Array Ref) :
    ((liftM x : Lookup σ α) >>= f).run.run table = x >>= fun a => (f a).run.run table := by
  rw [run_bind, run_lift, bind_assoc]
  simp only [pure_bind]

/-- An action inside a lookup does there what it does. -/
theorem Triple.lift_bind {x : Action σ α} {f : α → Lookup σ β} {table : Array Ref}
    {M : Multiset Ref} {Q : α → Prop} {R : α → Multiset Ref}
    {Q' : Except String β × Array Ref → Prop} {R' : Except String β × Array Ref → Multiset Ref}
    {stop : Host σ → Prop} (hx : A.Triple X M x Q R stop)
    (hf : ∀ a, Q a → A.Triple X (R a) ((f a).run.run table) Q' R' stop) :
    A.Triple X M (((liftM x : Lookup σ α) >>= f).run.run table) Q' R' stop := by
  rw [run_lift_bind]
  exact Triple.bind hx hf

/-! ## Rules -/

theorem Gathers.pure {a : α} {looked : α → List Ref} (ha : looked a ⊆ known) :
    A.Gathers X K known (Pure.pure a) looked := by
  intro table hknown
  refine Triple.pure ⟨fun _ hr => hr, ?_⟩ rfl
  rintro _ ⟨⟩
  exact fun _ hr => hknown (ha hr)

theorem Gathers.throw {name : String} {looked : α → List Ref} :
    A.Gathers X K known (throw name) looked := by
  intro table hknown
  exact Triple.pure ⟨fun _ hr => hr, by simp⟩ rfl

theorem Gathers.bind {m : Lookup σ α} {f : α → Lookup σ β} {looked : α → List Ref}
    {looked' : β → List Ref} (hm : A.Gathers X K known m looked)
    (hf : ∀ a, A.Gathers X K (known ++ looked a) (f a) looked') :
    A.Gathers X K known (m >>= f) looked' := by
  intro table hknown
  rw [run_bind]
  refine Triple.bind (hm table hknown) ?_
  rintro ⟨_ | a, table'⟩ ⟨hmore, hlooked⟩
  · exact Triple.pure ⟨hmore, by simp⟩ rfl
  · have hall : known ++ looked a ⊆ Ref.inTable table' :=
      List.append_subset.2 ⟨List.Subset.trans hknown hmore, hlooked a rfl⟩
    refine (hf a table' hall).mono ?_ fun _ h => h
    rintro r ⟨hmore', hlooked'⟩
    exact ⟨⟨List.Subset.trans hmore hmore', hlooked'⟩, rfl⟩

theorem Gathers.mapM {l : List α} {f : α → Lookup σ β} {looked : β → List Ref}
    {start : List Ref} (hf : ∀ a known, start ⊆ known → A.Gathers X K known (f a) looked)
    (hstart : start ⊆ known) :
    A.Gathers X K known (l.mapM f) fun bs => bs.flatMap looked := by
  induction l generalizing known with
  | nil => exact Gathers.pure (List.nil_subset _)
  | cons a l ih =>
      have hmore : ∀ b, start ⊆ known ++ looked b := fun b =>
        List.Subset.trans hstart (List.subset_append_left _ _)
      rw [List.mapM_cons]
      refine (hf a known hstart).bind fun b => (ih (hmore b)).bind fun bs => Gathers.pure ?_
      rw [List.flatMap_cons]
      exact List.append_subset.2
        ⟨fun _ hr => List.mem_append_left _ (List.mem_append_right _ hr),
          fun _ hr => List.mem_append_right _ hr⟩

/-! ## Registering -/

theorem inTable_push (table : Array Ref) (r : Ref) :
    (Ref.inTable (table.push r) : Multiset Ref) = r.counted + Ref.inTable table := by
  simp [Ref.inTable, add_comm]

theorem subset_inTable_push (table : Array Ref) (r : Ref) :
    Ref.inTable table ⊆ Ref.inTable (table.push r) := by
  simp [Ref.inTable]

theorem counted_subset_inTable_push (table : Array Ref) (r : Ref) :
    r.counted ⊆ Ref.inTable (table.push r) := by
  simp [Ref.inTable]

/-- A reference that was given is registered before the lookup goes on. -/
theorem take_triple {r : Ref} {m : Lookup σ α} {looked : α → List Ref} {table : Array Ref}
    (hm : A.Gathers X K (known ++ r.counted) m looked) (hknown : known ⊆ Ref.inTable table) :
    A.Triple X (r.counted + (Ref.inTable table + K))
      ((do
        Host.take r
        m).run.run table)
      (fun x => Ref.inTable table ⊆ Ref.inTable x.2 ∧
        ∀ b, x.1 = .ok b → looked b ⊆ Ref.inTable x.2)
      (fun x => Ref.inTable x.2 + K) fun _ => False := by
  have hrun : (do
      Host.take r
      m).run.run table =
        Host.report (.releaseDeferred (table.push r).size) >>= fun _ => m.run.run (table.push r) :=
    rfl
  have hpush : known ++ r.counted ⊆ Ref.inTable (table.push r) :=
    List.append_subset.2 ⟨List.Subset.trans hknown (subset_inTable_push table r),
      counted_subset_inTable_push table r⟩
  rw [hrun, ← add_assoc, ← inTable_push]
  refine Triple.bind Triple.report fun _ _ => (hm _ hpush).mono ?_ fun _ h => h
  rintro x ⟨hmore, hlooked⟩
  exact ⟨⟨List.Subset.trans (subset_inTable_push table r) hmore, hlooked⟩, rfl⟩

/-- A value that is not registered is given back. -/
theorem release_triple {realm : RealmId} {looked : Option α → List Ref} (hnone : looked none = [])
    (v : Value) (table : Array Ref) :
    A.Triple X (Ref.ofValue v + (Ref.inTable table + K))
      ((do
        (Host.ask (.release realm (Ref.ofValue v)) : Action σ Unit)
        Pure.pure none : Lookup σ (Option α)).run.run table)
      (fun x => Ref.inTable table ⊆ Ref.inTable x.2 ∧
        ∀ b, x.1 = .ok b → looked b ⊆ Ref.inTable x.2)
      (fun x => Ref.inTable x.2 + K) fun _ => False := by
  refine Triple.lift_bind release_value_spends fun _ _ => Triple.pure ⟨fun _ hr => hr, ?_⟩ rfl
  rintro _ ⟨⟩
  simp [hnone]

/-! ## Looking up -/

theorem global_gathers {realm : RealmId} {globals : Value} (hg : Ref.ofValue globals ⊆ known)
    (name : String) :
    A.Gathers X K known (Host.global? realm globals name)
      fun v => v.toList.flatMap Ref.ofValue := by
  intro table hknown
  have hu : ∀ r ∈ (Request.getNamed realm globals name).uses,
      A.exempt r ∨ r ∈ (Ref.inTable table : Multiset Ref) + K + X.bag := by
    intro r hr
    exact .inr (Multiset.mem_add.2 (.inl (Multiset.mem_add.2 (.inl (hknown (hg hr))))))
  unfold Host.global?
  refine Triple.lift_bind (Triple.ask_free rfl rfl hu) fun v _ => ?_
  change A.Triple X (Ref.ofValue v + _) _ _ _ _
  split
  next id =>
    have hpure : A.Gathers X K (known ++ Ref.counted (.value (.object id)))
        (Pure.pure (some (.object id)) : Lookup σ (Option Value)) fun v => v.toList.flatMap Ref.ofValue :=
      Gathers.pure (by simp [Ref.counted])
    exact take_triple hpure hknown
  next =>
    rw [Ref.ofValue_exception, Multiset.coe_nil, zero_add]
    refine Triple.lift_bind (Triple.ask_unnamed rfl rfl rfl) fun e _ => ?_
    exact release_triple rfl e table
  next => exact release_triple rfl v table

theorem requiredGlobal_gathers {realm : RealmId} {globals : Value}
    (hg : Ref.ofValue globals ⊆ known) (name : String) :
    A.Gathers X K known (Host.requiredGlobal realm globals name) Ref.ofValue := by
  unfold Host.requiredGlobal
  refine (global_gathers hg name).bind fun v => ?_
  cases v with
  | some v => exact Gathers.pure (by simp)
  | none => exact Gathers.throw

theorem requiredKey_gathers (realm : RealmId) (name : String) :
    A.Gathers X K known (Host.requiredKey realm name) Ref.ofKey := by
  intro table hknown
  unfold Host.requiredKey
  refine Triple.lift_bind (Triple.ask_unnamed rfl rfl rfl) fun k _ => ?_
  exact take_triple (r := .key k)
    (Gathers.pure fun _ hr => List.mem_append_right _ hr) hknown

theorem kindConstructor_gathers {realm : RealmId} {globals : Value}
    (hg : Ref.ofValue globals ⊆ known) (k : ElementKind) :
    A.Gathers X K known (Host.kindConstructor realm globals k) Ref.ofValue := by
  unfold Host.kindConstructor
  split
  · refine (global_gathers hg _).bind fun v => Gathers.pure ?_
    cases v with
    | some v => simp
    | none => simp
  · exact requiredGlobal_gathers hg _

theorem ofValue_getD_subset (vs : List Value) (i : Nat) :
    Ref.ofValue (vs[i]?.getD .undefined) ⊆ vs.flatMap Ref.ofValue := by
  cases hv : vs[i]? with
  | none => simp
  | some v =>
      intro r hr
      exact List.mem_flatMap.2 ⟨v, List.mem_of_getElem? hv, hr⟩

/-- A context registers everything that it looks up. -/
theorem load_gathers (realm : RealmId) :
    A.Gathers X K [] (Host.load realm) Cache.refs := by
  unfold Host.load
  intro table _
  refine Triple.lift_bind (Triple.ask_unnamed rfl rfl rfl) fun (globals : Value) _ => ?_
  refine take_triple (r := .value globals) ?_ (List.nil_subset _)
  refine (requiredGlobal_gathers (by simp [Ref.counted]) _).bind fun array => ?_
  refine (requiredGlobal_gathers (by simp [Ref.counted]) _).bind fun map => ?_
  refine (requiredGlobal_gathers (by simp [Ref.counted]) _).bind fun set => ?_
  refine (requiredGlobal_gathers (by simp [Ref.counted]) _).bind fun weakMap => ?_
  refine (requiredGlobal_gathers (by simp [Ref.counted]) _).bind fun weakSet => ?_
  refine (requiredGlobal_gathers (by simp [Ref.counted]) _).bind fun buffer => ?_
  refine (requiredGlobal_gathers (by simp [Ref.counted]) _).bind fun symbol => ?_
  have hkinds : ∀ (k : ElementKind) (known : List Ref), Ref.ofValue globals ⊆ known →
      A.Gathers X K known (Host.kindConstructor realm globals k) Ref.ofValue :=
    fun k _ hg => kindConstructor_gathers hg k
  refine (Gathers.mapM hkinds (by simp [Ref.counted])).bind fun elements => ?_
  refine (requiredKey_gathers realm _).bind fun length => ?_
  refine (requiredKey_gathers realm _).bind fun size => ?_
  refine (requiredKey_gathers realm _).bind fun byteLength => Gathers.pure ?_
  -- Each of the references in the table is one that some lookup above gathered.
  intro r hr
  simp only [Cache.refs, Cache.values, Cache.keys, List.flatMap_append, List.flatMap_map,
    List.mem_append, List.flatMap_cons, List.flatMap_nil, List.append_nil, List.mem_flatMap,
    List.nil_append, Ref.counted] at hr ⊢
  rcases hr with (hvalues | ⟨k, -, hr⟩) | hkeys
  · rcases hvalues with hr | hr | hr | hr | hr | hr | hr | hr <;> simp [hr]
  · have helement := List.mem_flatMap.1 (ofValue_getD_subset elements k.number hr)
    simp only [helement, true_or, or_true]
  · rcases hkeys with hr | hr | hr <;> simp [hr]

end Accounting

end ScriptHost
