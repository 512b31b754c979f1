import ScriptHost.Client.Record
import ScriptHost.Proofs.Frames
import ScriptHost.Proofs.Lookup
/-!
# What a context registers when it is made

A lookup that comes to its end has registered exactly what it returns, in the order in which it was
looked up, and it reported one registration for each, with the numbers from one on.
-/

namespace ScriptHost

/-- What a context registers of what it looked up, in the order of the lookup.  Only the constructor
of short floats can be missing, and then there is nothing of it to register. -/
def Cache.entries (x : Cache) : List Ref :=
  .value x.global ::
    ((x.values.drop 1).filter Value.isObject).map .value ++ x.keys.map .key

/-- The reports of registrations, from one count of waiting references to another. -/
def Event.registrations (m n : Nat) : List Event := (List.range' (m + 1) (n - m)).map .releaseDeferred

variable {σ : Type}

@[simp] theorem Event.registrations_self (n : Nat) : Event.registrations n n = [] := by
  simp [Event.registrations]

theorem Event.registrations_append {l m n : Nat} (hlm : l ≤ m) (hmn : m ≤ n) :
    Event.registrations l m ++ Event.registrations m n = Event.registrations l n := by
  have hstart : m + 1 = l + 1 + 1 * (m - l) := by omega
  have hlength : n - l = (m - l) + (n - m) := by omega
  rw [registrations, registrations, registrations, ← List.map_append, hlength, hstart,
    List.range'_append]

theorem Event.registrations_succ (n : Nat) :
    Event.registrations n (n + 1) = [.releaseDeferred (n + 1)] := by
  simp [Event.registrations]

theorem Event.filterMap_registrations (m n : Nat) :
    (Event.registrations m n).filterMap Event.registered? = List.range' (m + 1) (n - m) := by
  rw [registrations, List.filterMap_map]
  exact List.filterMap_some

/-! ## Reports -/

namespace Host

theorem told_report (e : Event) (h : Host σ) (he : e.isOfRegion = false) :
    told { h with log := h.log.push e } = h.told ++ [e] := by
  simp [told, he]

theorem told_takeBack (h : Host σ) (t : Token) : (h.takeBack t).told = h.told := by
  unfold takeBack
  split
  · rfl
  · cases h.pins.region? t with
    | some r => simp [told, Event.isOfRegion]
    | none => simp [told, Event.isOfRegion]

theorem told_takeBacks (h : Host σ) (ts : List Token) : (ts.foldl takeBack h).told = h.told := by
  induction ts generalizing h with
  | nil => rfl
  | cons t ts ih => rw [List.foldl_cons, ih, told_takeBack]

theorem settings_takeBacks (h : Host σ) (ts : List Token) :
    (ts.foldl takeBack h).settings = h.settings := by
  induction ts generalizing h with
  | nil => rfl
  | cons t ts ih =>
      rw [List.foldl_cons, ih]
      unfold takeBack
      split
      · rfl
      · cases h.pins.region? t <;> rfl

variable [Engine σ]

theorem told_ask (q : Request) (h : Host σ) : (Host.ask q h).2.told = h.told :=
  told_takeBacks { h with engine := (Engine.answer q h.engine).state } _

theorem settings_ask (q : Request) (h : Host σ) : (Host.ask q h).2.settings = h.settings :=
  settings_takeBacks { h with engine := (Engine.answer q h.engine).state } _

theorem contexts_ask (q : Request) (h : Host σ) : (Host.ask q h).2.contexts = h.contexts :=
  (Accounting.takeBacks_eq { h with engine := (Engine.answer q h.engine).state } _).1

theorem engine_ask (q : Request) (h : Host σ) :
    (Host.ask q h).2.engine = (Engine.answer q h.engine).state :=
  (Accounting.takeBacks_eq { h with engine := (Engine.answer q h.engine).state } _).2.1

end Host

/-- Nothing happens to contexts, and nothing is told but of lent memory. -/
def HostFrame.quiet [Engine σ] : HostFrame σ where
  rel h h' := h'.contexts = h.contexts ∧ h'.settings = h.settings ∧ h'.told = h.told
  refl _ := ⟨rfl, rfl, rfl⟩
  trans := by
    rintro h₁ h₂ h₃ ⟨hc, hs, ht⟩ ⟨hc', hs', ht'⟩
    exact ⟨hc'.trans hc, hs'.trans hs, ht'.trans ht⟩
  ask q h := ⟨Host.contexts_ask q h, Host.settings_ask q h, Host.told_ask q h⟩
  pin n h := by
    have hpin : (Host.pin n h).2 =
        { h with pins := h.pins.lend n, log := h.log.push (.regionLent n) } := rfl
    rw [hpin]
    exact ⟨rfl, rfl, by simp [Host.told, Event.isOfRegion]⟩
  unpin _ _ := ⟨rfl, rfl, rfl⟩

namespace Accounting

open Host (Lookup)

variable [Engine σ] {α β : Type} {known : List Ref}

/-- What a lookup leaves of a host: its contexts are the same, and the registrations of some
references were reported. -/
structure Registered (m n : Nat) (h h' : Host σ) : Prop where
  contexts : h'.contexts = h.contexts
  settings : h'.settings = h.settings
  counts : m ≤ n
  told : h'.told = h.told ++ Event.registrations m n

omit [Engine σ] in
theorem Registered.refl (n : Nat) (h : Host σ) : Registered n n h h :=
  ⟨rfl, rfl, Nat.le_refl n, by simp⟩

omit [Engine σ] in
theorem Registered.trans {l m n : Nat} {h₁ h₂ h₃ : Host σ} (h : Registered l m h₁ h₂)
    (h' : Registered m n h₂ h₃) : Registered l n h₁ h₃ where
  contexts := h'.contexts.trans h.contexts
  settings := h'.settings.trans h.settings
  counts := Nat.le_trans h.counts h'.counts
  told := by
    rw [h'.told, h.told, List.append_assoc, Event.registrations_append h.counts h'.counts]

theorem registered_ask (q : Request) (n : Nat) (h : Host σ) :
    Registered n n h (Host.ask q h).2 where
  contexts := Host.contexts_ask q h
  settings := Host.settings_ask q h
  counts := Nat.le_refl n
  told := by rw [Host.told_ask, Event.registrations_self, List.append_nil]

/-- A lookup that starts with certain references registered.  It cannot stop; whatever it registers,
it reports; and if it ends with a result, this and everything registered are as told. -/
def Looks (known : List Ref) (m : Lookup σ α) (Q : α → List Ref → Prop) : Prop :=
  ∀ h : Host σ, ∃ r table h', m.run.run known.toArray h = (.ok (r, table), h') ∧
    Registered known.length table.size h h' ∧ ∀ a, r = .ok a → Q a table.toList

omit [Engine σ] in
theorem Looks.pure {a : α} {Q : α → List Ref → Prop} (ha : Q a known) :
    Looks (σ := σ) known (Pure.pure a) Q := by
  intro h
  refine ⟨.ok a, known.toArray, h, rfl, Registered.refl _ h, ?_⟩
  rintro _ ⟨⟩
  exact ha

omit [Engine σ] in
theorem Looks.throw {name : String} {Q : α → List Ref → Prop} :
    Looks (σ := σ) known (throw name) Q := by
  intro h
  refine ⟨.error name, known.toArray, h, rfl, Registered.refl _ h, ?_⟩
  rintro _ ⟨⟩

omit [Engine σ] in
theorem Looks.bind {m : Lookup σ α} {f : α → Lookup σ β} {Q : α → List Ref → Prop}
    {Q' : β → List Ref → Prop} (hm : Looks known m Q)
    (hf : ∀ a table, Q a table → Looks table (f a) Q') : Looks known (m >>= f) Q' := by
  intro h
  obtain ⟨r, table, h₁, hrun, hreg, hQ⟩ := hm h
  cases r with
  | error e =>
      refine ⟨.error e, table, h₁, ?_, hreg, by simp⟩
      rw [run_bind, bind_ok hrun]
      rfl
  | ok a =>
      obtain ⟨r', table', h₂, hrun', hreg', hQ'⟩ := hf a table.toList (hQ a rfl) h₁
      refine ⟨r', table', h₂, ?_, hreg.trans hreg', hQ'⟩
      rw [run_bind, bind_ok hrun]
      exact hrun'

theorem Looks.lift_bind {q : Request} {f : q.Reply → Lookup σ β} {Q : β → List Ref → Prop}
    (hf : ∀ a, Looks known (f a) Q) :
    Looks known ((liftM (Host.ask q : Action σ q.Reply) : Lookup σ q.Reply) >>= f) Q := by
  intro h
  obtain ⟨h₁, hask, -⟩ := ask_eq q h
  obtain ⟨r, table, h₂, hrun, hreg, hQ⟩ := hf _ h₁
  have hquiet : Registered known.length known.length h h₁ := by
    have hquiet := registered_ask q known.length h
    rwa [hask] at hquiet
  refine ⟨r, table, h₂, ?_, hquiet.trans hreg, hQ⟩
  rw [run_lift_bind, bind_ok hask]
  exact hrun

omit [Engine σ] in
/-- A reference is registered before the lookup goes on. -/
theorem Looks.take_bind {r : Ref} {f : Unit → Lookup σ β} {Q : β → List Ref → Prop}
    (hf : Looks (known ++ [r]) (f ()) Q) : Looks known (Host.take r >>= f) Q := by
  intro h
  let h₁ : Host σ := { h with log := h.log.push (.releaseDeferred (known.length + 1)) }
  obtain ⟨x, table, h₂, hrun, hreg, hQ⟩ := hf h₁
  have hpush : Registered known.length (known ++ [r]).length h h₁ := by
    refine ⟨rfl, rfl, by simp, ?_⟩
    rw [Host.told_report _ _ rfl, List.length_append, List.length_singleton,
      Event.registrations_succ]
  refine ⟨x, table, h₂, ?_, hpush.trans hreg, hQ⟩
  have htake : (Host.take r >>= f).run.run known.toArray h =
      (f ()).run.run (known.toArray.push r)
        { h with log := h.log.push (.releaseDeferred (known.toArray.push r).size) } := rfl
  rw [htake, ← hrun]
  simp [h₁]

/-! ## Looking up -/

variable {realm : RealmId} {globals : Value}

theorem global_looks (name : String) :
    Looks (σ := σ) known (Host.global? realm globals name) fun v table =>
      table = known ++ v.toList.map .value ∧ ∀ x ∈ v, x.isObject := by
  unfold Host.global?
  refine Looks.lift_bind fun (v : Value) => ?_
  cases v with
  | object id => exact Looks.take_bind (Looks.pure (by simp [Value.isObject]))
  | exception => exact Looks.lift_bind fun _ => Looks.lift_bind fun _ => Looks.pure (by simp)
  | _ => exact Looks.lift_bind fun _ => Looks.pure (by simp)

theorem requiredGlobal_looks (name : String) :
    Looks (σ := σ) known (Host.requiredGlobal realm globals name) fun v table =>
      table = known ++ [.value v] ∧ v.isObject := by
  refine (global_looks name).bind fun v table hv => ?_
  cases v with
  | some v => exact Looks.pure ⟨by simpa using hv.1, hv.2 v rfl⟩
  | none => exact Looks.throw

theorem requiredKey_looks (name : String) :
    Looks (σ := σ) known (Host.requiredKey realm name) fun k table =>
      table = known ++ [.key k] :=
  Looks.lift_bind fun (_ : Key) => Looks.take_bind (Looks.pure rfl)

theorem kindConstructor_looks (k : ElementKind) :
    Looks (σ := σ) known (Host.kindConstructor realm globals k) fun v table =>
      table = known ++ ([v].filter Value.isObject).map .value := by
  unfold Host.kindConstructor
  split
  · refine (global_looks _).bind fun v table hv => Looks.pure ?_
    cases v with
    | some v => simpa [List.filter_cons, hv.2 v rfl] using hv.1
    | none => simpa [List.filter_cons, Value.isObject] using hv.1
  · intro h
    have hlooks : Looks (σ := σ) known (Host.requiredGlobal realm globals k.constructorName) _ :=
      requiredGlobal_looks k.constructorName
    obtain ⟨r, table, h', hrun, hreg, hQ⟩ := hlooks h
    refine ⟨r, table, h', hrun, hreg, fun a ha => ?_⟩
    obtain ⟨htable, hobject⟩ := hQ a ha
    simpa [List.filter_cons, hobject] using htable

theorem kindConstructors_looks (ks : List ElementKind) :
    Looks (σ := σ) known (ks.mapM (Host.kindConstructor realm globals)) fun vs table =>
      vs.length = ks.length ∧ table = known ++ (vs.filter Value.isObject).map .value := by
  induction ks generalizing known with
  | nil => exact Looks.pure (by simp)
  | cons k ks ih =>
      rw [List.mapM_cons]
      refine (kindConstructor_looks k).bind fun v table htable => ?_
      refine ih.bind fun vs table' hvs => Looks.pure ?_
      obtain ⟨hlength, htable'⟩ := hvs
      refine ⟨by simp [hlength], ?_⟩
      rw [htable', htable, List.append_assoc, ← List.map_append, ← List.filter_append]
      rfl

/-- What the kinds in the order of their numbers look up in a list of as many values is this list. -/
theorem map_number_getD {vs : List Value} (hvs : vs.length = ElementKind.all.length) :
    ElementKind.all.map (fun k => vs[k.number]?.getD .undefined) = vs := by
  refine List.ext_getElem (by simp [hvs]) fun i hi hi' => ?_
  have hnumber : ∀ i (hi : i < ElementKind.all.length), (ElementKind.all[i]).number = i := by
    decide
  rw [List.getElem_map, hnumber i (by simpa using hi), List.getElem?_eq_getElem hi',
    Option.getD_some]

/-- A context registers what it looks up, in the order of the lookup. -/
theorem load_looks (realm : RealmId) :
    Looks (σ := σ) [] (Host.load realm) fun cache table => table = cache.entries := by
  unfold Host.load
  refine Looks.lift_bind fun (globals : Value) => Looks.take_bind ?_
  refine (requiredGlobal_looks _).bind fun array table harray => ?_
  refine (requiredGlobal_looks _).bind fun map table hmap => ?_
  refine (requiredGlobal_looks _).bind fun set table hset => ?_
  refine (requiredGlobal_looks _).bind fun weakMap table hweakMap => ?_
  refine (requiredGlobal_looks _).bind fun weakSet table hweakSet => ?_
  refine (requiredGlobal_looks _).bind fun buffer table hbuffer => ?_
  refine (requiredGlobal_looks _).bind fun symbol table hsymbol => ?_
  refine (kindConstructors_looks _).bind fun elements table helements => ?_
  refine (requiredKey_looks _).bind fun length table hlength => ?_
  refine (requiredKey_looks _).bind fun size table hsize => ?_
  refine (requiredKey_looks _).bind fun byteLength table hbyteLength => Looks.pure ?_
  -- Only the last equation has the whole table; the others are put into it one by one.
  rw [hbyteLength, hsize, hlength, helements.2, hsymbol.1, hbuffer.1, hweakSet.1, hweakMap.1,
    hset.1, hmap.1, harray.1]
  simp [Cache.entries, Cache.values, Cache.keys, map_number_getD helements.1,
    harray.2, hmap.2, hset.2, hweakMap.2, hweakSet.2, hbuffer.2, hsymbol.2]

end Accounting

end ScriptHost
