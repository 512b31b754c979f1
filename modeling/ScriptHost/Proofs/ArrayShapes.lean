import Mathlib.Tactic.IntervalCases
import ScriptHost.Proofs.Cleared
import ScriptHost.Proofs.Construction
import ScriptHost.Proofs.ScriptThrows
import ScriptHost.Proofs.TypeQueries
/-!
# What buffers and typed arrays are told to be

A host tells typed arrays by what they inherit, while the engine knows them by what they are.  So the
two agree on the values of which the prototypes are those of what they are, and a value that only
inherits what typed arrays do is refused where the engine is asked.
-/

namespace ScriptHost

open Accounting (bind_ok bind_error live_ok context_ok ask_eq)

/-! ## Looking -/

namespace Machine

variable {m m' : Machine} {v : Value}

theorem typed_of_heap (h : m'.heap = m.heap) : m'.typed? v = m.typed? v := by
  have hbody : ∀ id, m'.body id = m.body id := by
    intro id
    unfold Machine.body Machine.obj
    rw [h]
  unfold typed?
  simp only [hbody]

theorem inView_of_heap (h : m'.heap = m.heap) : m'.inView? v = m.inView? v := by
  have hlost : ∀ t, Builtin.viewLost m' t = Builtin.viewLost m t := by
    intro t
    unfold Builtin.viewLost Machine.body Machine.obj
    rw [h]
  unfold inView?
  simp only [typed_of_heap h, hlost]

/-- What is in view has elements of the size that is known for its kind. -/
theorem elementSize_of_inView {i : ViewInfo} {k : ElementKind} (hi : m.inView? v = some i)
    (hk : m.typedKind? v = some k) : i.elementSize = k.size := by
  obtain ⟨t, ht, rfl⟩ := Option.map_eq_some_iff.1 hk
  obtain ⟨t', ht', hview⟩ := Option.bind_eq_some_iff.1 hi
  obtain rfl : t = t' := Option.some_inj.1 (ht.symm.trans ht')
  split at hview
  · cases hview
  · cases hview
    rfl

end Machine

namespace Eval

variable {I : Interp} {m : Machine} {v : Value}

/-- A value that must be a typed array is one, or something is thrown. -/
theorem needTyped_told (v : Value) :
    (∃ id t, m.typed? v = some t ∧ Builtin.needTyped v I m = .ok (id, t) m) ∨
      m.typed? v = none ∧ ∃ e m', Builtin.needTyped v I m = .error e m' := by
  cases v with
  | object id =>
      have hbody : Builtin.bodyOf (.object id) I m = .ok (some (id, m.body id)) m := rfl
      unfold Machine.typed? Builtin.needTyped
      rw [bind_of_ok hbody]
      dsimp only
      cases m.body id with
      | typed t => exact .inl ⟨id, t, rfl, rfl⟩
      | _ => exact .inr ⟨rfl, _, _, rfl⟩
  | _ => exact .inr ⟨rfl, _, _, rfl⟩

/-- A typed array that must be in reach is so, or something is thrown. -/
theorem reachTyped_told {id : Nat} {t : TypedView} (hneed : Builtin.needTyped v I m = .ok (id, t) m) :
    Builtin.viewLost m t = false ∧ Builtin.reachTyped v I m = .ok (id, t) m ∨
      Builtin.viewLost m t = true ∧ ∃ e m', Builtin.reachTyped v I m = .error e m' := by
  unfold Builtin.reachTyped
  rw [bind_of_ok hneed]
  dsimp only
  rw [get_bind]
  cases Builtin.viewLost m t with
  | false => exact .inl ⟨rfl, rfl⟩
  | true => exact .inr ⟨rfl, _, _, rfl⟩

/-- The engine tells what a typed array looks at if it is in reach, and throws otherwise. -/
theorem viewOf_told (v : Value) : (∃ i, m.inView? v = some i ∧ ScriptEngine.viewOf v I m = .ok i m) ∨
    m.inView? v = none ∧ ∃ e m', ScriptEngine.viewOf v I m = .error e m' := by
  unfold Machine.inView? ScriptEngine.viewOf
  rcases needTyped_told (I := I) (m := m) v with ⟨id, t, ht, hneed⟩ | ⟨hnone, e, m', hneed⟩
  · rw [ht, Option.bind_some]
    rcases reachTyped_told hneed with ⟨hlost, hreach⟩ | ⟨hlost, e, m', hreach⟩
    · rw [hlost, if_neg Bool.false_ne_true]
      exact .inl ⟨_, rfl, bind_of_ok hreach⟩
    · rw [hlost, if_pos rfl]
      exact .inr ⟨rfl, e, m', bind_of_error hreach⟩
  · have hreach : Builtin.reachTyped v I m = .error e m' := bind_of_error hneed
    rw [hnone]
    exact .inr ⟨rfl, e, m', bind_of_error hreach⟩

end Eval

/-! ## Kinds -/

namespace Host

variable {s : Host ScriptEngine} {h : Handle}

/-- A typed array in reach is told with the size of the elements of its kind. -/
theorem arrayInfo_of_finds {i : ViewInfo} {k : ElementKind}
    (hlive : (Contexts.entry s.contexts h.context).realm.isSome = true)
    (hbuffer : s.Finds (Host.isArrayBuffer h) false) (hkind : s.Finds (Host.elementKind? h) (some k))
    (hi : s.engine.machine.inView? h.value = some i) :
    (Host.arrayInfo h s).1 =
      .ok ⟨⟨h.context, i.buffer⟩, i.offset, i.length, i.elementSize⟩ := by
  obtain ⟨r, hr⟩ := Option.isSome_iff_exists.1 hlive
  obtain ⟨t, hnot, ht⟩ := hbuffer s (.refl s)
  obtain ⟨u, hfound, hu⟩ := hkind t ht
  obtain ⟨w, hwhere, hw⟩ := Finds.live hr u hu
  -- Nothing that matters here was changed by what was asked before.
  have hview : w.engine.machine.inView? h.value = some i := by
    obtain ⟨r', calls, used, hengine⟩ := hw.2
    rw [hengine, ← hi]
    exact Machine.inView_of_heap rfl
  have hstarted : (w.engine.machine.started r).inView? h.value = some i :=
    (Machine.inView_of_heap rfl).trans hview
  have hreply : (Engine.answer (.viewInfo r h.value) w.engine).reply = some i := by
    rcases Eval.viewOf_told (I := Eval.interp Builtin.supply ScriptEngine.depthLimit)
      (m := w.engine.machine.started r) h.value with ⟨j, hj, hrun⟩ | ⟨hnone, -⟩
    · obtain rfl : i = j := Option.some_inj.1 (hstarted.symm.trans hj)
      exact congrArg Prod.fst (ScriptEngine.run_reads hrun)
    · rw [hstarted] at hnone
      cases hnone
  obtain ⟨w', hasked, -⟩ := ask_eq (.viewInfo r h.value) w
  unfold Host.arrayInfo
  rw [bind_ok hnot, if_neg Bool.false_ne_true, bind_ok hfound, if_neg (by simp), bind_ok hwhere,
    bind_ok hasked, hreply]
  rfl

/-- The kind of a typed array is told by the constructors that it inherits from, the first one in the
order of kinds.  So it is told exactly for a value of which the prototypes are those of what it is, and
then what it looks at is told with the size of the elements of that kind. -/
theorem kinds_told_by_prototypes (hs : s.engine.Settled)
    (hlive : (Contexts.entry s.contexts h.context).realm.isSome = true)
    (hbuffer : s.engine.machine.TellsInstance h.value
      (Contexts.entry s.contexts h.context).cache.buffer)
    (hkinds : ∀ k, s.engine.machine.TellsInstance h.value
      ((Contexts.entry s.contexts h.context).cache.elements k)) :
    let x := (Contexts.entry s.contexts h.context).cache
    let m := s.engine.machine
    (Host.elementKind? h s).1 =
        .ok (ElementKind.all.find? fun k => m.inherits h.value (x.elements k)) ∧
      (∀ k, (Host.isTypedArray h k s).1 = .ok (m.inherits h.value (x.elements k))) ∧
      (m.Honest x h.value →
        (Host.elementKind? h s).1 = .ok (m.typedKind? h.value) ∧
        (∀ k, (Host.isTypedArray h k s).1 = .ok (decide (m.typedKind? h.value = some k))) ∧
        ∀ k i, m.typedKind? h.value = some k → m.inView? h.value = some i →
          (Host.arrayInfo h s).1 = .ok ⟨⟨h.context, i.buffer⟩, i.offset, i.length, k.size⟩) := by
  intro x m
  have hkind := elementKind_finds hs hlive hkinds
  have htyped : ∀ k, s.Finds (Host.isTypedArray h k) (m.inherits h.value (x.elements k)) :=
    fun k => isCached_finds hs (fun x => x.elements k) hlive (hkinds k)
  have hgiven : ∀ {α : Type} {y : Action ScriptEngine α} {a : α}, s.Finds y a → (y s).1 = .ok a := by
    intro α y a hy
    obtain ⟨s', hrun, -⟩ := hy s (.refl s)
    rw [hrun]
  refine ⟨hgiven hkind, fun k => hgiven (htyped k), fun honest => ?_⟩
  -- The first kind that the value inherits from is the only one.
  have hfind : (ElementKind.all.find? fun k => m.inherits h.value (x.elements k)) =
      m.typedKind? h.value := by
    simp only [honest.kinds]
    cases m.typedKind? h.value with
    | none => rfl
    | some k => cases k <;> rfl
  rw [hfind] at hkind
  refine ⟨hgiven hkind, fun k => ?_, fun k i hk hi => ?_⟩
  · rw [← honest.kinds]
    exact hgiven (htyped k)
  · have hnot := isCached_finds hs (·.buffer) hlive hbuffer
    rw [honest.buffer k hk] at hnot
    rw [hk] at hkind
    rw [arrayInfo_of_finds hlive hnot hkind hi, Machine.elementSize_of_inView hi hk]

/-- A typed array that inherits from the constructor of its kind is told to be of that kind. -/
theorem kinds_told_by_prototypes_varied :
    (Host.elementKind? ⟨0, .object 9⟩ variedHost).1 = .ok (some .uint8) ∧
      (∀ k, (Host.isTypedArray ⟨0, .object 9⟩ k variedHost).1 = .ok (decide (some .uint8 = some k))) ∧
      (Host.arrayInfo ⟨0, .object 9⟩ variedHost).1 = .ok ⟨⟨0, .object 12⟩, 0, 4, 1⟩ := by
  have hhonest : variedHost.engine.machine.Honest (Contexts.entry variedHost.contexts 0).cache
      (.object 9) := ⟨fun k => by cases k <;> decide, fun _ _ => rfl⟩
  have htold := kinds_told_by_prototypes (s := variedHost) (h := ⟨0, .object 9⟩) ⟨rfl, rfl, nofun⟩ rfl
    (variedHost_tells (by decide) (.inr (.inr rfl))) (variedHost_tellsKinds (by decide))
  obtain ⟨hkind, htyped, hinfo⟩ := htold.2.2 hhonest
  exact ⟨hkind, htyped, hinfo .uint8 _ rfl rfl⟩

/-- An object that only inherits what typed arrays do is told to be one, and a typed array that was
given another prototype is told to be none. -/
theorem imitation_told_as_kind :
    (Host.elementKind? ⟨0, .object 11⟩ variedHost).1.toOption = some (some .uint8) ∧
      variedHost.engine.machine.typedKind? (.object 11) = none ∧
      (Host.elementKind? ⟨0, .object 10⟩ variedHost).1.toOption = some none ∧
      variedHost.engine.machine.typedKind? (.object 10) = some .uint8 := by
  decide

/-! ## Refusals -/

section Refusals

variable {X : Contexts} {c : ContextId} {r : RealmId}

section Through

variable {σ : Type} [Engine σ] (hr : (X.entry c).realm = some r)
include hr

theorem isCached_sure (hc : h.context = c) (field : Cache → Value) :
    Sure X (Host.isCached h field : Action σ Bool) := by
  subst hc
  have hcontext : Sure X (Host.context h.context : Action σ Context) :=
    fun s hX => ⟨_, s, context_ok _ s, hX⟩
  refine hcontext.bind fun x => ?_
  unfold Host.isInstance
  split
  · refine (live_sure hr).bind fun r => Sure.bind (x := Host.ask (.isInstance r h.value _)) .ask fun b => ?_
    cases b with
    | some b => exact .pure
    | none => exact (discardException_sure hr).bind fun _ => .pure
  · exact .pure

theorem elementKind_sure (hc : h.context = c) :
    Sure X (Host.elementKind? h : Action σ (Option ElementKind)) := by
  have hfirst : ∀ ks, Sure X (Host.firstKind (Host.isTypedArray h) ks :
      Action σ (Option ElementKind)) := by
    intro ks
    induction ks with
    | nil => exact .pure
    | cons k ks ih =>
        refine (isCached_sure hr hc _).bind fun b => ?_
        cases b with
        | true => exact .pure
        | false => exact ih
  unfold Host.elementKind?
  split
  · exact hfirst _
  · exact .pure

theorem typeName_sure (hc : h.context = c) : Sure X (Host.typeName h : Action σ String) := by
  have hfunction : Sure X (Host.isFunction h : Action σ Bool) := by
    subst hc
    unfold Host.isFunction
    split
    · exact (live_sure hr).bind fun _ => .ask
    · exact .pure
  unfold Host.typeName
  cases h.value with
  | object id => exact hfunction.bind fun _ => .pure
  | _ => exact .pure

theorem takeException_sure : Sure X (Host.takeException c : Action σ ExceptionRecord) :=
  (live_sure hr).bind fun _ => Sure.ask.bind fun _ => holding_sure hr rfl (recordOf_sure hr rfl)

end Through

/-- What the engine tells of a typed array is what it looks at, and no answer is given of anything
else. -/
theorem viewInfo_answered {e : ScriptEngine} {v : Value} {i : ViewInfo}
    (hi : (Engine.answer (.viewInfo r v) e).reply = some i) :
    (Engine.answer (.viewInfo r v) e).state.machine.inView? v = some i := by
  rcases Eval.viewOf_told (I := Eval.interp Builtin.supply ScriptEngine.depthLimit)
    (m := e.machine.started r) v with ⟨j, hj, hrun⟩ | ⟨-, w, m', hrun⟩
  · have hcore : ScriptEngine.core (.viewInfo r v) e =
        (some j, { e with machine := e.machine.started r }) := ScriptEngine.run_reads hrun
    have hreply : (Engine.answer (.viewInfo r v) e).reply = (ScriptEngine.core (.viewInfo r v) e).1 :=
      rfl
    rw [hreply, hcore] at hi
    cases hi
    -- The heap is the one that was looked into.
    have hstate : (Engine.answer (.viewInfo r v) e).state.machine.heap =
        (ScriptEngine.core (.viewInfo r v) e).2.machine.heap := by
      let answered := ScriptEngine.core (.viewInfo r v) e
      let counted : ScriptEngine :=
        { answered.2 with ledger := answered.2.ledger.after (.viewInfo r v) answered.1 }
      have htidy : ScriptEngine.tidy (.viewInfo r v) answered.1 counted = counted :=
        ScriptEngine.tidy_idle (q := .viewInfo r v) ⟨nofun, nofun⟩ rfl
      exact congrArg (fun e => e.machine.heap) htidy
    rw [hcore] at hstate
    exact (Machine.inView_of_heap hstate).trans hj
  · have hreply : (Engine.answer (.viewInfo r v) e).reply = none :=
      congrArg Prod.fst (ScriptEngine.run_error hrun)
    rw [hreply] at hi
    cases hi

/-- What is told to be no buffer is a typed array in reach, or it is refused as a broken
precondition. -/
theorem arrayInfo_of_no_buffer (hlive : (Contexts.entry s.contexts h.context).realm.isSome = true)
    (hbuffer : (Host.isArrayBuffer h s).1 = .ok false) :
    ViewsOrRefused h.value (Host.arrayInfo h s) := by
  obtain ⟨r, hr⟩ := Option.isSome_iff_exists.1 hlive
  obtain ⟨b, t, hasked, ht⟩ := isCached_sure hr rfl (·.buffer) s rfl
  obtain rfl : b = false := Except.ok.inj ((congrArg Prod.fst hasked).symm.trans hbuffer)
  obtain ⟨kind, u, hkind, hu⟩ := elementKind_sure hr rfl t ht
  unfold Host.arrayInfo Host.isArrayBuffer
  rw [bind_ok hasked, if_neg Bool.false_ne_true, bind_ok hkind]
  cases kind with
  | none =>
      obtain ⟨name, w, hname, -⟩ := typeName_sure hr rfl u hu
      have hnone : (none : Option ElementKind).isNone = true := rfl
      rw [if_pos hnone, bind_ok hname]
      exact ⟨_, rfl⟩
  | some k =>
      -- The engine tells what is looked at, or refuses, and that is made a contract violation.
      obtain ⟨w, hviewed, hw, hengine, -⟩ := ask_eq (.viewInfo r h.value) u
      rw [if_neg (by simp), bind_ok (live_ok (by rw [hu, hr])), bind_ok hviewed]
      cases hi : (Engine.answer (.viewInfo r h.value) u.engine).reply with
      | some i =>
          have hview := viewInfo_answered hi
          rw [← hengine] at hview
          exact hview
      | none =>
          obtain ⟨d, w', htaken, -⟩ := takeException_sure hr w (hw.trans hu)
          have hrefused : Host.orViolation h.context "typed_array_info" (none : Option ViewInfo) w =
              (.error (.failed (.contractViolation "typed_array_info" d.text)), w') := bind_ok htaken
          rw [bind_error hrefused]
          exact ⟨_, rfl⟩

/-- A buffer is told as one, with all its bytes. -/
theorem arrayInfo_of_sized {n : Nat} (hsized : s.HasSized h n) :
    (Host.arrayInfo h s).1 = .ok ⟨h, 0, n, 1⟩ := by
  obtain ⟨hlimit, r, proto, b, hvalue, hserves, hbuffer, hheld⟩ := hsized
  obtain ⟨c, v⟩ := h
  obtain rfl : v = .object b := hvalue
  let x := (Contexts.entry s.contexts c).cache
  let I (m : Machine) : Prop := m.Serves x proto r ∧ m.IsSized x proto b n
  have hcached : x.buffer.isObject = true := hserves.ready.serves.untouched.buffers.1
  -- The buffer and the constructors are held, so what is known of them stays so.
  have hlasting : ScriptEngine.Lasting (b :: x.held) I := by
    refine (ScriptEngine.serves_lasting objects_subset_held).and fun m m' roots hroots hm hsheds => ?_
    obtain ⟨buffer, hbody, hrest⟩ := hm.body
    have hweak : (m.body b).isWeak = false := by simp [hbody, Body.isWeak]
    have hobj : m'.obj b = m.obj b :=
      (hsheds.stays b (.root (List.mem_append_left _ (hroots b List.mem_cons_self)))).eq hweak
    refine ⟨⟨buffer, ?_, hrest⟩, ?_, ?_⟩
    · rw [Machine.body, hobj]
      exact hbody
    · rw [hobj]
      exact hm.proto
    · rw [hobj]
      exact hm.own
  have hholds : s.engine.Holds (b :: x.held) I := by
    -- A constructor is no buffer.
    have hnot : b ∉ x.held := by
      intro hmem
      obtain ⟨⟨f, i⟩, hmaker, hid⟩ := List.mem_filterMap.1 (List.mem_dedup.1 hmem)
      obtain rfl : f = .object b := by
        cases f with
        | object id =>
            cases hid
            rfl
        | _ => cases hid
      obtain ⟨ref, r', hnative⟩ := (hserves.ready.serves.untouched.makes _ _ hmaker).native
      obtain ⟨buffer, hbody, -⟩ := hbuffer.body
      rw [hbody] at hnative
      cases hnative
    refine ⟨⟨hserves.ready.serves, hbuffer⟩, fun id => ?_⟩
    have hothers := hserves.ready.holds.held id
    rw [List.count_cons]
    by_cases hid : b = id
    · subst hid
      rw [List.count_eq_zero_of_not_mem hnot]
      simpa using Nat.succ_le_of_lt hheld
    · simpa [hid] using hothers
  have hknown : ∀ m, I m → m.Serves x proto r ∧ m.Knows x proto .bufferPrototype b :=
    fun m hm => ⟨hm.1, hm.2.knows hm.1⟩
  have htold : Yields s.contexts (fun e : ScriptEngine => e.Holds (b :: x.held) I)
        (Host.arrayInfo ⟨c, .object b⟩)
      fun i _ => i = ⟨⟨c, .object b⟩, 0, n, 1⟩ := by
    refine (isBuffer_tells hserves.live hlasting rfl hknown hcached).bind ?_
    refine (sizedLength_tells hserves.live rfl hlasting (fun _ hm => hm) hcached hlimit).bind ?_
    refine (dupe_yields hserves.live hlasting).bind fun d s' hX hs => ?_
    obtain ⟨rfl, -⟩ := hs
    exact ⟨_, s', rfl, hX, rfl⟩
  obtain ⟨i, s', hrun, -, rfl⟩ := htold s rfl hholds
  rw [hrun]

/-- What a value looks at is told of typed arrays in reach only, unless the value is told to be a
buffer, and everything else is refused as a broken precondition; a buffer is told with all its bytes.
Whatever the value is, and however scripts changed the built-in objects, nothing stays pending. -/
theorem shapes_told_or_refused (hlive : (Contexts.entry s.contexts h.context).realm.isSome = true)
    (hclear : s.engine.pending = none) :
    (Host.arrayInfo h s).2.engine.pending = none ∧
      ((Host.isArrayBuffer h s).1 = .ok false → ViewsOrRefused h.value (Host.arrayInfo h s)) ∧
      ∀ n, s.HasSized h n → (Host.arrayInfo h s).1 = .ok ⟨h, 0, n, 1⟩ := by
  obtain ⟨r, hr⟩ := Option.isSome_iff_exists.1 hlive
  have hcleared := arrayInfo_clears ScriptEngine.throwing hr rfl s rfl hclear
  exact ⟨hcleared.2, arrayInfo_of_no_buffer hlive, fun n => arrayInfo_of_sized⟩

end Refusals

/-- A small host in which there are a buffer of which the memory was taken away, a typed array over it,
and objects that only inherit what buffers and what typed arrays do. -/
def shapedHost : Host ScriptEngine :=
  let machine := smallHost.engine.machine
  let typed : TypedView := { kind := .uint16, buffer := 9 }
  { smallHost with
    engine :=
    { machine :=
      { machine with
        heap := machine.heap ++ #[{ body := .buffer { region := none }, proto := some 1 },
          { body := .typed typed, proto := some 2 }, { proto := some 1 }, { proto := some 2 }] }
      ledger := [4, 5, 9].foldl (fun l id => l.add (.value (.object id))) {} } }

/-- The built-in objects of the host are as the engine makes them. -/
theorem shapedHost_serves : shapedHost.Serves 0 0 smallProto := by
  have hspares : Machine.Spares (fun _ => True) smallHost.engine.machine
      shapedHost.engine.machine := by
    refine .of_grows ?_ (fun id hid => ?_) rfl rfl
    · change 9 ≤ 13
      decide
    · exact congrArg (·.getD {}) (Array.getElem?_append_left hid)
  have hserves : shapedHost.engine.machine.Serves (Contexts.entry shapedHost.contexts 0).cache
      smallProto 0 := smallHost_serves.ready.serves.spared hspares fun _ _ => trivial
  refine ⟨rfl, ⟨hserves, by decide, ?_⟩, ?_⟩
  · intro id b g hbody hregion
    have hspecial : shapedHost.engine.machine.body id ≠ .ordinary := by simp [hbody]
    have hid : id < 13 := Machine.lt_of_body hspecial
    interval_cases id <;> cases hbody
    cases hregion
  · intro ref
    have hnone : Contexts.waiting shapedHost.contexts = [] := rfl
    simp [hnone]

/-- A buffer that has lost its memory has no bytes, and a typed array over it is refused. -/
theorem shapes_told_or_refused_detached :
    (Host.arrayInfo ⟨0, .object 9⟩ shapedHost).1 = .ok ⟨⟨0, .object 9⟩, 0, 0, 1⟩ ∧
      (Host.arrayInfo ⟨0, .object 10⟩ shapedHost).2.engine.pending = none ∧
      ∃ d, (Host.arrayInfo ⟨0, .object 10⟩ shapedHost).1 =
        .error (.failed (.contractViolation "typed_array_info" d)) := by
  have hsized : shapedHost.HasSized ⟨0, .object 9⟩ 0 :=
    ⟨by decide, 0, smallProto, 9, rfl, shapedHost_serves, ⟨⟨_, rfl, rfl, rfl⟩, rfl, rfl⟩, by decide⟩
  have hbuffer := shapes_told_or_refused (s := shapedHost) (h := ⟨0, .object 9⟩) rfl rfl
  have htyped := shapes_told_or_refused (s := shapedHost) (h := ⟨0, .object 10⟩) rfl rfl
  have hno : (Host.isArrayBuffer ⟨0, .object 10⟩ shapedHost).1 = .ok false := by rfl
  have hrefused : (Host.arrayInfo ⟨0, .object 10⟩ shapedHost).1.toOption.isNone = true := by
    decide +kernel
  refine ⟨hbuffer.2.2 0 hsized, htyped.1, ?_⟩
  have htold := htyped.2.1 hno
  unfold ViewsOrRefused at htold
  split at htold
  next i s hrun =>
    rw [hrun] at hrefused
    cases hrefused
  next e s hrun =>
    obtain ⟨d, rfl⟩ := htold
    exact ⟨d, congrArg Prod.fst hrun⟩

/-- An object that only inherits what buffers do is refused with what the engine threw. -/
theorem imitation_refused_with_exception : shapedHost.Serves 0 0 smallProto ∧
    shapedHost.engine.pending = none ∧
    ∃ d, (Host.arrayInfo ⟨0, .object 11⟩ shapedHost).1 = .error (.failed (.exception d)) := by
  have hthrown : (Host.arrayInfo ⟨0, .object 11⟩ shapedHost).1.map (fun _ => ()) =
      .error (.failed (.exception ⟨"", "ArrayBuffer object expected", "",
        "    at <anonymous> (native)\n"⟩)) := by decide +kernel
  refine ⟨shapedHost_serves, rfl, ?_⟩
  generalize (Host.arrayInfo ⟨0, .object 11⟩ shapedHost).1 = told at hthrown
  cases told with
  | ok i => cases hthrown
  | error e =>
      cases hthrown
      exact ⟨_, rfl⟩

end Host

end ScriptHost
