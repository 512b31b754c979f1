import ScriptHost.Proofs.Instances
import ScriptHost.Proofs.Propagation
/-!
# What a host is told about objects

In a context whose built-in objects are untouched, the host is told what an object is an instance of,
and asking leaves everything that is known of the engine as it was.
-/

namespace ScriptHost

open Accounting (context_ok live_ok)

namespace Machine

variable {m m' : Machine} {x : Cache} {proto : Intrinsic → Nat} {r : RealmId} {i : Intrinsic}
  {id f : Nat} {k : Key} {run : NativeCall → Eval Value}

/-! ## Instances of built-in constructors -/

/-- What inherits from a built-in object directly is an instance of its constructor only. -/
theorem Furnishes.instanceOf (h : m.Furnishes x proto r i k run)
    (hdistinct : ∀ f g i j, (.object f, i) ∈ x.makers → (.object g, j) ∈ x.makers →
      proto i = proto j → i = j)
    (hf : (.object f, i) ∈ x.makers) (hproto : (m.obj id).proto = some (proto i)) :
    m.InstanceOf x proto i id := by
  rcases h.ancestors with ⟨ps, hps, halone, -⟩
  refine ⟨proto i :: ps, ⟨hproto, h.plain, hps⟩, fun g j hg => ?_⟩
  constructor
  · intro hmem
    rcases List.mem_cons.1 hmem with heq | hmem
    · exact hdistinct g f j i hg hf heq
    · exact absurd hmem (halone g j hg)
  · intro hj
    rw [hj]
    exact List.mem_cons_self

/-- What inherits from a built-in object directly has the property that is found out there. -/
theorem Furnishes.find (h : m.Furnishes x proto r i k run) (hproto : (m.obj id).proto = some (proto i))
    (hproxy : m.NoProxy id) (hown : m.own? id k = none) (hstops : m.stopsAt id k = false) :
    ∃ j pr g s, m.find k (some id) = .property j pr ∧ pr.content = .accessor (some g) s ∧
      m.Performs r run g := by
  rcases h.ancestors with ⟨ps, hps, -, g, s, hfirst, hg⟩
  rcases Option.map_eq_some_iff.1 hfirst with ⟨pr, hpr, hcontent⟩
  have hdescends : m.Descends id (proto i :: ps) := ⟨hproto, h.plain, hps⟩
  rcases find_inherited hdescends hproxy hown hstops hpr with ⟨j, hj⟩
  exact ⟨j, pr, g, s, hj, hcontent, hg⟩

/-! ## What lasts -/

theorem Serves.spared {P : Nat → Prop} (h : m.Serves x proto r) (hs : Spares P m m')
    (hP : ∀ f ∈ x.objects, P f) : m'.Serves x proto r :=
  ⟨h.untouched.spared hs hP, by rw [hs.limits]; exact h.room⟩

/-- The machine that is about to run something. -/
def started (m : Machine) (r : RealmId) : Machine :=
  { m with realm := r, calls := [], stackUsed := 0 }

theorem started_spares (m : Machine) (r : RealmId) : Spares (fun _ => True) m (m.started r) :=
  .of_heap rfl rfl rfl

theorem Serves.roomToCall (h : m.Serves x proto r) : Eval.RoomToCall (m.started r) := by
  intro limit hlimit
  have hroom := h.room limit hlimit
  simpa [started] using hroom

end Machine

/-- The objects that a context looked up, each once. -/
def Cache.held (x : Cache) : List Nat := x.objects.dedup

namespace ScriptEngine

open Machine (Serves)

variable {e : ScriptEngine} {q : Request} {held held' : List Nat} {I : Machine → Prop} {x : Cache}
  {proto : Intrinsic → Nat} {r : RealmId} {α : Type}

theorem serves_lasting (hheld : ∀ id ∈ x.objects, id ∈ held) :
    Lasting held fun m => m.Serves x proto r := by
  intro m m' roots hroots hserves hsheds
  refine hserves.spared (.of_sheds hsheds) fun f hf => ?_
  exact .root (List.mem_append_left _ (hroots f (hheld f hf)))

/-! ## Requests that only look -/

/-- What is known of a machine is known of it when it is about to run something. -/
theorem Lasting.started {m : Machine} (h : Lasting held I) (hm : I m) : I (m.started r) :=
  h m _ (held.map .object) (fun _ hid => List.mem_map_of_mem hid) hm
    (.of_same rfl rfl rfl rfl rfl)

/-- A computation that leaves the machine alone. -/
theorem run_reads {y : Eval α} {a : α}
    (hy : y (Eval.interp Builtin.supply depthLimit) (e.machine.started r) =
      .ok a (e.machine.started r)) :
    run r y e = (some a, { e with machine := e.machine.started r }) := run_eq hy

theorem runValue_ok {y : Eval Value} {v : Value} {m' : Machine}
    (hy : y (Eval.interp Builtin.supply depthLimit) (e.machine.started r) = .ok v m') :
    runValue r y e = (v, { e with machine := m' }) := by
  rw [runValue, run_eq hy]

/-- What is thrown is pending then. -/
theorem run_error {y : Eval α} {v : Value} {m' : Machine}
    (hy : y (Eval.interp Builtin.supply depthLimit) (e.machine.started r) = .error v m') :
    run r y e = (none, { e with machine := m', pending := pendingAfter v e.pending }) := by
  rcases e with ⟨machine, pending, ledger, queue⟩
  unfold run
  dsimp only at hy ⊢
  unfold Machine.started at hy
  rw [hy]

theorem runValue_error {y : Eval Value} {v : Value} {m' : Machine}
    (hy : y (Eval.interp Builtin.supply depthLimit) (e.machine.started r) = .error v m') :
    runValue r y e = (.exception, { e with machine := m', pending := pendingAfter v e.pending }) := by
  rw [runValue, run_error hy]

/-- A request that throws nothing leaves known what is known of the machine that comes of it. -/
theorem Holds.answer_looks {a : q.Reply} {m' : Machine} {J : Machine → Prop} (h : e.Holds held J)
    (hlasting : Lasting held' I) (hq : q ≠ .collect ∧ q ≠ .shutDown)
    (hcore : core q e = (a, { e with machine := m' })) (hmachine : I m')
    (hcount : ∀ id, held'.count id ≤ held.count id - q.taken.count (.value (.object id)) +
      (q.given a).count (.value (.object id))) :
    (Engine.answer q e).reply = a ∧ (Engine.answer q e).state.Holds held' I := by
  have hlasting' : Lasting (held' ++ thrownObjects { e with machine := m' }) I :=
    hlasting.mono fun id hid => List.mem_append_left _ hid
  have hheld : ∀ id, held'.count id ≤ e.ledger.count (.value (.object id)) -
      q.taken.count (.value (.object id)) + (q.given a).count (.value (.object id)) := by
    intro id
    have hle := h.held id
    have hcount := hcount id
    omega
  rcases answer_holds hq hcore rfl hmachine hlasting' hheld with ⟨hreply, hholds, -⟩
  exact ⟨hreply, hholds⟩

/-- A request that gives an object to the host gives it a reference more. -/
theorem Holds.answer_gives {a : q.Reply} {m' : Machine} {id : Nat} {J : Machine → Prop}
    (h : e.Holds held J) (hlasting : Lasting (id :: held) I) (hq : q ≠ .collect ∧ q ≠ .shutDown)
    (hcore : core q e = (a, { e with machine := m' })) (hmachine : I m') (htaken : q.taken = [])
    (hgiven : q.given a = [.value (.object id)]) :
    (Engine.answer q e).reply = a ∧ (Engine.answer q e).state.Holds (id :: held) I := by
  refine h.answer_looks hlasting hq hcore hmachine fun j => ?_
  rw [htaken, hgiven, List.count_cons, List.count_singleton]
  by_cases hj : id = j <;> simp [hj]

end ScriptEngine

namespace Host

open ScriptEngine (Lasting Holds)

variable {X : Contexts} {c : ContextId} {r : RealmId} {held : List Nat} {I : Machine → Prop}
  {x : Cache} {proto : Intrinsic → Nat} {i j : Intrinsic} {id b : Nat} {α : Type}

/-- An action that gives a result and leaves what is known of the engine as it was. -/
def Tells (X : Contexts) (held : List Nat) (I : Machine → Prop) (y : Action ScriptEngine α) (a : α) :
    Prop :=
  Yields X (fun e => e.Holds held I) y fun a' e => a' = a ∧ e.Holds held I

namespace Tells

variable {β : Type} {a : α}

theorem pure : Tells X held I (Pure.pure a) a := Yields.pure fun _ he => ⟨rfl, he⟩

theorem bind {y : Action ScriptEngine α} {f : α → Action ScriptEngine β}
    {Q : β → ScriptEngine → Prop} (hy : Tells X held I y a)
    (hf : Yields X (fun e => e.Holds held I) (f a) Q) :
    Yields X (fun e => e.Holds held I) (y >>= f) Q := by
  refine Yields.bind hy fun a' => ?_
  intro s hX hQ
  rw [hQ.1]
  exact hf s hX hQ.2

/-- What was told, and no more. -/
theorem fst {y : Action ScriptEngine α} (hy : Tells X held I y a) {s : Host ScriptEngine}
    (hX : s.contexts = X) (hs : s.engine.Holds held I) : (y s).1 = .ok a := by
  rcases hy s hX hs with ⟨a', s', hrun, -, ha, -⟩
  rw [hrun, ha]

end Tells

/-- A request on which nothing is changed that is known. -/
theorem ask_tells {q : Request} {a : q.Reply} (hlasting : Lasting held I)
    (hq : q ≠ .collect ∧ q ≠ .shutDown) (htaken : q.taken = [])
    (hcore : ∀ e : ScriptEngine, I e.machine → ∃ m', ScriptEngine.core q e =
      (a, { e with machine := m' }) ∧ I m') : Tells X held I (Host.ask q) a := by
  refine Yields.ask fun e he => ?_
  rcases hcore e he.machine with ⟨m', hcore, hmachine⟩
  exact he.answer_looks hlasting hq hcore hmachine fun id => by simp [htaken]

/-- A second reference to an object. -/
theorem dupe_yields (hr : (X.entry c).realm = some r) (hlasting : Lasting held I) :
    Yields X (fun e => Holds e held I) (Host.dupe ⟨c, .object id⟩)
      fun h e => h = ⟨c, .object id⟩ ∧ Holds e (id :: held) I := by
  have hasked : Yields X (fun e => Holds e held I) (Host.ask (.retain r (.value (.object id))))
      fun _ e => Holds e (id :: held) I := by
    refine Yields.ask fun e he => ?_
    exact (he.answer_gives (q := .retain r (.value (.object id)))
      (hlasting.mono fun _ => List.mem_cons_of_mem id) ⟨nofun, nofun⟩ rfl he.machine rfl rfl).2
  unfold Host.dupe
  exact Yields.live_bind hr (hasked.bind fun _ => Yields.pure fun _ he => ⟨rfl, he⟩)

/-- A reference to an object is given back. -/
theorem drop_yields (hr : (X.entry c).realm = some r) (hlasting : Lasting held I) :
    Yields X (fun e => Holds e (id :: held) I) (Host.drop ⟨c, .object id⟩)
      fun _ e => Holds e held I := by
  have hasked : Yields X (fun e => Holds e (id :: held) I)
      (Host.ask (.release r [.value (.object id)])) fun _ e => Holds e held I := by
    refine Yields.ask fun e he => ?_
    refine (he.answer_looks (q := .release r [.value (.object id)]) hlasting ⟨nofun, nofun⟩ rfl
      he.machine fun j => ?_).2
    have htaken : (Request.release r [.value (.object id)]).taken = [.value (.object id)] := rfl
    rw [htaken, List.count_cons, List.count_singleton]
    by_cases hj : id = j <;> simp [hj]
  have hcounted : (Value.object id).isCounted = true := rfl
  unfold Host.drop
  rw [if_pos hcounted]
  exact Yields.live_bind hr hasked

/-- A value that is not counted need not be given back. -/
theorem Tells.holding_uncounted {y : Handle → Action ScriptEngine α} {a : α} {v : Value}
    (hv : v.isCounted = false) (hy : Tells X held I (y ⟨c, v⟩) a) :
    Tells X held I (Host.holding ⟨c, v⟩ y) a := by
  refine Yields.ensuring hy fun _ => ?_
  unfold Host.drop
  rw [hv, if_neg Bool.false_ne_true]
  exact Yields.pure fun _ he => he

/-- The reference to an object is given back when something was told. -/
theorem Tells.holding {y : Handle → Action ScriptEngine α} {a : α}
    (hr : (X.entry c).realm = some r) (hlasting : Lasting held I)
    (hy : Tells X (id :: held) I (y ⟨c, .object id⟩) a) :
    Yields X (fun e => Holds e (id :: held) I) (Host.holding ⟨c, .object id⟩ y)
      fun a' e => a' = a ∧ Holds e held I := by
  refine Yields.ensuring hy fun a' s hX hs => ?_
  rcases drop_yields hr hlasting s hX hs.2 with ⟨u, s', hrun, hX', hs'⟩
  exact ⟨u, s', hrun, hX', hs.1, hs'⟩

/-! ## Instances -/

section Instances

variable (hr : (X.entry c).realm = some r) (hlasting : Lasting held I)
include hr hlasting

theorem isInstance_tells {f : Nat} {p : Nat} {yes : Bool}
    (hI : ∀ m, I m → ∃ ps, m.Makes f p ∧ m.Descends id ps ∧ m.NoProxy id ∧
      Eval.RoomToCall (m.started r) ∧ decide (p ∈ ps) = yes) :
    Tells X held I (Host.isInstance ⟨c, .object id⟩ (.object f)) yes := by
  have hasked : Tells X held I (Host.ask (.isInstance r (.object id) (.object f))) (some yes) := by
    refine ask_tells hlasting ⟨nofun, nofun⟩ rfl fun e he => ?_
    refine ⟨e.machine.started r, ?_, hlasting.started he⟩
    rcases hI _ (hlasting.started (r := r) he) with ⟨ps, hmakes, hps, hproxy, -, hyes⟩
    rcases hI _ he with ⟨-, -, -, -, hroom, -⟩
    refine ScriptEngine.run_reads ?_
    have hanswer := Eval.instanceOf_eq (d := 9999) hmakes hps hproxy hroom
    rw [hyes] at hanswer
    exact hanswer
  have hobjects : ((Value.object id).isObject && (Value.object f).isObject) = true := rfl
  unfold Host.isInstance
  rw [if_pos hobjects]
  exact Yields.live_bind hr (hasked.bind Tells.pure)

variable (hx : (X.entry c).cache = x)
  (hI : ∀ m, I m → m.Serves x proto r ∧ m.Knows x proto i id)
include hx hI

/-- The host is told of a constructor that it looked up whether an object is an instance of it. -/
theorem isCached_tells (field : Cache → Value) (hmaker : (field x, j) ∈ x.makers) :
    Tells X held I (Host.isCached ⟨c, .object id⟩ field) ((field x).isObject && decide (j = i)) := by
  unfold Host.isCached
  refine Yields.context_bind ?_
  rw [hx]
  cases hf : field x with
  | object f =>
      rw [hf] at hmaker
      refine isInstance_tells (p := proto j) hr hlasting fun m hm => ?_
      rcases hI m hm with ⟨hserves, hknows⟩
      rcases hknows.instance_of with ⟨ps, hps, hall⟩
      exact ⟨ps, hserves.untouched.makes f j hmaker, hps, hknows.no_proxy, hserves.roomToCall,
        decide_eq_decide.2 (hall f j hmaker)⟩
  | _ => exact Tells.pure

theorem isArray_tells : Tells X held I (Host.isArray ⟨c, .object id⟩)
    (x.array.isObject && decide (.arrayPrototype = i)) :=
  isCached_tells hr hlasting hx hI _ (by simp [Cache.makers])

theorem isMap_tells : Tells X held I (Host.isMap ⟨c, .object id⟩)
    (x.map.isObject && decide (.mapPrototype = i)) :=
  isCached_tells hr hlasting hx hI _ (by simp [Cache.makers])

theorem isSet_tells : Tells X held I (Host.isSet ⟨c, .object id⟩)
    (x.set.isObject && decide (.setPrototype = i)) :=
  isCached_tells hr hlasting hx hI _ (by simp [Cache.makers])

theorem isArrayBuffer_tells : Tells X held I (Host.isArrayBuffer ⟨c, .object id⟩)
    (x.buffer.isObject && decide (.bufferPrototype = i)) :=
  isCached_tells hr hlasting hx hI _ (by simp [Cache.makers])

theorem isTypedArray_tells (k : ElementKind) : Tells X held I
    (Host.isTypedArray ⟨c, .object id⟩ k)
    ((x.elements k).isObject && decide (.elementPrototype k = i)) := by
  refine isCached_tells hr hlasting hx hI (fun x => x.elements k) ?_
  exact List.mem_append_right _ (List.mem_map_of_mem (ElementKind.mem_all k))

omit hr hlasting hx hI in
theorem firstKind_tells {test : ElementKind → Action ScriptEngine Bool} {yes : ElementKind → Bool}
    (htest : ∀ k, Tells X held I (test k) (yes k)) (ks : List ElementKind) :
    Tells X held I (Host.firstKind test ks) (ks.find? yes) := by
  induction ks with
  | nil => exact Tells.pure
  | cons k ks ih =>
      rw [Host.firstKind]
      refine (htest k).bind ?_
      rw [List.find?_cons]
      cases yes k with
      | true => exact Tells.pure
      | false => exact ih

theorem elementKind_tells : Tells X held I (Host.elementKind? ⟨c, .object id⟩)
    (ElementKind.all.find? fun k => (x.elements k).isObject && decide (.elementPrototype k = i)) := by
  have hobject : (Value.object id).isObject = true := rfl
  unfold Host.elementKind?
  rw [if_pos hobject]
  exact firstKind_tells (isTypedArray_tells hr hlasting hx hI) _

end Instances

/-! ## Typed arrays -/

section TypedArrays

variable {k : ElementKind} (hr : (X.entry c).realm = some r) (hlasting : Lasting held I)
  (hx : (X.entry c).cache = x) (hk : (x.elements k).isObject = true)
  (hI : ∀ m, I m → m.Serves x proto r ∧ m.Knows x proto (.elementPrototype k) id)
include hr hlasting hx hI

theorem notBuffer_tells : Tells X held I (Host.isArrayBuffer ⟨c, .object id⟩) false := by
  have htold := isArrayBuffer_tells hr hlasting hx hI
  rwa [decide_eq_false (by simp), Bool.and_false] at htold

include hk

/-- A typed array is of its kind and of no other. -/
theorem isKind_tells (j : ElementKind) :
    Tells X held I (Host.isTypedArray ⟨c, .object id⟩ j) (decide (j = k)) := by
  have htold := isTypedArray_tells hr hlasting hx hI j
  have hyes : ((x.elements j).isObject && decide (Intrinsic.elementPrototype j = .elementPrototype k))
      = decide (j = k) := by
    by_cases hj : j = k
    · simp [hj, hk]
    · simp [hj]
  rwa [hyes] at htold

theorem kindOf_tells : Tells X held I (Host.elementKind? ⟨c, .object id⟩) (some k) := by
  have hobject : (Value.object id).isObject = true := rfl
  have hfind : ElementKind.all.find? (fun j => decide (j = k)) = some k := by cases k <;> rfl
  unfold Host.elementKind?
  rw [if_pos hobject, ← hfind]
  exact firstKind_tells (isKind_tells hr hlasting hx hk hI) _

theorem sizeKey_tells : Tells X held I (Host.sizeKey? ⟨c, .object id⟩) (some x.length) := by
  have harray := isArray_tells hr hlasting hx hI
  rw [decide_eq_false (by simp), Bool.and_false] at harray
  unfold Host.sizeKey?
  refine Yields.context_bind ?_
  rw [hx]
  exact harray.bind ((kindOf_tells hr hlasting hx hk hI).bind Tells.pure)

end TypedArrays

/-! ## Buffers -/

section Buffers

variable (hr : (X.entry c).realm = some r) (hlasting : Lasting held I)
  (hx : (X.entry c).cache = x)
  (hI : ∀ m, I m → m.Serves x proto r ∧ m.Knows x proto .bufferPrototype id)
include hr hlasting hx hI

theorem isBuffer_tells (hbuffer : x.buffer.isObject = true) :
    Tells X held I (Host.isArrayBuffer ⟨c, .object id⟩) true := by
  have htold := isArrayBuffer_tells hr hlasting hx hI
  rwa [decide_eq_true rfl, hbuffer] at htold

theorem bufferSizeKey_tells (hbuffer : x.buffer.isObject = true) :
    Tells X held I (Host.sizeKey? ⟨c, .object id⟩) (some x.byteLength) := by
  have harray := isArray_tells hr hlasting hx hI
  have hkind := elementKind_tells hr hlasting hx hI
  have hmap := isMap_tells hr hlasting hx hI
  have hset := isSet_tells hr hlasting hx hI
  rw [decide_eq_false (by simp), Bool.and_false] at harray hmap hset
  have hnone : (ElementKind.all.find? fun k =>
      (x.elements k).isObject && decide (Intrinsic.elementPrototype k = .bufferPrototype)) = none := by
    simp
  rw [hnone] at hkind
  unfold Host.sizeKey?
  refine Yields.context_bind ?_
  rw [hx]
  refine harray.bind (hkind.bind (hmap.bind (hset.bind ?_)))
  exact (isBuffer_tells hr hlasting hx hI hbuffer).bind Tells.pure

end Buffers

/-! ## Sizes -/

/-- What a getter of a built-in object finds out without changing anything. -/
theorem getKey_tells {k : Key} {z : Int32} (run : NativeCall → Eval Value)
    (hr : (X.entry c).realm = some r) (hlasting : Lasting held I)
    (hI : ∀ m, I m → Eval.RoomToCall (m.started r) ∧ ∃ j pr g s,
      m.find k (some id) = .property j pr ∧ pr.content = .accessor (some g) s ∧
      m.Performs r run g ∧ ∀ (J : Interp) data,
        run ⟨.object id, #[], .undefined, g, data⟩ J (Eval.inside m g r) =
          .ok (.int z) (Eval.inside m g r)) :
    Tells X held I (Host.getKey ⟨c, .object id⟩ k) ⟨c, .int z⟩ := by
  have hasked : Tells X held I (Host.ask (.get r (.object id) k)) (.int z) := by
    refine ask_tells hlasting ⟨nofun, nofun⟩ rfl fun e he => ?_
    refine ⟨e.machine.started r, ?_, hlasting.started he⟩
    rcases hI _ he with ⟨hroom, -⟩
    rcases hI _ (hlasting.started (r := r) he) with ⟨-, j, pr, g, s, hfind, hcontent, hperforms, hrun⟩
    have hcall : Eval.getOf (.object id) k (Eval.interp Builtin.supply ScriptEngine.depthLimit)
        (e.machine.started r) = .ok (.int z) (Eval.left (e.machine.started r)
          (Eval.inside (e.machine.started r) g r)) := by
      rw [Eval.getOf_accessor hfind hcontent]
      exact Eval.call_performs hperforms hroom (hrun (Eval.interp Builtin.supply 9999))
    exact ScriptEngine.runValue_ok hcall
  unfold Host.getKey
  exact Yields.live_bind hr (hasked.bind (Yields.check nofun))

/-- The size of what has a number under a key, which is read as an integer of 64 bits. -/
theorem size_tells {k : Key} {v : Value} {z : Int64} {n : Nat} (hr : (X.entry c).realm = some r)
    (hlasting : Lasting held I) (hv : v.isCounted = false)
    (hread : ∀ J m, Eval.toInt64 v J m = .ok z m) (hz : z.toInt = n)
    (hkey : Tells X held I (Host.sizeKey? ⟨c, .object id⟩) (some k))
    (hget : Tells X held I (Host.getKey ⟨c, .object id⟩ k) ⟨c, v⟩) :
    Tells X held I (Host.length ⟨c, .object id⟩) n := by
  have hconverted : Tells X held I (Host.toInt64 ⟨c, v⟩) z := by
    have hasked : Tells X held I (Host.ask (.toInt64 r v)) (some z) :=
      ask_tells hlasting ⟨nofun, nofun⟩ rfl fun e he =>
        ⟨e.machine.started r, ScriptEngine.run_reads (hread _ _), hlasting.started he⟩
    unfold Host.toInt64
    exact Yields.live_bind hr (hasked.bind (Yields.orThrow))
  have hnatural : z.toInt = .ofNat n := hz
  unfold Host.length
  refine hkey.bind (hget.bind (Tells.holding_uncounted hv hconverted |>.bind ?_))
  rw [hnatural]
  exact Tells.pure

/-- The size of what has a 32-bit integer under a key. -/
theorem length_tells {k : Key} {z : Int32} {n : Nat} (hr : (X.entry c).realm = some r)
    (hlasting : Lasting held I) (hz : z.toInt = n)
    (hkey : Tells X held I (Host.sizeKey? ⟨c, .object id⟩) (some k))
    (hget : Tells X held I (Host.getKey ⟨c, .object id⟩ k) ⟨c, .int z⟩) :
    Tells X held I (Host.length ⟨c, .object id⟩) n := by
  refine size_tells (z := z.toInt64) hr hlasting rfl (fun _ _ => rfl) ?_ hkey hget
  rw [Int32.toInt_toInt64, hz]

end Host

end ScriptHost
