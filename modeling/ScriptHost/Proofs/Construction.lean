import ScriptHost.Proofs.TypedArrays
import ScriptHost.Proofs.RangeErrors
import ScriptHost.Proofs.Tallying
/-!
# Typed arrays made from bytes

In a context whose built-in objects are untouched, a typed array made over bytes shows just these if
they are whole elements.  Otherwise a range error is thrown, and the host has the references that it
had before.
-/

namespace ScriptHost

/-! ## What is known of new buffers and typed arrays -/

namespace Machine

variable {m m' : Machine} {x : Cache} {proto : Intrinsic → Nat} {r : RealmId} {b f g n t : Nat}
  {k : ElementKind} {bytes : ByteArray}

/-- A machine in which a buffer was made for bytes. -/
structure Stores (m : Machine) (x : Cache) (proto : Intrinsic → Nat) (r : RealmId) (b g : Nat)
    (bytes : ByteArray) : Prop where
  serves : m.Serves x proto r
  buffer : m.HasBuffer proto b g bytes

/-- A machine in which a typed array was made over such a buffer. -/
structure Views (m : Machine) (x : Cache) (proto : Intrinsic → Nat) (r : RealmId)
    (k : ElementKind) (b g t : Nat) (bytes : ByteArray) : Prop extends
    m.Stores x proto r b g bytes where
  view : m.HasView proto k b g bytes.size t

/-- The host knows a buffer that inherits what buffers do. -/
theorem IsSized.knows {n : Nat} (h : m.IsSized x proto b n) (hserves : m.Serves x proto r) :
    m.Knows x proto .bufferPrototype b := by
  rcases h.body with ⟨buffer, hbody, -⟩
  rcases hserves.untouched.buffers with ⟨hbuffer, -, hfurnishes⟩
  cases hf : x.buffer with
  | object f =>
      have hmaker : (.object f, .bufferPrototype) ∈ x.makers := by simp [Cache.makers, hf]
      refine ⟨hfurnishes.instanceOf hserves.untouched.distinct hmaker h.proto, ?_⟩
      intro t hd c' b' hproxy
      rw [hbody] at hproxy
      cases hproxy
  | _ => simp [hf, Value.isObject] at hbuffer

theorem HasBuffer.isSized (h : m.HasBuffer proto b g bytes) : m.IsSized x proto b bytes.size := by
  rcases h.obj with ⟨token, hobj⟩
  refine ⟨⟨_, congrArg Obj.body hobj, rfl, rfl⟩, by rw [hobj]; rfl, ?_⟩
  rw [hobj]
  exact PropertyTable.lists_empty.get_eq _

/-- The host knows a new buffer. -/
theorem HasBuffer.knows (h : m.HasBuffer proto b g bytes) (hserves : m.Serves x proto r) :
    m.Knows x proto .bufferPrototype b :=
  h.isSized.knows hserves

/-- The host knows an object that inherits from what the instances of a kind inherit from. -/
theorem Serves.knows_typed {v : TypedView} (h : m.Serves x proto r) (hf : x.elements k = .object f)
    (hproto : (m.obj t).proto = some (proto (.elementPrototype k))) (hbody : m.body t = .typed v) :
    m.Knows x proto (.elementPrototype k) t := by
  rcases h.untouched.elements f k hf with ⟨-, -, -, hfurnishes⟩
  have hmaker : (.object f, .elementPrototype k) ∈ x.makers := by
    rw [Cache.makers, ← hf]
    exact List.mem_append_right _ (List.mem_map_of_mem (ElementKind.mem_all k))
  refine ⟨hfurnishes.instanceOf h.untouched.distinct hmaker hproto, ?_⟩
  intro t' hd c' b' hproxy
  rw [hbody] at hproxy
  cases hproxy

theorem HasView.knows (h : m.HasView proto k b g n t) (hserves : m.Serves x proto r)
    (hf : x.elements k = .object f) : m.Knows x proto (.elementPrototype k) t := by
  have hbody : m.body t = .typed ⟨k, b, 0, n, false, n / k.size, some g⟩ := congrArg Obj.body h
  exact hserves.knows_typed hf (by rw [h]; rfl) hbody

/-- A new buffer has its memory for itself. -/
theorem hasBuffer_new {token : Option UInt64} {memory : ByteArray}
    (hregions : ∀ id b g, m.body id = .buffer b → b.region = some g → g < m.regions.size)
    (hheap : m'.heap = m.heap.push (bufferObj proto m.regions.size bytes.size token))
    (hmemory : m'.regions = m.regions.push memory) (hbytes : memory.extract 0 bytes.size = bytes) :
    m'.HasBuffer proto m.heap.size m.regions.size bytes := by
  have hobj : ∀ id, m'.obj id = (m.withObj (bufferObj proto m.regions.size bytes.size token)).obj id := by
    intro id
    rw [obj, hheap]
    rfl
  refine ⟨⟨token, ?_⟩, ?_, ?_⟩
  · rw [hobj, obj_withObj]
  · intro id b' hb' hregion
    by_contra hid
    rw [body, hobj, obj_withObj_ne _ hid] at hb'
    exact Nat.lt_irrefl _ (hregions id b' _ hb' hregion)
  · rw [region, hmemory, Array.getElem?_push_size]
    exact hbytes

/-- One object more, which is no buffer, leaves a buffer alone. -/
theorem Stores.grows (h : m.Stores x proto r b g bytes) (hsize : m'.heap.size = m.heap.size + 1)
    (hobj : ∀ id ≠ m.heap.size, m'.obj id = m.obj id)
    (hnew : ∀ b', m'.body m.heap.size ≠ .buffer b') (hregions : m'.regions = m.regions)
    (hrealms : m'.realms = m.realms) (hlimits : m'.limits = m.limits) :
    m'.Stores x proto r b g bytes := by
  have hspares : Spares (fun _ => True) m m' :=
    .of_grows (by omega) (fun id hid => hobj id (Nat.ne_of_lt hid)) hrealms hlimits
  refine ⟨h.serves.spared hspares fun _ _ => trivial, h.buffer.grows ?_ ?_ ?_⟩
  · exact hobj b (Nat.ne_of_lt h.buffer.lt)
  · intro id b' hb'
    by_cases hid : id = m.heap.size
    · subst hid
      exact absurd hb' (hnew b')
    · rwa [body, hobj id hid] at hb'
  · rw [region, region, hregions]

/-- A buffer and a typed array over it, made at once. -/
theorem views_new {memory : ByteArray} (hserves : m.Serves x proto r)
    (hregions : ∀ id b g, m.body id = .buffer b → b.region = some g → g < m.regions.size)
    (hheap : m'.heap = (m.heap.push (bufferObj proto m.regions.size bytes.size none)).push
      (viewObj proto k m.heap.size m.regions.size bytes.size))
    (hmemory : m'.regions = m.regions.push memory) (hbytes : memory.extract 0 bytes.size = bytes)
    (hrealms : m'.realms = m.realms) (hlimits : m'.limits = m.limits) :
    m'.Views x proto r k m.heap.size m.regions.size (m.heap.size + 1) bytes := by
  -- Between the two objects stands a machine with the buffer alone.
  let buffer := bufferObj proto m.regions.size bytes.size none
  let view := viewObj proto k m.heap.size m.regions.size bytes.size
  let m₀ : Machine := { m' with heap := m.heap.push buffer }
  have hspares : Spares (fun _ => True) m m₀ :=
    .of_grows (spares_withObj m buffer).size
      (fun id hid => obj_withObj_ne buffer (Nat.ne_of_lt hid)) hrealms hlimits
  have hstores : m₀.Stores x proto r m.heap.size m.regions.size bytes :=
    ⟨hserves.spared hspares fun _ _ => trivial, hasBuffer_new hregions rfl hmemory hbytes⟩
  have hsize : m₀.heap.size = m.heap.size + 1 := Array.size_push ..
  have hobj : ∀ id, m'.obj id = (m₀.withObj view).obj id := by
    intro id
    rw [obj, hheap]
    rfl
  have hnew : m'.obj (m.heap.size + 1) = view := by
    rw [hobj, ← hsize, obj_withObj]
  refine ⟨hstores.grows ?_ (fun id hid => ?_) (fun b' hb' => ?_) rfl rfl rfl, hnew⟩
  · rw [hheap, Array.size_push]
  · exact (hobj id).trans (obj_withObj_ne view hid)
  · rw [hsize, body, hnew] at hb'
    cases hb'

end Machine

namespace ScriptEngine

open Machine (Stores Views)

variable {held : List Nat} {x : Cache} {proto : Intrinsic → Nat} {r : RealmId} {b g t : Nat}
  {k : ElementKind} {bytes : ByteArray}

theorem stores_lasting (hheld : ∀ id ∈ x.objects, id ∈ held) (hb : b ∈ held) :
    Lasting held fun m => m.Stores x proto r b g bytes := by
  intro m m' roots hroots hm hsheds
  have hroot : m.Held roots (.object b) := .root (List.mem_append_left _ (hroots b hb))
  exact ⟨serves_lasting hheld m m' roots hroots hm.serves hsheds, hm.buffer.sheds hsheds hroot⟩

/-- A typed array that is held is enough to keep its buffer. -/
theorem views_lasting (hheld : ∀ id ∈ x.objects, id ∈ held) (ht : t ∈ held) (hsize : k.size ∣ bytes.size) :
    Lasting held fun m => m.Views x proto r k b g t bytes := by
  intro m m' roots hroots hm hsheds
  have hroot : m.Held roots (.object t) := .root (List.mem_append_left _ (hroots t ht))
  rcases (hm.view.isView hsize).sheds hsheds hroot with ⟨-, hobj, hbuffer⟩
  refine ⟨⟨serves_lasting hheld m m' roots hroots hm.serves hsheds,
    hm.buffer.sheds hsheds hbuffer⟩, ?_⟩
  rw [Machine.HasView, hobj]
  exact hm.view

/-! ## Single requests -/

/-- The prototypes that a realm keeps for itself. -/
theorem intrinsic_started {m : Machine} (h : m.Serves x proto r) :
    (m.started r).intrinsic? .bufferPrototype = some (proto .bufferPrototype) ∧
      (m.started r).intrinsic? .rangeErrorPrototype = some (proto .rangeErrorPrototype) := by
  rcases h.untouched.realm with ⟨realm, hrealm, -, hbuffer, hrange⟩
  have hintrinsic : ∀ i, (m.started r).intrinsic? i = realm.intrinsic? i := by
    intro i
    change ((m.realms[r]?).getD {}).intrinsic? i = _
    rw [hrealm, Option.getD_some]
  rw [hintrinsic, hintrinsic]
  exact ⟨hbuffer, hrange⟩

variable {e : ScriptEngine} {f : Nat}

/-- A buffer is made for bytes. -/
theorem bufferOf_runs (hready : e.Ready r x proto) (hroom : e.CanAllocate bytes.size)
    (token : Option UInt64) :
    ∃ m', runValue r (bufferOf bytes token) e =
        (.object e.machine.heap.size, { e with machine := m' }) ∧
      m'.Stores x proto r e.machine.heap.size e.machine.regions.size bytes := by
  have hroom' : (e.machine.started r).HasRoom bytes.size := hroom.2
  rcases Eval.bufferOf_eq (I := Eval.interp Builtin.supply depthLimit) token hroom'
    (intrinsic_started hready.serves).1 with ⟨m', hrun, hheap, hregions, hrealms, hlimits⟩
  have hspares : Machine.Spares (fun _ => True) e.machine m' := by
    refine .of_grows ?_ (fun id hid => ?_) hrealms hlimits
    · rw [hheap]
      simp [Machine.started]
    · rw [Machine.obj, hheap, Machine.obj, Machine.started, Array.getElem?_push_lt hid,
        Array.getElem?_eq_getElem hid]
  refine ⟨m', runValue_ok hrun, ⟨hready.serves.spared hspares fun _ _ => trivial, ?_⟩⟩
  exact Machine.hasBuffer_new hready.regions hheap hregions ByteArray.extract_zero_size

section Constructing

variable {m : Machine} (hm : m.Stores x proto r b g bytes) (hf : x.elements k = .object f)
include hm hf

/-- What the constructor of a kind comes to when it is given a buffer. -/
theorem elementConstructor_inside (data : Array Value) :
    Builtin.elementConstructor k ⟨.undefined, #[.object b], .object f, f, data⟩
        (Eval.interp Builtin.supply 9999) (Eval.inside (m.started r) f r) =
      if k.size ∣ bytes.size then
        .ok (.object m.heap.size) (Eval.withView (Eval.inside (m.started r) f r) k b g bytes.size
          (some (proto (.elementPrototype k))))
      else .error (.object m.heap.size)
        (Eval.raised (Eval.inside (m.started r) f r) .range (txt "invalid length")) := by
  have hspares : Machine.Spares (fun _ => True) m (Eval.inside (m.started r) f r) :=
    .of_heap rfl rfl rfl
  have hmaker : (.object f, .elementPrototype k) ∈ x.makers := by
    rw [Cache.makers, ← hf]
    exact List.mem_append_right _ (List.mem_map_of_mem (ElementKind.mem_all k))
  have hmakes := ((hm.serves.untouched.makes _ _ hmaker).spared hspares trivial).1
  rcases hm.buffer.isBuffer.body with ⟨token, hbody⟩
  exact Eval.elementConstructor_eq hmakes hbody rfl rfl

/-- A typed array is made over a buffer if whole elements fill it. -/
theorem construct_view (hsize : k.size ∣ bytes.size) :
    ∃ m', Eval.construct (.object f) #[.object b] (.object f)
        (Eval.interp Builtin.supply depthLimit) (m.started r) = .ok (.object m.heap.size) m' ∧
      m'.Views x proto r k b g m.heap.size bytes := by
  have hstarted := hm.serves.spared (Machine.started_spares m r) fun _ _ => trivial
  rcases hstarted.untouched.elements f k hf with ⟨hperforms, hconstructs, -, -⟩
  have hinside := elementConstructor_inside (x := x) hm hf
  rw [if_pos hsize] at hinside
  let made : Obj := Machine.viewObj proto k b g bytes.size
  have hview : ∀ id, (Eval.withView (Eval.inside (m.started r) f r) k b g bytes.size
      (some (proto (.elementPrototype k)))).obj id = (m.withObj made).obj id := fun _ => rfl
  refine ⟨_, Eval.construct_performs (d := 9999) hperforms hconstructs hm.serves.roomToCall hinside, ?_, ?_⟩
  · refine hm.grows (Array.size_push ..) (fun id hid => ?_) (fun b' hb' => ?_) rfl rfl rfl
    · exact (hview id).trans (Machine.obj_withObj_ne made hid)
    · have hbody : Body.typed _ = Body.buffer b' :=
        (congrArg Obj.body (Machine.obj_withObj (m := m) made)).symm.trans hb'
      cases hbody
  · exact (hview _).trans (Machine.obj_withObj made)

/-- If they do not, a range error is thrown. -/
theorem construct_rangeError (hsize : ¬k.size ∣ bytes.size) :
    ∃ m', Eval.construct (.object f) #[.object b] (.object f)
        (Eval.interp Builtin.supply depthLimit) (m.started r) = .error (.object m.heap.size) m' ∧
      m'.Stores x proto r b g bytes ∧ m'.IsRangeError proto m.heap.size := by
  have hstarted := hm.serves.spared (Machine.started_spares m r) fun _ _ => trivial
  rcases hstarted.untouched.elements f k hf with ⟨hperforms, hconstructs, -, -⟩
  have hinside := elementConstructor_inside (x := x) hm hf
  rw [if_neg hsize] at hinside
  have herror := Machine.isRangeError_raised (m := Eval.inside (m.started r) f r) (txt "invalid length")
    (intrinsic_started hm.serves).2
  refine ⟨_, Eval.construct_throws (d := 9999) hperforms hconstructs hm.serves.roomToCall
    hinside, ?_, herror.of_obj rfl⟩
  refine hm.grows (Eval.size_raised ..) (fun id hid => ?_) (fun b' hb' => ?_) rfl rfl rfl
  · exact Eval.obj_raised_ne .range (txt "invalid length") hid
  · have hbody := herror.body.symm.trans hb'
    cases hbody

end Constructing

@[simp] theorem size_zeros (n : Nat) : (Builtin.zeros n).size = n :=
  Array.size_replicate

/-- The memory for no bytes has a byte that is not shown. -/
theorem extract_zeros (n : Nat) : (Builtin.zeros (max n 1)).extract 0 n = Builtin.zeros n := by
  refine ByteArray.ext ?_
  rw [ByteArray.data_extract]
  simp [Builtin.zeros, Array.extract_replicate]

/-- A typed array of zeros is made together with its buffer. -/
theorem construct_zeros {n : Nat} (hready : e.Ready r x proto) (hf : x.elements k = .object f)
    (hroom : e.CanAllocate (n * k.size)) :
    ∃ m', Eval.construct (.object f) #[Value.ofInt n] (.object f)
        (Eval.interp Builtin.supply depthLimit) (e.machine.started r) =
          .ok (.object (e.machine.heap.size + 1)) m' ∧
      m'.Views x proto r k e.machine.heap.size e.machine.regions.size (e.machine.heap.size + 1)
        (Builtin.zeros (n * k.size)) := by
  have hsmall : n ≤ Builtin.bufferLimit := by
    have hsize : 0 < k.size := by cases k <;> decide
    exact (Nat.le_mul_of_pos_right n hsize).trans hroom.1
  have hstarted := hready.serves.spared (Machine.started_spares e.machine r) fun _ _ => trivial
  rcases hstarted.untouched.elements f k hf with ⟨hperforms, hconstructs, -, -⟩
  have hspares : Machine.Spares (fun _ => True) e.machine
      (Eval.inside (e.machine.started r) f r) := .of_heap rfl rfl rfl
  have hmaker : (.object f, .elementPrototype k) ∈ x.makers := by
    rw [Cache.makers, ← hf]
    exact List.mem_append_right _ (List.mem_map_of_mem (ElementKind.mem_all k))
  have hmakes := ((hready.serves.untouched.makes _ _ hmaker).spared hspares trivial).1
  have hroom' : (Eval.inside (e.machine.started r) f r).HasRoom (n * k.size) := hroom.2
  -- The built-in that the realm has for the constructor is what runs.
  rcases Eval.elementConstructor_length (I := Eval.interp Builtin.supply 9999)
    (Eval.toInt_ofInt hsmall) hmakes (intrinsic_started hready.serves).1 hroom.1 hroom' with
    ⟨m₁, hrun, hheap, hregions, hrealms, hlimits⟩
  rw [Eval.ofInt_natCast hsmall]
  refine ⟨_, Eval.construct_performs (d := 9999) hperforms hconstructs
    hready.serves.roomToCall hrun, ?_⟩
  refine Machine.views_new hready.serves hready.regions ?_ hregions ?_ hrealms hlimits
  · rw [size_zeros]
    exact hheap
  · rw [size_zeros]
    exact extract_zeros _

end ScriptEngine

/-! ## Making buffers and typed arrays -/

namespace ScriptEngine

variable {e : ScriptEngine} {x : Cache} {proto : Intrinsic → Nat} {r : RealmId}

/-- What is known of an engine in which nothing was made yet. -/
theorem Ready.holds (h : e.Ready r x proto) : e.Holds x.held fun m => m.Serves x proto r := by
  refine ⟨h.serves, fun id => ?_⟩
  by_cases hid : id ∈ x.objects
  · have hone : x.held.count id ≤ 1 := List.nodup_iff_count_le_one.1 (List.nodup_dedup _) id
    exact hone.trans (h.held id hid)
  · have hnone : x.held.count id = 0 :=
      List.count_eq_zero_of_not_mem fun hmem => hid (List.mem_dedup.1 hmem)
    omega

/-- It does not matter in which order the things are listed that are held. -/
theorem Holds.perm {held held' : List Nat} {I : Machine → Prop} (h : e.Holds held I)
    (hperm : held'.Perm held) : e.Holds held' I :=
  ⟨h.machine, fun id => (hperm.count_eq id).trans_le (h.held id)⟩

end ScriptEngine

namespace Host

open ScriptEngine (Lasting Holds Ready CanAllocate)
open Machine (Stores Views)

variable {X : Contexts} {c : ContextId} {r : RealmId} {x : Cache} {proto : Intrinsic → Nat}
  {k : ElementKind} {bytes : ByteArray} {b f g t : Nat}

/-- The host has a new buffer with some bytes, and what its context looked up. -/
def HasNewBuffer (x : Cache) (proto : Intrinsic → Nat) (r : RealmId) (c : ContextId)
    (bytes : ByteArray) (h : Handle) (e : ScriptEngine) : Prop :=
  ∃ b g, h = ⟨c, .object b⟩ ∧ Holds e (b :: x.held) fun m => m.Stores x proto r b g bytes

/-- The host has a new typed array over such a buffer besides. -/
def HasNewView (x : Cache) (proto : Intrinsic → Nat) (r : RealmId) (c : ContextId)
    (k : ElementKind) (bytes : ByteArray) (held : List Nat) (h : Handle) (e : ScriptEngine) : Prop :=
  ∃ b g t, h = ⟨c, .object t⟩ ∧ Holds e (t :: held) fun m => m.Views x proto r k b g t bytes

variable (hr : (X.entry c).realm = some r)

omit hr in
theorem objects_subset_held (id : Nat) : id ∈ x.objects → id ∈ b :: x.held :=
  fun hid => List.mem_cons_of_mem b (List.mem_dedup.2 hid)

include hr

theorem newArrayBuffer_yields :
    Yields X (fun e => e.Ready r x proto ∧ e.CanAllocate bytes.size)
      (newArrayBuffer c bytes : Action ScriptEngine Handle) (HasNewBuffer x proto r c bytes) := by
  have hasked : Yields X (fun e => e.Ready r x proto ∧ e.CanAllocate bytes.size)
      (Host.ask (.copyBuffer r bytes)) fun v e => ∃ b, v = .object b ∧
        HasNewBuffer x proto r c bytes ⟨c, .object b⟩ e := by
    refine Yields.ask fun e he => ?_
    rcases ScriptEngine.bufferOf_runs he.1 he.2 none with ⟨m', hrun, hstores⟩
    rcases he.1.holds.answer_gives (q := .copyBuffer r bytes)
      (ScriptEngine.stores_lasting objects_subset_held List.mem_cons_self) ⟨nofun, nofun⟩ hrun hstores rfl rfl
      with ⟨hreply, hholds⟩
    exact ⟨_, hreply, _, _, rfl, hholds⟩
  unfold newArrayBuffer
  refine Yields.live_bind hr (hasked.bind fun v s hX hs => ?_)
  rcases hs with ⟨b, rfl, hs⟩
  exact ⟨_, s, rfl, hX, hs⟩

theorem newSharedBuffer_yields :
    Yields X (fun e => e.Ready r x proto ∧ e.CanAllocate bytes.size)
      (newSharedBuffer c bytes : Action ScriptEngine Handle) (HasNewBuffer x proto r c bytes) := by
  -- No bytes are not lent but copied.
  by_cases hb : bytes.size = 0
  · have hempty : newSharedBuffer c bytes = (newArrayBuffer c bytes : Action ScriptEngine Handle) := by
      rw [newSharedBuffer, hb]
      rfl
    rw [hempty]
    exact newArrayBuffer_yields hr
  intro s hX hs
  rcases Accounting.newSharedBuffer_live (h := s) (by rw [hX]; exact hr) hb with
    ⟨s', hrun, hcontexts, hengine, -⟩
  rcases ScriptEngine.bufferOf_runs hs.1 hs.2 (some s.pins.next) with ⟨m', hmade, hstores⟩
  rcases hs.1.holds.answer_gives (q := Accounting.lendRequest r bytes s.pins)
    (ScriptEngine.stores_lasting objects_subset_held List.mem_cons_self)
    ⟨by rintro ⟨⟩, by rintro ⟨⟩⟩ hmade hstores rfl rfl with ⟨hreply, hholds⟩
  have hreply' : Accounting.lendReply r bytes s.pins s.engine =
      .object s.engine.machine.heap.size := hreply
  rw [← hengine] at hholds
  refine ⟨⟨c, .object s.engine.machine.heap.size⟩, s', ?_, hcontexts.trans hX, _, _, rfl, hholds⟩
  rw [hrun, hreply']
  rfl

omit hr in
/-- The constructor of a kind is there if the context looked it up. -/
theorem arrayConstructor_yields {P : ScriptEngine → Prop} (hx : (X.entry c).cache = x)
    (hf : x.elements k = .object f) :
    Yields X P (arrayConstructor c k) fun h e => h = ⟨c, .object f⟩ ∧ P e := by
  have hobject : (Value.object f).isObject = true := rfl
  unfold arrayConstructor
  refine Yields.context_bind ?_
  rw [hx]
  dsimp only
  rw [hf, if_pos hobject]
  exact Yields.pure fun _ he => ⟨rfl, he⟩

variable (hx : (X.entry c).cache = x) (hf : x.elements k = .object f)
include hx hf

theorem newTypedArrayOver_yields (hsize : k.size ∣ bytes.size) :
    Yields X (fun e => Holds e (b :: x.held) fun m => m.Stores x proto r b g bytes)
      (newTypedArrayOver c k ⟨c, .object b⟩)
      (HasNewView x proto r c k bytes (b :: x.held)) := by
  -- The engine is asked for the array, with the buffer held meanwhile.
  have hasked : Yields X (fun e => Holds e (b :: x.held) fun m => m.Stores x proto r b g bytes)
      (Host.ask (.construct r (.object f) [.object b])) fun v e => ∃ t, v = .object t ∧
        HasNewView x proto r c k bytes (b :: x.held) ⟨c, .object t⟩ e := by
    refine Yields.ask fun e he => ?_
    rcases ScriptEngine.construct_view he.machine hf hsize with ⟨m', hrun, hviews⟩
    have hcore : ScriptEngine.core (.construct r (.object f) [.object b]) e =
        (.object e.machine.heap.size, { e with machine := m' }) := ScriptEngine.runValue_ok hrun
    have hlasting : Lasting (e.machine.heap.size :: b :: x.held) fun m =>
        m.Views x proto r k b g e.machine.heap.size bytes :=
      ScriptEngine.views_lasting (fun id hid => List.mem_cons_of_mem _ (objects_subset_held id hid))
        List.mem_cons_self hsize
    rcases he.answer_gives (q := .construct r (.object f) [.object b]) hlasting ⟨nofun, nofun⟩ hcore
      hviews rfl rfl with ⟨hreply, hholds⟩
    exact ⟨_, hreply, _, _, _, rfl, hholds⟩
  unfold newTypedArrayOver
  refine (arrayConstructor_yields hx hf).bind fun h s hX hs => ?_
  rcases hs with ⟨rfl, hs⟩
  unfold construct
  refine (Yields.live_bind hr (hasked.bind fun v s hX hs => ?_)) s hX hs
  rcases hs with ⟨t, rfl, hs⟩
  exact ⟨_, s, rfl, hX, hs⟩

theorem newTypedArrayOver_fails (hsize : ¬k.size ∣ bytes.size) :
    Fails X (fun e => Holds e (b :: x.held) fun m => m.Stores x proto r b g bytes)
      (newTypedArrayOver c k ⟨c, .object b⟩)
      fun stop => ∃ d, stop = .failed (.exception d) ∧ d.name = "RangeError" := by
  -- The error is pending when the engine has answered.
  let known (d : Nat) (m : Machine) : Prop := m.Serves x proto r ∧ m.IsRangeError proto d
  have hlasting : ∀ d, Lasting (d :: x.held) (known d) := fun d =>
    (ScriptEngine.serves_lasting fun id => objects_subset_held id).and
      (ScriptEngine.rangeError_lasting List.mem_cons_self)
  have hasked : Yields X (fun e => Holds e (b :: x.held) fun m => m.Stores x proto r b g bytes)
      (Host.ask (.construct r (.object f) [.object b])) fun v e => v = .exception ∧
        ∃ d, Holds e x.held (known d) ∧ e.pending = some (.object d) := by
    refine Yields.ask fun e he => ?_
    rcases ScriptEngine.construct_rangeError he.machine hf hsize with ⟨m', hrun, hstores, herror⟩
    let thrown : ScriptEngine :=
      { e with machine := m', pending := some (.object e.machine.heap.size) }
    have hcore : ScriptEngine.core (.construct r (.object f) [.object b]) e =
        (.exception, thrown) := ScriptEngine.runValue_error hrun
    have hlasting' : Lasting (x.held ++ thrown.thrownObjects) (known e.machine.heap.size) :=
      (hlasting _).mono fun id hid => (List.perm_append_singleton _ _).mem_iff.2 hid
    have hcount : ∀ id, x.held.count id ≤ e.ledger.count (.value (.object id)) -
        (Request.construct r (.object f) [.object b]).taken.count (.value (.object id)) +
        ((Request.construct r (.object f) [.object b]).given .exception).count
          (.value (.object id)) := by
      intro id
      have htaken : (Request.construct r (.object f) [.object b]).taken = [] := rfl
      have hle := he.held id
      rw [List.count_cons] at hle
      rw [htaken, List.count_nil]
      omega
    rcases ScriptEngine.answer_holds (q := .construct r (.object f) [.object b]) ⟨nofun, nofun⟩
      hcore rfl ⟨hstores.serves, herror⟩ hlasting' hcount with ⟨hreply, hholds, hpending⟩
    exact ⟨hreply, _, hholds, hpending⟩
  unfold newTypedArrayOver
  refine Fails.bind (arrayConstructor_yields hx hf) fun h s hX hs => ?_
  rcases hs with ⟨rfl, hs⟩
  unfold construct
  refine (Fails.live_bind hr (Fails.bind hasked fun v s hX hs => ?_)) s hX hs
  rcases hs with ⟨rfl, d, hholds, hpending⟩
  exact throwPending_rangeError hr (hlasting d) (fun _ => id) s hX ⟨hholds, hpending⟩

theorem newTypedArrayOf_yields (hsize : k.size ∣ bytes.size) :
    Yields X (fun e => e.Ready r x proto ∧ e.CanAllocate bytes.size) (newTypedArrayOf c k bytes)
      (HasNewView x proto r c k bytes x.held) := by
  unfold newTypedArrayOf
  refine (newArrayBuffer_yields hr).bind fun h s hX hs => ?_
  rcases hs with ⟨b, g, rfl, hs⟩
  have hheld : Yields X (fun e => Holds e (b :: x.held) fun m => m.Stores x proto r b g bytes)
      (holding ⟨c, .object b⟩ (newTypedArrayOver c k)) (HasNewView x proto r c k bytes x.held) := by
    refine Yields.ensuring (newTypedArrayOver_yields hr hx hf hsize) fun h s hX hs => ?_
    rcases hs with ⟨b', g', t, rfl, hs⟩
    have hlasting : Lasting (t :: x.held) fun m => m.Views x proto r k b' g' t bytes :=
      ScriptEngine.views_lasting objects_subset_held List.mem_cons_self hsize
    rcases drop_yields hr hlasting s hX (hs.perm (List.Perm.swap t b x.held)) with
      ⟨u, s', hrun, hX', hs'⟩
    exact ⟨u, s', hrun, hX', b', g', t, rfl, hs'⟩
  exact hheld s hX hs

theorem newTypedArrayOf_fails (hsize : ¬k.size ∣ bytes.size) :
    Fails X (fun e : ScriptEngine => e.Ready r x proto ∧ e.CanAllocate bytes.size) (newTypedArrayOf c k bytes)
      fun stop => ∃ d, stop = .failed (.exception d) ∧ d.name = "RangeError" := by
  unfold newTypedArrayOf
  refine Fails.bind (newArrayBuffer_yields hr) fun h s hX hs => ?_
  rcases hs with ⟨b, g, rfl, hs⟩
  exact Fails.holding hr rfl (newTypedArrayOver_fails hr hx hf hsize) s hX hs

/-- A typed array of zeros is made with its buffer at once. -/
theorem newTypedArray_yields (n : UInt32) :
    Yields X (fun e => e.Ready r x proto ∧ e.CanAllocate (n.toNat * k.size)) (newTypedArray c k n)
      (HasNewView x proto r c k (Builtin.zeros (n.toNat * k.size)) x.held) := by
  -- The engine is asked for the array, then the length is handed over as a number.
  have hasked : Yields X (fun e => e.Ready r x proto ∧ e.CanAllocate (n.toNat * k.size))
      (Host.ask (.construct r (.object f) [Value.ofInt n.toNat])) fun v e => ∃ t, v = .object t ∧
        HasNewView x proto r c k (Builtin.zeros (n.toNat * k.size)) x.held ⟨c, .object t⟩ e := by
    refine Yields.ask fun e he => ?_
    rcases ScriptEngine.construct_zeros he.1 hf he.2 with ⟨m', hrun, hviews⟩
    have hcore : ScriptEngine.core (.construct r (.object f) [Value.ofInt n.toNat]) e =
        (.object (e.machine.heap.size + 1), { e with machine := m' }) :=
      ScriptEngine.runValue_ok hrun
    have hsize : k.size ∣ (Builtin.zeros (n.toNat * k.size)).size := by
      rw [ScriptEngine.size_zeros]
      exact Nat.dvd_mul_left ..
    have hlasting : Lasting ((e.machine.heap.size + 1) :: x.held) fun m =>
        m.Views x proto r k e.machine.heap.size e.machine.regions.size (e.machine.heap.size + 1)
          (Builtin.zeros (n.toNat * k.size)) :=
      ScriptEngine.views_lasting objects_subset_held List.mem_cons_self hsize
    rcases he.1.holds.answer_gives (q := .construct r (.object f) [Value.ofInt n.toNat]) hlasting
      ⟨nofun, nofun⟩ hcore hviews rfl rfl with ⟨hreply, hholds⟩
    exact ⟨_, hreply, _, _, _, rfl, hholds⟩
  have hnumber : Yields X (fun e : ScriptEngine => e.Ready r x proto ∧ e.CanAllocate (n.toNat * k.size))
      (newUInt32 c n) fun h e => h = ⟨c, Value.ofInt n.toNat⟩ ∧
        e.Ready r x proto ∧ e.CanAllocate (n.toNat * k.size) := by
    intro s hX hs
    have hlive : live c s = (.ok r, s) := Accounting.live_ok (by rw [hX]; exact hr)
    have hrun : newUInt32 c n s = (.ok ⟨c, Value.ofInt n.toNat⟩, s) := by
      unfold newUInt32
      rw [Accounting.bind_ok hlive]
      rfl
    exact ⟨_, s, hrun, hX, rfl, hs⟩
  have hmade : Yields X (fun e => e.Ready r x proto ∧ e.CanAllocate (n.toNat * k.size))
      (construct ⟨c, .object f⟩ [⟨c, Value.ofInt n.toNat⟩])
      (HasNewView x proto r c k (Builtin.zeros (n.toNat * k.size)) x.held) := by
    have hpassed : ∀ v, (marshal [⟨c, v⟩]).passed = [v] := fun _ => rfl
    unfold construct
    rw [hpassed]
    refine Yields.live_bind hr (hasked.bind fun v s hX hs => ?_)
    rcases hs with ⟨t, rfl, hs⟩
    exact ⟨_, s, rfl, hX, hs⟩
  unfold newTypedArray
  refine (arrayConstructor_yields hx hf).bind fun h s hX hs => ?_
  rcases hs with ⟨rfl, hs⟩
  refine (hnumber.bind fun a s hX hs => ?_) s hX hs
  rcases hs with ⟨rfl, hs⟩
  exact hmade s hX hs

/-! ## What is seen of them -/

/-- A typed array tells how many elements there are. -/
theorem viewLength_tells {held : List Nat} {I : Machine → Prop} (hlasting : Lasting held I)
    (hI : ∀ m, I m → m.Views x proto r k b g t bytes) (hsize : k.size ∣ bytes.size)
    (hlimit : bytes.size ≤ Builtin.bufferLimit) :
    Tells X held I (length ⟨c, .object t⟩) (bytes.size / k.size) := by
  have hk : (x.elements k).isObject = true := by rw [hf]; rfl
  have hcount : bytes.size / k.size ≤ Builtin.bufferLimit := (Nat.div_le_self _ _).trans hlimit
  refine length_tells hr hlasting (Eval.toInt_ofInt hcount)
    (sizeKey_tells hr hlasting hx hk fun m hm => ⟨(hI m hm).serves,
      (hI m hm).view.knows (hI m hm).serves hf⟩) (getKey_tells Builtin.elementCount hr hlasting fun m hm => ?_)
  have hviews := hI m hm
  rcases hviews.serves.untouched.elements f k hf with ⟨-, -, hkey, hfurnishes⟩
  have hobj : m.obj t = Machine.viewObj proto k b g bytes.size := hviews.view
  have hbody : m.body t = .typed _ := congrArg Obj.body hobj
  have hproxy := (hviews.view.knows hviews.serves hf).no_proxy
  -- An accessor of a prototype tells the length, for the array has no such property itself.
  have hown : m.own? t x.length = none := by
    have hnone : ∀ k', ({} : PropertyTable).get? k' = none := PropertyTable.lists_empty.get_eq
    unfold Machine.own?
    rw [hkey, hobj]
    exact if_neg (by decide) |>.trans (hnone _)
  have hstops : m.stopsAt t x.length = false := by
    have hname : isNumericName (txt "length") = false := by decide
    unfold Machine.stopsAt
    rw [hkey, hbody]
    exact hname
  rcases hfurnishes.find (by rw [hobj]; rfl) hproxy hown hstops with ⟨j, pr, p, s, hfind, hcontent, hp⟩
  refine ⟨hviews.serves.roomToCall, j, pr, p, s, hfind, hcontent, hp, fun J data => ?_⟩
  have hinside : (Eval.inside m p r).IsBuffer b g bytes.size :=
    hviews.buffer.isBuffer.of_heap rfl
  have hcounted := Eval.elementCount_eq (I := J) data (f := p) hinside
    ((hviews.view.isView hsize).of_heap rfl)
  have hnumber : Value.ofNat (bytes.size / k.size) =
      .int (Int32.ofInt (bytes.size / k.size : Nat)) := Eval.ofInt_natCast hcount
  rw [hcounted, hnumber]

omit hf in
/-- A buffer tells how many bytes there are. -/
theorem sizedLength_tells {held : List Nat} {I : Machine → Prop} {n : Nat} (hlasting : Lasting held I)
    (hI : ∀ m, I m → m.Serves x proto r ∧ m.IsSized x proto b n) (hbuffer : x.buffer.isObject = true)
    (hlimit : n ≤ Builtin.bufferLimit) : Tells X held I (length ⟨c, .object b⟩) n := by
  refine length_tells hr hlasting (Eval.toInt_ofInt hlimit)
    (bufferSizeKey_tells hr hlasting hx (fun m hm => ⟨(hI m hm).1, (hI m hm).2.knows (hI m hm).1⟩)
      hbuffer)
    (getKey_tells (Builtin.byteLength false) hr hlasting fun m hm => ?_)
  rcases hI m hm with ⟨hserves, hsized⟩
  rcases hserves.untouched.buffers with ⟨-, -, hfurnishes⟩
  rcases hsized.body with ⟨buffer, hbody, hshared, rfl⟩
  have hplain : m.IsPlain b := by
    refine ⟨Machine.lt_of_body (by simp [hbody]), ?_⟩
    rw [hbody]
    rfl
  -- An accessor of a prototype tells the size, for the buffer has no such property itself.
  have hown : m.own? b x.byteLength = none := by
    rw [hplain.own_eq]
    exact hsized.own
  rcases hfurnishes.find hsized.proto hplain.not_proxy hown (hplain.stopsAt_eq _) with
    ⟨j, pr, p, s, hfind, hcontent, hp⟩
  refine ⟨hserves.roomToCall, j, pr, p, s, hfind, hcontent, hp, fun J data => ?_⟩
  have hinside : (Eval.inside m p r).body b = .buffer buffer := hbody
  have hnumber : Value.ofNat buffer.length = .int (Int32.ofInt buffer.length) :=
    Eval.ofInt_natCast hlimit
  rw [Eval.byteLength_eq data hinside hshared, hnumber]

/-- Whatever the host asks of a new typed array, it is told of the bytes that it was made from. -/
theorem shows_of_holds {held : List Nat} {s : Host ScriptEngine} (hX : s.contexts = X)
    (hheld : ∀ id ∈ x.objects, id ∈ held) (hsize : k.size ∣ bytes.size)
    (hlimit : bytes.size ≤ Builtin.bufferLimit)
    (hs : Holds s.engine (t :: held) fun m => m.Views x proto r k b g t bytes) :
    s.Shows ⟨c, .object t⟩ k bytes := by
  let I (m : Machine) : Prop := m.Views x proto r k b g t bytes
  have hk : (x.elements k).isObject = true := by rw [hf]; rfl
  have hlasting : Lasting (t :: held) I :=
    ScriptEngine.views_lasting (fun id hid => List.mem_cons_of_mem t (hheld id hid))
      List.mem_cons_self hsize
  -- What each question needs is part of what is known of the machine.
  have htyped : ∀ m, I m → m.Serves x proto r ∧ m.Knows x proto (.elementPrototype k) t ∧
      m.IsBuffer b g bytes.size ∧ m.IsView b g bytes.size _ t := fun m hm =>
    ⟨hm.serves, hm.view.knows hm.serves hf, hm.buffer.isBuffer, hm.view.isView hsize⟩
  have hknown : ∀ m, I m → m.Serves x proto r ∧ m.Knows x proto (.elementPrototype k) t :=
    fun m hm => ⟨(htyped m hm).1, (htyped m hm).2.1⟩
  have hbuffer : ∀ m, I m → m.Serves x proto r ∧ m.Knows x proto .bufferPrototype b ∧
      m.IsBuffer b g bytes.size := fun m hm =>
    ⟨hm.serves, hm.buffer.knows hm.serves, hm.buffer.isBuffer⟩
  have hknownBuffer : ∀ m, I m → m.Serves x proto r ∧ m.Knows x proto .bufferPrototype b :=
    fun m hm => ⟨(hbuffer m hm).1, (hbuffer m hm).2.1⟩
  have hbytes : ∀ m, I m → (m.region g).extract 0 bytes.size = bytes := fun m hm => hm.buffer.bytes
  constructor
  case isKind => exact fun j => (isKind_tells hr hlasting hx hk hknown j).fst hX hs
  case kind => exact (kindOf_tells hr hlasting hx hk hknown).fst hX hs
  case contents =>
    refine (typedBytes_tells hr hlasting hx hk htyped fun m hm => ?_).fst hX hs
    rw [Nat.zero_add]
    exact hbytes m hm
  case length => exact (viewLength_tells hr hx hf hlasting (fun _ hm => hm) hsize hlimit).fst hX hs
  case info =>
    rcases arrayInfo_yields hr hlasting hx hk htyped s hX hs with ⟨_, s', hrun, hX', rfl, hs'⟩
    have hlasting' : Lasting (b :: t :: held) I := hlasting.mono fun _ => List.mem_cons_of_mem b
    have hcached : x.buffer.isObject = true := hs.machine.serves.untouched.buffers.1
    exact ⟨_, s', hrun, (isBuffer_tells hr hlasting' hx hknownBuffer hcached).fst hX' hs',
      (sizedLength_tells hr hx hlasting' (fun _ hm => ⟨hm.serves, hm.buffer.isSized⟩) hcached hlimit).fst hX' hs',
      (bufferBytes_tells hr hlasting' hx hbuffer hcached hbytes).fst hX' hs'⟩

/-- An action makes a typed array that shows some bytes, or it throws a range error, as soon as the
host and the engine do their parts. -/
theorem constructs_of {P : ScriptEngine → Prop} {held : List Nat} {s : Host ScriptEngine}
    {y : Action ScriptEngine Handle} (hX : s.contexts = X) (hP : P s.engine)
    (hheld : ∀ id ∈ x.objects, id ∈ held) (hlimit : bytes.size ≤ Builtin.bufferLimit)
    (hyields : k.size ∣ bytes.size → Yields X P y (HasNewView x proto r c k bytes held))
    (hfails : ¬k.size ∣ bytes.size → Fails X P y fun stop =>
      ∃ d, stop = .failed (.exception d) ∧ d.name = "RangeError")
    (hgains : (∀ t s', y s = (.ok t, s') → s.Gains t.refs s') ∧
      ∀ e s', y s = (.error e, s') → s.Gains [] s') : s.Constructs k bytes y := by
  unfold Constructs
  split
  next hsize =>
    rcases hyields hsize s hX hP with ⟨h, s', hrun, hX', b, g, t, rfl, hs'⟩
    exact ⟨_, s', hrun, hgains.1 _ s' hrun, shows_of_holds hr hx hf hX' hheld hsize hlimit hs'⟩
  next hsize =>
    rcases hfails hsize s hX hP with ⟨stop, s', hrun, -, d, rfl, hname⟩
    exact ⟨d, s', hrun, hname, hgains.2 _ s' hrun⟩

end Host

/-- Whether a body is that of a buffer. -/
def Body.isMemory : Body → Bool
  | .buffer _ => true
  | _ => false

namespace Host

variable {s : Host ScriptEngine} {c : ContextId} {r : RealmId} {proto : Intrinsic → Nat}
  {k : ElementKind} {bytes : ByteArray}

/-- Where the objects are from which the instances of the constructors inherit, in a small realm. -/
def smallProto : Intrinsic → Nat
  | .bufferPrototype => 1
  | .elementPrototype .uint16 => 2
  | .rangeErrorPrototype => 3
  | _ => 8

/-- A host with one context, whose realm has the constructors of buffers and of 16-bit naturals and
what these need. -/
def smallHost : Host ScriptEngine :=
  let native (family : Family) (index : Nat) : Obj := { body := .native { family, index } 0 }
  let constructor (index prototype : Nat) : Obj :=
    { body := .native { family := .constructors, index := index, constructs := true } 0
      proto := some 0
      props := { members := #[(Key.str "prototype", .hidden (.object prototype))] } }
  let getter (name : String) (f : Nat) : Obj :=
    { props := { members := #[(Key.str name, ⟨.accessor (some f) none, false, true⟩)] } }
  let names : Array (Option Nat) := Array.ofFn fun i : Fin 50 =>
    if i = Intrinsic.bufferPrototype.place then some 1
    else if i = Intrinsic.rangeErrorPrototype.place then some 3 else none
  { engine :=
    { machine :=
      { heap := #[
          { props := { members := #[(.symbol WellKnown.hasInstance, .hidden (.object 6))] } },
          getter "byteLength" 7, getter "length" 8,
          { props := { members := #[(Key.str "name", .hidden (.str "RangeError"))] } },
          constructor 27 1, constructor 34 2,
          native .functionPrototype 4, native .bufferPrototype 0, native .typedArrayPrototype 0]
        realms := #[{ intrinsics := names }] }
      ledger := [4, 5].foldl (fun l id => l.add (.value (.object id))) {} }
    contexts := (∅ : Contexts).insert 0
      { realm := some 0
        cache :=
          { buffer := .object 4
            elements := fun k => if k = .uint16 then .object 5 else .undefined
            length := Key.str "length", byteLength := Key.str "byteLength" } } }

/-- The constructors that the context looked up. -/
theorem smallHost_maker {f : Nat} {i : Intrinsic}
    (h : (.object f, i) ∈ (Contexts.entry smallHost.contexts 0).cache.makers) :
    (f = 4 ∧ i = .bufferPrototype) ∨ (f = 5 ∧ i = .elementPrototype .uint16) := by
  have hmakers : (Contexts.entry smallHost.contexts 0).cache.makers =
      [(.undefined, .arrayPrototype), (.undefined, .mapPrototype), (.undefined, .setPrototype),
        (.object 4, .bufferPrototype)] ++
      ElementKind.all.map fun k => (if k = .uint16 then .object 5 else .undefined,
        .elementPrototype k) := rfl
  rw [hmakers] at h
  simpa [ElementKind.all] using h

/-- The built-in objects of the realm are as the engine makes them. -/
theorem smallHost_untouched : smallHost.engine.machine.Untouched
    (Contexts.entry smallHost.contexts 0).cache smallProto 0 := by
  have hjudge : smallHost.engine.machine.Performs 0 Builtin.hasInstance 6 := ⟨_, _, rfl, rfl, rfl⟩
  have hplain : ∀ id < 4, smallHost.engine.machine.IsPlain id := by decide
  constructor
  case realm => exact ⟨_, rfl, rfl, by decide, by decide⟩
  case makes =>
    intro f i h
    rcases smallHost_maker h with ⟨rfl, rfl⟩ | ⟨rfl, rfl⟩ <;>
      exact ⟨by decide, ⟨_, _, rfl⟩, rfl, [0], 6, 0, ⟨rfl, hplain 0 (by decide), rfl⟩, rfl, hjudge⟩
  case distinct =>
    intro f g i j hf hg hij
    rcases smallHost_maker hf with ⟨rfl, rfl⟩ | ⟨rfl, rfl⟩ <;>
      rcases smallHost_maker hg with ⟨rfl, rfl⟩ | ⟨rfl, rfl⟩ <;> first | rfl | cases hij
  case buffers =>
    exact ⟨rfl, rfl, hplain 1 (by decide), [], rfl, by simp, 7, none, rfl, _, _, rfl, rfl, rfl⟩
  case elements =>
    intro f k h
    -- Only one kind has a constructor.
    have hk : k = .uint16 ∧ f = 5 := by
      have hfield : (if k = .uint16 then Value.object 5 else .undefined) = .object f := h
      split at hfield
      next hk => exact ⟨hk, by cases hfield; rfl⟩
      next => cases hfield
    rcases hk with ⟨rfl, rfl⟩
    exact ⟨⟨_, _, rfl, rfl, rfl⟩, rfl, rfl, hplain 2 (by decide), [], rfl, by simp, 8, none, rfl, _, _, rfl,
      rfl, rfl⟩
  case rangeErrors => exact ⟨hplain 3 (by decide), [], rfl, rfl⟩

/-- The host is ready for its context. -/
theorem smallHost_serves : smallHost.Serves 0 0 smallProto := by
  refine ⟨rfl, ⟨⟨smallHost_untouched, ?_⟩, ?_, ?_⟩, ?_⟩
  · decide
  · decide
  · intro id b g hbody
    have hspecial : smallHost.engine.machine.body id ≠ .ordinary := by simp [hbody]
    have hid : id < 9 := Machine.lt_of_body hspecial
    have hnone : ∀ id < 9, (smallHost.engine.machine.body id).isMemory = false := by decide
    have hno := hnone id hid
    rw [hbody] at hno
    cases hno
  · intro ref
    have hnone : Contexts.waiting smallHost.contexts = [] := rfl
    simp [hnone]

end Host

end ScriptHost
