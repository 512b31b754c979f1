import ScriptHost.Proofs.ArrayItems
import ScriptHost.Proofs.Coherence
/-!
# Arrays that are filled by index answer as sparse arrays do

As long as the host holds an array and the constructor of arrays, nothing of what the array is told by
goes by, and every access makes the change and gives the answer that it does with a sparse array.
-/

namespace ScriptHost

open Accounting (bind_ok live_ok ask_eq)

/-! ## What lasts -/

namespace Machine

variable {m m' : Machine} {f p id : Nat} {ps : List Nat} {r : RealmId} {a : SparseArray Storable}

/-- An array that nothing was done to in a machine that has more objects. -/
theorem FurnishesArrays.fills_new (h : m.FurnishesArrays r f p ps) (hroom : m.HasCallRoom)
    (hs : Spares (fun _ => True) m m')
    (hobj : m'.obj id = { body := .array, proto := some p, props := .ofItems {} 0 }) :
    m'.Fills f p ps id .empty := by
  have hdescends := (hs.descends trivial h.plain.1 h.plain.not_weak h.inherits).1
  refine ⟨⟨{}, hobj, fun i => ?_⟩, Nat.zero_le _, (h.makes.spared hs trivial).1,
    ⟨by rw [hobj], hs.isPlain trivial h.plain, hdescends⟩, fun j hj i => ?_, ?_⟩
  · simp [SparseArray.empty]
  · have hplain : m.IsPlain j := by
      rcases List.mem_cons.1 hj with rfl | hj
      · exact h.plain
      · exact h.inherits.mem_plain j hj
    rw [hs.obj j trivial hplain.1 hplain.not_weak]
    exact h.bare j hj i
  · unfold HasCallRoom
    rw [hs.limits]
    exact hroom

end Machine

namespace ScriptEngine

open Machine (Fills)

variable {e : ScriptEngine} {f p id : Nat} {ps held : List Nat} {r : RealmId}
  {a : SparseArray Storable}

/-- Freeing leaves alone what an array that is held is told by. -/
theorem fills_lasting (hid : id ∈ held) (hf : f ∈ held) :
    Lasting held fun m => m.Fills f p ps id a := by
  intro m m' roots hroots hm hsheds
  have hs : Machine.Spares (fun id => m.Held roots (.object id)) m m' := .of_sheds hsheds
  have hheld : ∀ id ∈ held, m.Held roots (.object id) := fun id hid =>
    .root (List.mem_append_left _ (hroots id hid))
  have hobj := hs.obj id (hheld id hid) hm.lt hm.isPlain.not_weak
  obtain ⟨hdescends, hprotos⟩ :=
    hs.descends (hheld id hid) hm.lt hm.isPlain.not_weak hm.inherits
  refine ⟨?_, hm.small, (hm.makes.spared hs (hheld f hf)).1, hdescends, fun j hj i => ?_, ?_⟩
  · rw [hobj]
    exact hm.array
  · have hplain := hm.inherits.mem_plain j hj
    rw [hs.obj j (hprotos j hj) hplain.1 hplain.not_weak]
    exact hm.bare j hj i
  · unfold Machine.HasCallRoom
    rw [hs.limits]
    exact hm.room

end ScriptEngine

/-! ## New arrays -/

namespace Eval

variable {I : Interp} {m m₁ : Machine} {n : Nat} {v : Value}

/-- Where something was reserved, properties were counted at most. -/
theorem reserve_inv (h : reserve n I m = .ok () m₁) : ∃ k, m₁ = { m with propertyBytes := k } := by
  unfold reserve at h
  rw [get_bind] at h
  -- Properties are counted only where a limit has to be kept.
  cases hlimit : m.limits.memory with
  | none =>
      rw [hlimit] at h
      cases h
      exact ⟨_, rfl⟩
  | some limit =>
      rw [hlimit] at h
      dsimp only at h
      rw [get_bind] at h
      split at h
      next =>
        obtain ⟨_, m₂, hcount, h⟩ := ok_of_bind h
        cases hcount
        rw [get_bind] at h
        split at h
        next => cases h
        next =>
          cases h
          exact ⟨_, rfl⟩
      next =>
        cases h
        exact ⟨_, rfl⟩

/-- One object more leaves the others alone. -/
theorem spares_push {o : Obj} (hheap : m₁.heap = m.heap.push o) (hrealms : m₁.realms = m.realms)
    (hlimits : m₁.limits = m.limits) :
    Machine.Spares (fun _ => True) m m₁ ∧ m₁.obj m.heap.size = o := by
  have hobj : ∀ j, m₁.obj j = (m.withObj o).obj j := by
    intro j
    rw [Machine.obj, hheap]
    rfl
  refine ⟨.of_grows (by simp [hheap]) (fun j hj => ?_) hrealms hlimits, ?_⟩
  · rw [hobj, Machine.obj_withObj_ne o (Nat.ne_of_lt hj)]
  · rw [hobj, Machine.obj_withObj]

/-- A new array is one object more, with the prototype that arrays of the realm have. -/
theorem array_of_newArray (h : (do
      reserve 64
      newArray #[]) I m = .ok v m₁) :
    v = .object m.heap.size ∧ Machine.Spares (fun _ => True) m m₁ ∧
      m₁.obj m.heap.size =
        { body := .array, proto := m.intrinsic? .arrayPrototype, props := .ofItems {} 0 } := by
  obtain ⟨_, m₂, hreserve, h⟩ := ok_of_bind h
  obtain ⟨k, rfl⟩ := reserve_inv hreserve
  cases h
  exact ⟨rfl, spares_push rfl rfl rfl⟩

end Eval

namespace ScriptEngine

variable {e : ScriptEngine} {f p id : Nat} {ps : List Nat} {r : RealmId}

/-- A new array is held and has no items. -/
theorem newArray_holds (harrays : e.machine.FurnishesArrays r f p ps)
    (hroom : e.machine.HasCallRoom) (hheld : 0 < e.ledger.count (.value (.object f)))
    (hreply : (Engine.answer (.newArray r) e).reply = Value.object id) :
    (Engine.answer (.newArray r) e).state.Holds [id, f] fun m => m.Fills f p ps id .empty := by
  obtain ⟨m', hcomp, hcore⟩ := runValue_inv (r := r) (e := e) (x := do
    Eval.reserve 64
    Eval.newArray #[]) hreply nofun
  obtain ⟨hid, hspares, hobj⟩ := Eval.array_of_newArray hcomp
  obtain ⟨realm, hrealm, hproto⟩ := harrays.realm
  -- The array gets the prototype that the realm has for arrays.
  have hintrinsic : (e.machine.started r).intrinsic? .arrayPrototype = some p := by
    have hcurrent : (e.machine.started r).currentRealm = realm := by
      change (e.machine.realms[r]?).getD {} = realm
      rw [hrealm]
      rfl
    rw [Machine.intrinsic?, hcurrent, hproto]
  cases hid
  have hspares' : Machine.Spares (fun _ => True) e.machine m' :=
    ⟨hspares.size, hspares.obj, hspares.realms, hspares.limits, hspares.proto, hspares.property,
      hspares.intrinsic⟩
  have hfills : m'.Fills f p ps e.machine.heap.size .empty :=
    harrays.fills_new hroom hspares' (hobj.trans (by rw [← hintrinsic]; rfl))
  have hholds : e.Holds [f] fun _ => True := by
    refine ⟨trivial, fun j => ?_⟩
    rw [List.count_singleton]
    split
    next hj => rwa [← eq_of_beq hj]
    next => exact Nat.zero_le _
  exact (hholds.answer_gives (q := .newArray r) (fills_lasting (by simp) (by simp))
    ⟨nofun, nofun⟩ hcore hfills rfl rfl).2

end ScriptEngine

/-! ## Texts of keys -/

namespace Host

open Client (ItemAccess)
open ScriptEngine (Lasting Holds fills_lasting run_reads objectOf_bind)

variable {X : Contexts} {c : ContextId} {r : RealmId} {held : List Nat} {I J : Machine → Prop}
  {α β : Type} {y : α}

theorem Tells.mapM {f : α → Action ScriptEngine β} {g : α → β} {l : List α}
    (hf : ∀ x ∈ l, Tells X held I (f x) (g x)) : Tells X held I (l.mapM f) (l.map g) := by
  induction l with
  | nil => exact Tells.pure
  | cons x l ih =>
      rw [List.mapM_cons]
      have hrest := ih fun x hx => hf x (List.mem_cons_of_mem _ hx)
      exact (hf x List.mem_cons_self).bind (hrest.bind Tells.pure)

theorem Tells.ensuring {x : Action ScriptEngine α} {last : Action ScriptEngine Unit}
    (hx : Yields X (fun e => Holds e held J) x fun z e => z = y ∧ Holds e held I)
    (hlast : Tells X held I last ()) :
    Yields X (fun e => Holds e held J) (Host.ensuring x last) fun z e => z = y ∧ Holds e held I := by
  refine Yields.ensuring hx fun z s hX hs => ?_
  obtain ⟨u, s', hrun, hX', -, hs'⟩ := hlast s hX hs.2
  exact ⟨u, s', hrun, hX', hs.1, hs'⟩

section Keys

variable (hr : (X.entry c).realm = some r) (hlasting : Lasting held I)
include hr hlasting

theorem dropKeys_tells (ks : List Key) :
    Tells X held I (Host.dropKeys (ks.map (⟨c, ·⟩ : Key → KeyHandle))) () := by
  induction ks with
  | nil => exact Tells.pure
  | cons k ks ih => exact (dropKey_tells (k := ⟨c, k⟩) hr hlasting).bind ih

theorem dropText_tells (t : Text) : Tells X held I (Host.drop ⟨c, .string t⟩) () := by
  have hasked : Tells X held I (Host.ask (.release r [.value (.string t)])) () := by
    refine Yields.ask fun e he => ?_
    refine he.answer_looks (q := .release r [.value (.string t)]) hlasting ⟨nofun, nofun⟩ rfl
      he.machine fun id => ?_
    have htaken : (Request.release r [.value (.string t)]).taken = [.value (.string t)] := rfl
    rw [htaken]
    simp
  exact Yields.live_bind hr hasked

/-- A string is read as the host shows it. -/
theorem toText_tells (t : Text) : Tells X held I (Host.toText ⟨c, .string t⟩) t.toHostString := by
  have hanswer : Tells X held I (Host.ask (.toText r (.string t))) (some t.toHostString) :=
    ask_tells hlasting ⟨nofun, nofun⟩ rfl fun e he =>
      ⟨e.machine.started r, run_reads (y := do pure (← Eval.toText (.string t)).toHostString) rfl,
        hlasting.started he⟩
  exact Yields.live_bind hr (hanswer.bind Yields.orThrow)

/-- The text of the key for an index is its decimals. -/
theorem keyText_tells (i : Nat) :
    Tells X held I (Host.keyText ⟨c, .index i⟩) (Key.natText i).toHostString := by
  have hasked : Tells X held I (Host.ask (.textOfKey r (.index i))) (.string (Key.natText i)) :=
    ask_tells hlasting ⟨nofun, nofun⟩ rfl fun e he => ⟨e.machine, rfl, he⟩
  have hchecked : Tells X held I (Host.check c (.string (Key.natText i)))
      ⟨c, .string (Key.natText i)⟩ := Yields.check nofun
  unfold Host.keyText
  refine Yields.live_bind hr (hasked.bind (hchecked.bind ?_))
  exact Tells.ensuring (toText_tells hr hlasting _) (dropText_tells hr hlasting _)

end Keys

/-! ## Accesses by index -/

section Items

variable {f p id i : Nat} {ps : List Nat} {a a' : SparseArray Storable}

/-- An action on an array gives a result and leaves the items of a sparse array. -/
def Turns (X : Contexts) (f p : Nat) (ps : List Nat) (id : Nat) (a : SparseArray Storable)
    (x : Action ScriptEngine α) (y : α) (a' : SparseArray Storable) : Prop :=
  Yields X (fun e => Holds e [id, f] fun m => m.Fills f p ps id a) x
    fun z e => z = y ∧ Holds e [id, f] fun m => m.Fills f p ps id a'

theorem Turns.bind {b : SparseArray Storable} {x : Action ScriptEngine α}
    {g : α → Action ScriptEngine β} {z : β} (hx : Turns X f p ps id a x y b)
    (hg : Turns X f p ps id b (g y) z a') : Turns X f p ps id a (x >>= g) z a' := by
  refine Yields.bind hx fun y' => ?_
  intro s hX hs
  obtain ⟨rfl, hs⟩ := hs
  exact hg s hX hs

/-- What an array that the host holds is told by lasts. -/
theorem array_lasting : Lasting [id, f] fun m => m.Fills f p ps id a :=
  fills_lasting (by simp) (by simp)

/-- A request that takes nothing and changes the array. -/
theorem ask_turns {q : Request} {z : q.Reply} (hq : q ≠ .collect ∧ q ≠ .shutDown)
    (htaken : q.taken = []) (hcore : ∀ e : ScriptEngine, e.machine.Fills f p ps id a →
      ∃ m', ScriptEngine.core q e = (z, { e with machine := m' }) ∧ m'.Fills f p ps id a') :
    Turns X f p ps id a (Host.ask q) z a' := by
  refine Yields.ask fun e he => ?_
  obtain ⟨m', hcore, hm'⟩ := hcore e he.machine
  exact he.answer_looks array_lasting hq hcore hm' fun j => by simp [htaken]

/-- A request that is answered by a computation on the array. -/
theorem core_of_eval {x : Nat → Eval β} {y : β} {e : ScriptEngine}
    (hx : ∀ m : Machine, m.Fills f p ps id a →
      ∃ m', x id (Eval.interp Builtin.supply ScriptEngine.depthLimit) m = .ok y m' ∧
        m'.Fills f p ps id a') (he : e.machine.Fills f p ps id a) :
    ∃ m', ScriptEngine.run r (do x (← ScriptEngine.objectOf (.object id))) e =
      (some y, { e with machine := m' }) ∧ m'.Fills f p ps id a' := by
  obtain ⟨m', hrun, hm'⟩ := hx _ (array_lasting.started (r := r) he)
  refine ⟨m', ScriptEngine.run_eq ?_, hm'⟩
  rw [objectOf_bind]
  exact hrun

variable (hr : (X.entry c).realm = some r)
include hr

theorem withKey_turns (hi : (i : Int) ≤ maxIndex) {x : Key → Action ScriptEngine α}
    (hx : Turns X f p ps id a (x (.index i)) y a') :
    Turns X f p ps id a (Host.withKey ⟨c, .object id⟩ (.index i) x) y a' := by
  have hkey : Tells X [id, f] (fun m => m.Fills f p ps id a)
      (Host.indexKey ⟨c, .object id⟩ i) ⟨c, .index i⟩ := indexKey_tells hr array_lasting hi
  exact hkey.bind (Tells.ensuring hx (dropKey_tells (k := ⟨c, .index i⟩) hr array_lasting))

theorem get_turns (hi : (i : Int) ≤ maxIndex) : Turns X f p ps id a
    (Host.get ⟨c, .object id⟩ (.index i)) ⟨c, (a.items[i]?).elim .undefined (·.1)⟩ a := by
  have hasked : Turns X f p ps id a (Host.ask (.get r (.object id) (.index i)))
      ((a.items[i]?).elim .undefined (·.1)) a := by
    refine ask_turns ⟨nofun, nofun⟩ rfl fun e he => ?_
    have hstarted := array_lasting.started (r := r) he
    exact ⟨_, ScriptEngine.runValue_ok (Eval.getOf_item hstarted i), hstarted⟩
  have hvalue : (a.items[i]?).elim .undefined (·.1) ≠ Value.exception := by
    cases a.items[i]? with
    | none => exact nofun
    | some v => exact v.2.1
  exact withKey_turns hr hi (Yields.live_bind hr (Turns.bind hasked (Yields.check hvalue)))

theorem has_turns (hi : (i : Int) ≤ maxIndex) : Turns X f p ps id a
    (Host.has ⟨c, .object id⟩ (.index i)) (a.items[i]?).isSome a := by
  have hasked : Turns X f p ps id a (Host.ask (.has r (.object id) (.index i)))
      (some (a.items[i]?).isSome) a := by
    refine ask_turns ⟨nofun, nofun⟩ rfl fun e he => ?_
    exact core_of_eval (x := (Eval.hasProperty · (.index i)))
      (fun m hm => ⟨m, Eval.hasProperty_item hm i, hm⟩) he
  exact withKey_turns hr hi (Yields.live_bind hr (Turns.bind hasked (Yields.orViolation "has_atom")))

/-- The engine is told to delete only what the array has. -/
theorem delete_turns (hi : (i : Int) ≤ maxIndex) : Turns X f p ps id a
    (Host.delete ⟨c, .object id⟩ (.index i)) (a.items[i]?).isSome (a.erase i) := by
  have hasked : Turns X f p ps id a (Host.ask (.hasOwn r (.object id) (.index i)))
      (some (a.items[i]?).isSome) a := by
    refine ask_turns ⟨nofun, nofun⟩ rfl fun e he => ?_
    exact core_of_eval (x := (Eval.hasOwn · (.index i)))
      (fun m hm => ⟨m, Eval.hasOwn_item hm i, hm⟩) he
  refine withKey_turns hr hi (Yields.live_bind hr (Turns.bind hasked
    (Turns.bind (Yields.orViolation "delete_atom") ?_)))
  cases hv : a.items[i]? with
  | none => exact Yields.pure fun e he => ⟨rfl, { he with machine := he.machine.erase_none hv }⟩
  | some v =>
      have hdeleted : Turns X f p ps id a (Host.ask (.delete r (.object id) (.index i))) (some true)
          (a.erase i) := by
        refine ask_turns ⟨nofun, nofun⟩ rfl fun e he => ?_
        refine core_of_eval (x := fun id => do pure ((← Eval.delete id (.index i)) == .done))
          (fun m hm => ?_) he
        obtain ⟨m', hdelete, hm'⟩ := Eval.delete_item hm hv
        exact ⟨m', Eval.bind_of_ok hdelete, hm'⟩
      exact Yields.live_bind hr (Turns.bind hdeleted (Yields.orViolation "delete_atom"))

/-- The client writes a second reference to the value. -/
theorem set_turns (i : ItemIndex) (v : Storable) :
    Turns X f p ps id a ((ItemAccess.set i v).run ⟨c, .object id⟩) .done (a.set i.1 v) := by
  -- Writing consumes a reference, so a second one to the value is taken first.
  have hretained : Yields X (fun e => Holds e [id, f] fun m => m.Fills f p ps id a)
      (Host.ask (.retain r (.value v.1))) fun _ e =>
        Holds e (v.1.objectId?.toList ++ [id, f]) fun m => m.Fills f p ps id a := by
    refine Yields.ask fun e he => ?_
    refine (he.answer_looks (q := .retain r (.value v.1)) (array_lasting.mono fun _ hid =>
      List.mem_append_right _ hid) ⟨nofun, nofun⟩ rfl he.machine fun j => ?_).2
    have hgiven : (Request.retain r (.value v.1)).given () = Ref.ofValue v.1 := rfl
    have htaken : (Request.retain r (.value v.1)).taken = [] := rfl
    rw [hgiven, htaken, count_ofValue, List.count_append]
    simp [Nat.add_comm]
  have hdupe : Yields X (fun e => Holds e [id, f] fun m => m.Fills f p ps id a)
      (Host.dupe ⟨c, v.1⟩) fun h e => h = ⟨c, v.1⟩ ∧
        Holds e (v.1.objectId?.toList ++ [id, f]) fun m => m.Fills f p ps id a :=
    Yields.live_bind hr (hretained.bind fun _ => Yields.pure fun _ he => ⟨rfl, he⟩)
  refine hdupe.bind fun h s hX hs => ?_
  obtain ⟨rfl, hs⟩ := hs
  have hset : Yields X (fun e => Holds e (v.1.objectId?.toList ++ [id, f]) fun m =>
      m.Fills f p ps id a) (Host.set ⟨c, .object id⟩ (.index i.1) ⟨c, v.1⟩)
      fun _ e => Holds e [id, f] fun m => m.Fills f p ps id (a.set i.1 v) :=
    set_index_yields hr array_lasting array_lasting rfl rfl i.2 fun m hm =>
      Eval.setProp_item (array_lasting.started hm) i.2 v
  have hdone : Yields X (fun e => Holds e (v.1.objectId?.toList ++ [id, f]) fun m =>
      m.Fills f p ps id a) (do
        Host.set ⟨c, .object id⟩ (.index i.1) ⟨c, v.1⟩
        Pure.pure ItemAccess.Answer.done)
      fun z e => z = .done ∧ Holds e [id, f] fun m => m.Fills f p ps id (a.set i.1 v) :=
    hset.bind fun _ => Yields.pure fun _ he => ⟨rfl, he⟩
  exact hdone s hX hs

theorem keys_turns : Turns X f p ps id a (Host.keys ⟨c, .object id⟩)
    (a.items.keys.map fun i => (Key.natText i).toHostString) a := by
  have hasked : Turns X f p ps id a (Host.ask (.ownKeys r (.object id) .enumerableStrings))
      (some (a.items.keys.map .index)) a := by
    refine ask_turns ⟨nofun, nofun⟩ rfl fun e he => ?_
    refine core_of_eval (x := (ScriptEngine.chosenKeys · .enumerableStrings)) (fun m hm => ?_) he
    refine ⟨m, (Eval.bind_of_ok (Eval.selectKeys_items hm)).trans ?_, hm⟩
    -- All indices are small enough to be keys of their own.
    have hinterned : ∀ i ∈ a.items.keys, (Key.interned ∘ Key.index) i = .index i := by
      intro i hi
      have hlt := a.within i (Std.TreeMap.mem_keys.1 hi)
      have hsmall := hm.small
      have hlimit : Key.indexLimit = 2 ^ 32 - 1 := rfl
      exact if_pos (by omega)
    refine congrArg (EStateM.Result.ok · m) ?_
    rw [List.map_map]
    exact List.map_congr_left hinterned
  have hown : Turns X f p ps id a (Host.ownKeys ⟨c, .object id⟩ .enumerableStrings)
      ((a.items.keys.map .index).map (⟨c, ·⟩)) a :=
    Yields.live_bind hr (Turns.bind hasked (Turns.bind (Yields.orViolation "own_property_names")
      (Yields.pure fun _ he => ⟨rfl, he⟩)))
  have htexts : Turns X f p ps id a
      (((a.items.keys.map .index).map (⟨c, ·⟩ : Key → KeyHandle)).mapM Host.keyText)
      (a.items.keys.map fun i => (Key.natText i).toHostString) a := by
    rw [List.map_map, List.mapM_map]
    exact Tells.mapM fun i _ => keyText_tells hr array_lasting i
  exact Turns.bind hown (Tells.ensuring htexts (dropKeys_tells hr array_lasting _))

/-! ## Lengths -/

variable (harray : (X.entry c).cache.array = .object f)
include harray

theorem isArray_turns : Turns X f p ps id a (Host.isArray ⟨c, .object id⟩) true a := by
  have hasked : Tells X [id, f] (fun m => m.Fills f p ps id a)
      (Host.isInstance ⟨c, .object id⟩ (.object f)) true := by
    refine isInstance_tells (p := p) hr array_lasting fun m hm => ?_
    have hroom : Eval.RoomToCall (m.started r) := by
      intro limit hlimit
      simpa [Machine.started] using hm.room limit hlimit
    exact ⟨p :: ps, hm.makes, hm.inherits, hm.isPlain.not_proxy, hroom, by simp⟩
  unfold Host.isArray Host.isCached
  refine Yields.context_bind ?_
  dsimp only
  rw [harray]
  exact hasked

variable (hkey : (X.entry c).cache.length = Key.str "length")
include hkey

/-- The length is a number that is read as an integer of 64 bits. -/
theorem length_turns : Turns X f p ps id a (Host.length ⟨c, .object id⟩) a.length a := by
  have hsize : Tells X [id, f] (fun m => m.Fills f p ps id a) (Host.sizeKey? ⟨c, .object id⟩)
      (some (Key.str "length")) := by
    unfold Host.sizeKey?
    refine Yields.context_bind ?_
    dsimp only
    rw [hkey]
    exact Turns.bind (isArray_turns hr harray) Tells.pure
  have hget : Tells X [id, f] (fun m => m.Fills f p ps id a)
      (Host.getKey ⟨c, .object id⟩ (Key.str "length")) ⟨c, Value.ofNat a.length⟩ := by
    have hasked : Turns X f p ps id a (Host.ask (.get r (.object id) (Key.str "length")))
        (Value.ofNat a.length) a := by
      refine ask_turns ⟨nofun, nofun⟩ rfl fun e he => ?_
      have hstarted := array_lasting.started (r := r) he
      exact ⟨_, ScriptEngine.runValue_ok (Eval.getOf_length hstarted), hstarted⟩
    exact Yields.live_bind hr (Turns.bind hasked (Yields.check (Value.ofInt_ne_exception _)))
  -- How long the array can get is known of the engine's machine only.
  refine Yields.given fun e he => ?_
  have hsmall := he.machine.small
  have hread : (Int64.ofInt (Binary.integerPart (Binary.ofInt a.length).toBits)).toInt = a.length := by
    rw [Binary.integerPart_ofInt (by omega), Binary.nearest_small (by omega)]
    exact Binary.toInt64_of_range (by omega) (by omega)
  intro s hX hs
  subst hs
  refine size_tells hr array_lasting ?_ (Eval.toInt64_number (Value.ofInt_isNumber _)) hread hsize
    hget s hX he
  unfold Value.ofInt
  split <;> rfl

theorem isEmpty_turns :
    Turns X f p ps id a (Host.isEmpty ⟨c, .object id⟩) (a.length == 0) a :=
  Turns.bind (length_turns hr harray hkey) Tells.pure

/-! ## One access, and one after the other -/

theorem access_turns (x : ItemAccess) :
    Turns X f p ps id a (x.run ⟨c, .object id⟩) (x.step a).1 (x.step a).2 := by
  cases x with
  | set i v => exact set_turns hr i v
  | delete i => exact Turns.bind (delete_turns hr i.2) Tells.pure
  | get i => exact Turns.bind (get_turns hr i.2) Tells.pure
  | has i => exact Turns.bind (has_turns hr i.2) Tells.pure
  | length => exact Turns.bind (length_turns hr harray hkey) Tells.pure
  | isEmpty => exact Turns.bind (isEmpty_turns hr harray hkey) Tells.pure
  | keys => exact Turns.bind (keys_turns hr) Tells.pure

/-- One access after the other, a client is told what the sparse array answers. -/
theorem accesses_turn (xs : List ItemAccess) :
    Turns X f p ps id a (xs.mapM (ItemAccess.run ⟨c, .object id⟩)) (ItemAccess.answers a xs)
      (ItemAccess.after a xs) := by
  induction xs generalizing a with
  | nil => exact Tells.pure
  | cons x xs ih =>
      rw [List.mapM_cons]
      exact Turns.bind (access_turns hr harray hkey x) (Turns.bind ih Tells.pure)

end Items

end Host

/-! ## What accesses leave behind -/

namespace Client

namespace ItemAccess

variable {a : SparseArray Storable}

theorem after_append (xs ys : List ItemAccess) : after a (xs ++ ys) = after (after a xs) ys :=
  List.foldl_append

theorem length_step (x : ItemAccess) : (x.step a).2.length = max a.length x.extent := by
  cases x with
  | set i v => rfl
  | delete _ | get _ | has _ | length | isEmpty | keys => exact (Nat.max_zero _).symm

theorem getElem_step (x : ItemAccess) (i : Nat) :
    (x.step a).2.items[i]? = (x.leaves i).getD a.items[i]? := by
  cases x with
  | set j v =>
      have hitems : (step a (set j v)).2.items = a.items.insert j.1 v := rfl
      rw [hitems, Std.TreeMap.getElem?_insert, leaves]
      by_cases hij : j.1 = i
      · rw [if_pos (Nat.compare_eq_eq.2 hij), if_pos hij]
        rfl
      · rw [if_neg fun h => hij (Nat.compare_eq_eq.1 h), if_neg hij]
        rfl
  | delete j =>
      have hitems : (step a (delete j)).2.items = a.items.erase j.1 := rfl
      rw [hitems, Std.TreeMap.getElem?_erase, leaves]
      by_cases hij : j.1 = i
      · rw [if_pos (Nat.compare_eq_eq.2 hij), if_pos hij]
        rfl
      · rw [if_neg fun h => hij (Nat.compare_eq_eq.1 h), if_neg hij]
        rfl
  | get _ | has _ | length | isEmpty | keys => rfl

/-- The length is one more than the largest index that was set. -/
theorem length_after (xs : List ItemAccess) : (after a xs).length = max a.length (reach xs) := by
  induction xs generalizing a with
  | nil => exact (Nat.max_zero _).symm
  | cons x xs ih =>
      have hstep : after a (x :: xs) = after (x.step a).2 xs := rfl
      have hreach : reach (x :: xs) = max x.extent (reach xs) := rfl
      rw [hstep, ih, length_step, hreach, Nat.max_assoc]

/-- The item at an index is what was set there last, if it was not deleted since. -/
theorem getElem_after (xs : List ItemAccess) (i : Nat) :
    (after .empty xs).items[i]? = standing xs i := by
  induction xs using List.reverseRecOn with
  | nil => exact Std.TreeMap.getElem?_emptyc
  | append_singleton xs x ih =>
      have hstep : after .empty (xs ++ [x]) = (x.step (after .empty xs)).2 := by
        rw [after_append]
        rfl
      rw [hstep, getElem_step, ih, standing, standing, List.reverse_append]
      cases hx : x.leaves i with
      | none => simp [hx]
      | some o => simp [hx]

end ItemAccess

/-! ## New arrays -/

variable {c : ContextId} {r : RealmId} {f p id : Nat} {ps : List Nat}

/-- What a new array is filled with is told as a sparse array tells it.  The length is one more than
the largest index that was set; an item is what was set last and not deleted since, and the
indices of the items are listed in order. -/
theorem filled_array_answers {s₀ s : Host ScriptEngine} (hs : s₀.ServesArrays c r f p ps)
    (hnew : Host.newArray c s₀ = (.ok ⟨c, .object id⟩, s)) (xs : List ItemAccess) :
    (xs.mapM (ItemAccess.run ⟨c, .object id⟩) s).1 = .ok (ItemAccess.answers .empty xs) ∧
      (ItemAccess.after .empty xs).length = ItemAccess.reach xs ∧
      (∀ i : Nat, (ItemAccess.after .empty xs).items[i]? = ItemAccess.standing xs i) ∧
      (ItemAccess.after .empty xs).items.keys.Pairwise (· < ·) ∧
      ∀ i, i ∈ (ItemAccess.after .empty xs).items.keys ↔ (ItemAccess.standing xs i).isSome := by
  refine ⟨?_, ?_, fun i => ItemAccess.getElem_after xs i, ?_, fun i => ?_⟩
  · obtain ⟨s₁, hask, hcontexts, hengine, -⟩ := ask_eq (.newArray r) s₀
    rw [Host.newArray, bind_ok (live_ok hs.live), bind_ok hask] at hnew
    obtain ⟨hvalue, rfl⟩ := Prod.mk.inj hnew
    have hholds : s₁.engine.Holds [id, f] fun m => m.Fills f p ps id .empty := by
      rw [hengine]
      exact ScriptEngine.newArray_holds hs.arrays hs.room hs.held
        (congrArg Handle.value (Except.ok.inj hvalue))
    -- What holds of the empty array holds after each access, with the sparse array as it is then.
    obtain ⟨answers, s', hrun, -, rfl, -⟩ :=
      Host.accesses_turn hs.live hs.maker hs.key xs s₁ hcontexts hholds
    rw [hrun]
  · rw [ItemAccess.length_after]
    exact Nat.zero_max _
  · exact Std.TreeMap.ordered_keys.imp Nat.compare_eq_lt.1
  · rw [Std.TreeMap.mem_keys, Std.TreeMap.mem_iff_isSome_getElem?, ItemAccess.getElem_after]

/-- A host with one context, whose realm has the constructor of arrays and what this needs.  Functions
inherit the first object, and arrays the second. -/
def arrayHost : Host ScriptEngine :=
  let places := (Array.replicate Intrinsic.places none).setIfInBounds
    Intrinsic.arrayPrototype.place (some 1)
  { engine :=
    { machine :=
      { heap := #[
          { props := { members := #[(.symbol WellKnown.hasInstance, .hidden (.object 4))] } },
          { body := .array, proto := some 2, props := .ofItems {} 0 }, {},
          { body := .native { family := .constructors, index := 12, constructs := true } 0
            proto := some 0
            props := { members := #[(Key.str "prototype", .hidden (.object 1))] } },
          { body := .native { family := .functionPrototype, index := 4 } 0 }]
        realms := #[{ intrinsics := places }] }
      ledger := ({} : Ledger).add (.value (.object 3)) }
    contexts := (∅ : Contexts).insert 0
      { realm := some 0, cache := { array := .object 3, length := Key.str "length" } } }

/-- Neither object that arrays inherit from has an item. -/
theorem arrayHost_bare : ∀ j ∈ [1, 2], ∀ i,
    (arrayHost.engine.machine.obj j).props.get? (.index i) = none := by
  intro j hj i
  simp only [List.mem_cons, List.not_mem_nil, or_false] at hj
  rcases hj with rfl | rfl <;> rfl

theorem arrayHost_serves : arrayHost.ServesArrays 0 0 3 1 [2] where
  live := rfl
  maker := rfl
  key := rfl
  held := by decide
  arrays :=
    { realm := ⟨_, rfl, by decide +kernel⟩
      makes := ⟨by decide, ⟨_, _, rfl⟩, rfl, [0], 4, 0, ⟨rfl, by decide, rfl⟩, rfl, _, _, rfl, rfl, rfl⟩
      plain := by decide
      inherits := ⟨rfl, by decide, rfl⟩
      bare := arrayHost_bare }
  room := by decide

/-- Items far apart, set from the last to the first, one of them twice and one deleted. -/
theorem filled_array_answers_apart : ∃ s, Host.newArray 0 arrayHost = (.ok ⟨0, .object 5⟩, s) ∧
    ([.isEmpty, .set ⟨2147483647, by decide⟩ ⟨.int 1, by decide⟩, .length,
      .set ⟨10, by decide⟩ ⟨.null, by decide⟩, .set ⟨9, by decide⟩ ⟨.object 5, by decide⟩, .keys,
      .set ⟨10, by decide⟩ ⟨.bool true, by decide⟩, .get ⟨10, by decide⟩,
      .delete ⟨2147483647, by decide⟩, .has ⟨2147483647, by decide⟩, .get ⟨2147483647, by decide⟩,
      .delete ⟨2147483647, by decide⟩, .length, .keys].mapM
        (ItemAccess.run ⟨0, .object 5⟩) s).1 =
      .ok [.flag true, .done, .count 2147483648, .done, .done, .texts ["9", "10", "2147483647"],
        .done, .value (.bool true), .flag true, .flag false, .value .undefined, .flag false,
        .count 2147483648, .texts ["9", "10"]] := by
  have hnew : Host.newArray 0 arrayHost =
      (.ok ⟨0, .object 5⟩, (Host.newArray 0 arrayHost).2) := rfl
  refine ⟨_, hnew, ?_⟩
  rw [(filled_array_answers arrayHost_serves hnew _).1]
  decide

/-- The same host, where a script has a say in what an array is: the constructor of arrays asks a set
that nothing is in. -/
def deafArrayHost : Host ScriptEngine :=
  let machine := arrayHost.engine.machine
  let hook (o : Obj) : Obj :=
    { o with props := o.props.put (.symbol WellKnown.hasInstance) (.plain (.object 7)) }
  { arrayHost with
    engine :=
    { arrayHost.engine with
      machine :=
      { machine with
        heap := machine.heap.modify 3 hook ++ #[{ body := .set #[] 0 },
          { body := .native { family := .setPrototype, index := 1 } 0 },
          { body := .bound (.object 6) (.object 5) #[] }] } } }

/-- An array with an item, which inherits from nothing that has items, is refused when its length is
asked for. -/
theorem hooked_array_has_no_length :
    deafArrayHost.engine.machine.Descends 1 [2] ∧
      (∀ j ∈ [1, 2], ∀ i, (deafArrayHost.engine.machine.obj j).props.get? (.index i) = none) ∧
      ∃ s, Host.newArray 0 deafArrayHost = (.ok ⟨0, .object 8⟩, s) ∧
        (s.engine.machine.obj 8).proto = some 1 ∧
        ([.set ⟨0, by decide⟩ ⟨.int 7, by decide⟩, .length].mapM
          (ItemAccess.run ⟨0, .object 8⟩) s).1 =
            .error (.failed (.contractViolation "len" "object has no length")) := by
  have hnew : Host.newArray 0 deafArrayHost =
      (.ok ⟨0, .object 8⟩, (Host.newArray 0 deafArrayHost).2) := rfl
  refine ⟨⟨rfl, by decide, rfl⟩, fun j hj i => ?_, _, hnew, by decide +kernel, by decide +kernel⟩
  simp only [List.mem_cons, List.not_mem_nil, or_false] at hj
  rcases hj with rfl | rfl <;> rfl

end Client

end ScriptHost
