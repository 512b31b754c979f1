import ScriptHost.Engine.Answer
import ScriptHost.Proofs.Labels
/-!
# Engines that keep a plain object

As long as the host holds a reference to a plain object, the object is a root and is not freed, and
requests change its properties as if they were an ordered map.
-/

namespace ScriptHost

variable {id : Nat} {ls : List Label} {l : Label} {m m' : OrderedMap Label Value} {v : Value}

/-! ## Plain objects as maps -/

namespace Machine

variable {machine machine' : Machine}

/-- A plain object with the properties of a map, whose prototypes have none with some labels. -/
def Stands (machine : Machine) (id : Nat) (ls : List Label) (m : OrderedMap Label Value) : Prop :=
  ∃ t, machine.Plain id t (ls.map Label.key) ∧ t.Lists m.properties

theorem Stands.fades (h : machine.Stands id ls m) (hfades : machine.Fades id machine') :
    machine'.Stands id ls m := by
  obtain ⟨t, hplain, hlists⟩ := h
  exact ⟨t, hplain.fades hfades, hlists⟩

/-- An object that has nothing of its own, and whose prototypes have nothing with some labels,
stands for the empty map. -/
theorem stands_nil (hid : id < machine.heap.size)
    (hobj : machine.obj id = { proto := (machine.obj id).proto })
    (hbeyond : ∀ l ∈ ls, machine.find l.key (some id) = .absent) : machine.Stands id ls [] := by
  refine ⟨{}, ⟨hid, hobj, ?_⟩, PropertyTable.lists_empty⟩
  intro k hk
  obtain ⟨l, hl, rfl⟩ := List.mem_map.1 hk
  -- The object has nothing that could be blanked, so the machine fades to its blanked self.
  have hblanked : ∀ j, (machine.blanked id).obj j = machine.obj j := by
    intro j
    rw [obj_blanked]
    split
    next hj => rw [← hj.1, hobj]
    next => rfl
  have hfades : machine.Fades id (machine.blanked id) := by
    refine ⟨by simp [blanked, update], hblanked id, ?_⟩
    intro j
    rw [hblanked]
    exact .same
  exact hfades.find_absent (hbeyond l hl)

end Machine

namespace Eval

open Machine (Stands)
open OrderedMap (get_properties)

variable {interp : Interp} {machine machine' : Machine}

theorem getOf_stands (h : machine.Stands id ls m) (hl : l ∈ ls) :
    getOf (.object id) l.key interp machine = .ok ((m.lookup l).getD .undefined) machine := by
  obtain ⟨t, hplain, hlists⟩ := h
  have hget := get_properties hlists l
  cases hm : m.lookup l with
  | some v => exact getOf_own hplain (by rw [hget, hm]; rfl)
  | none => exact getOf_beyond hplain (List.mem_map_of_mem hl) (by rw [hget, hm]; rfl)

theorem hasProperty_stands (h : machine.Stands id ls m) (hl : l ∈ ls) :
    hasProperty id l.key interp machine = .ok (m.lookup l).isSome machine := by
  obtain ⟨t, hplain, hlists⟩ := h
  have hget := get_properties hlists l
  cases hm : m.lookup l with
  | some v => exact hasProperty_own hplain (hget.trans (by rw [hm]; rfl))
  | none => exact hasProperty_beyond hplain (List.mem_map_of_mem hl) (by rw [hget, hm]; rfl)

theorem hasOwn_stands (h : machine.Stands id ls m) (l : Label) :
    hasOwn id l.key interp machine = .ok (m.lookup l).isSome machine := by
  obtain ⟨t, hplain, hlists⟩ := h
  have hget := get_properties hlists l
  cases hm : m.lookup l with
  | some v => exact hasOwn_own hplain (hget.trans (by rw [hm]; rfl))
  | none => exact hasOwn_beyond hplain (by rw [hget, hm]; rfl)

theorem setProp_stands (h : machine.Stands id ls m) (hl : l ∈ ls) (v : Value) :
    ∃ machine', setProp id l.key v interp machine = .ok () machine' ∧
      machine'.Stands id ls (m.set l v) := by
  obtain ⟨t, hplain, hlists⟩ := h
  -- What there may be under the key is ordinary, so that it is replaced without further ado.
  have hordinary : ∀ p, t.get? l.key = some p → ∃ v', p = .plain v' := by
    intro p hp
    rw [get_properties hlists] at hp
    obtain ⟨v', -, rfl⟩ := Option.map_eq_some_iff.1 hp
    exact ⟨v', rfl⟩
  have hput := hlists.put l.key (.plain v)
  rw [OrderedMap.properties, ← OrderedMap.rename_set Label.key_injective] at hput
  exact ⟨_, setProp_plain hplain (List.mem_map_of_mem hl) hordinary, t.put l.key (.plain v),
    hplain.update_props (fun _ => rfl) (by rw [hplain.props_eq]), hput⟩

theorem delete_stands (h : machine.Stands id ls m) (hm : m.lookup l = some v) :
    ∃ machine', delete id l.key interp machine = .ok .done machine' ∧
      machine'.Stands id ls (m.erase l) := by
  obtain ⟨t, hplain, hlists⟩ := h
  have hget : t.get? l.key = some (.plain v) := by
    rw [get_properties hlists, hm]
    rfl
  have herase := hlists.erase l.key
  rw [OrderedMap.properties, ← OrderedMap.rename_erase Label.key_injective] at herase
  exact ⟨_, delete_own hplain hget, t.erase l.key,
    hplain.update_props (fun _ => rfl) (by rw [hplain.props_eq]), herase⟩

/-- The keys that are chosen are those that the map lists. -/
theorem selectKeys_stands (h : machine.Stands id ls m) :
    selectKeys id true false false true interp machine =
      .ok (m.listing.map Key.ofText) machine := by
  obtain ⟨t, hplain, hlists⟩ := h
  rw [← OrderedMap.listing_eq hlists]
  refine selectKeys_plain hplain fun k hk => ?_
  rw [hlists.get_eq]
  exact OrderedMap.lookup_properties_of_mem (hlists.mem_of_mem_keys hk)

/-- A new object has nothing but a prototype, perhaps. -/
theorem blank_of_newObject (h : (do
      reserve 64
      pure (Value.object (← newObject))) interp machine = .ok v machine') :
    ∃ id, v = .object id ∧ id < machine'.heap.size ∧
      machine'.obj id = { proto := (machine'.obj id).proto } := by
  obtain ⟨-, m₁, -, h⟩ := ok_of_bind h
  obtain ⟨id, m₂, hnew, h⟩ := ok_of_bind h
  cases h
  cases hnew
  refine ⟨_, rfl, by simp, ?_⟩
  simp [Machine.obj]

end Eval

/-! ## References that are held -/

namespace Ledger

variable {ledger : Ledger} {r : Ref} {rs : List Ref}

/-- Things that are no objects are counted in a list. -/
theorem count_eq_others {t : Ref} (ht : ∀ id, t ≠ .value (.object id)) (ledger : Ledger) :
    ledger.count t = ledger.others.count t := by
  unfold count
  split
  next id => exact absurd rfl (ht id)
  next => rfl

theorem count_add (ledger : Ledger) (r t : Ref) :
    (ledger.add r).count t = ledger.count t + [r].count t := by
  rw [List.count_singleton]
  by_cases ht : ∃ id, t = .value (.object id)
  · rcases ht with ⟨id, rfl⟩
    cases r with
    | key k => rfl
    | value v =>
        cases v with
        | object id' =>
            by_cases hid : id' = id
            · simp [add, count, hid]
            · simp [add, count, Std.TreeMap.getD_insert, hid]
        | _ => rfl
  · have ht' : ∀ id, t ≠ .value (.object id) := fun id h => ht ⟨id, h⟩
    rw [count_eq_others ht', count_eq_others ht']
    unfold add
    split
    next id => simp [Ne.symm (ht' id)]
    next => rw [List.count_cons]

theorem count_remove (ledger : Ledger) (r t : Ref) :
    (ledger.remove r).count t = ledger.count t - [r].count t := by
  rw [List.count_singleton]
  by_cases ht : ∃ id, t = .value (.object id)
  · rcases ht with ⟨id, rfl⟩
    cases r with
    | key k => rfl
    | value v =>
        cases v with
        | object id' =>
            have hremove : ledger.remove (.value (.object id')) =
                if ledger.objects.getD id' 0 ≤ 1 then
                  { ledger with objects := ledger.objects.erase id' }
                else { ledger with
                  objects := ledger.objects.insert id' (ledger.objects.getD id' 0 - 1) } := rfl
            rw [hremove]
            -- The last reference takes the object out of the table, which counts as none.
            by_cases hid : id' = id
            · subst hid
              split
              next hle => simp [count, Nat.sub_eq_zero_of_le hle]
              next => simp [count]
            · split
              next => simp [count, Std.TreeMap.getD_erase, hid]
              next => simp [count, Std.TreeMap.getD_insert, hid]
        | _ => rfl
  · have ht' : ∀ id, t ≠ .value (.object id) := fun id h => ht ⟨id, h⟩
    rw [count_eq_others ht', count_eq_others ht']
    unfold remove
    split
    next id =>
      have hother : (Ref.value (.object id) == t) = false := by simpa using Ne.symm (ht' id)
      rw [hother, if_neg Bool.false_ne_true, Nat.sub_zero]
      split <;> rfl
    next =>
      by_cases hr : r = t
      · subst hr
        simp
      · simp [List.count_erase_of_ne (Ne.symm hr), hr]

theorem count_cons (r : Ref) (rs : List Ref) (t : Ref) :
    (r :: rs).count t = [r].count t + rs.count t := by
  rw [List.count_cons, List.count_singleton, Nat.add_comm]

theorem count_adds (ledger : Ledger) (rs : List Ref) (t : Ref) :
    (rs.foldl add ledger).count t = ledger.count t + rs.count t := by
  induction rs generalizing ledger with
  | nil => rfl
  | cons r rs ih => rw [List.foldl_cons, ih, count_add, count_cons r rs, Nat.add_assoc]

theorem count_removes (ledger : Ledger) (rs : List Ref) (t : Ref) :
    (rs.foldl remove ledger).count t = ledger.count t - rs.count t := by
  induction rs generalizing ledger with
  | nil => rfl
  | cons r rs ih => rw [List.foldl_cons, ih, count_remove, count_cons r rs, Nat.sub_sub]

/-- There are as many references to a thing as there were, without those that were taken and with
those that were given. -/
theorem count_after (ledger : Ledger) (q : Request) (a : q.Reply) (t : Ref) :
    (ledger.after q a).count t = ledger.count t - q.taken.count t + (q.given a).count t := by
  unfold after
  rw [count_adds, count_removes]

/-- An object with references to it is held. -/
theorem mem_heldObjects (h : 0 < ledger.count (.value (.object id))) : id ∈ ledger.heldObjects := by
  unfold heldObjects
  rw [Std.TreeMap.mem_keys]
  by_contra hid
  unfold count at h
  dsimp only at h
  rw [Std.TreeMap.getD_eq_fallback hid] at h
  exact absurd h (Nat.lt_irrefl 0)

end Ledger

/-! ## Answers -/

namespace ScriptEngine

variable {e e' : ScriptEngine} {q : Request} {n n' : Nat}

/-- An engine with a plain object to which the host holds some references at least. -/
structure Keeps (e : ScriptEngine) (id : Nat) (ls : List Label) (m : OrderedMap Label Value)
    (n : Nat) : Prop where
  stands : e.machine.Stands id ls m
  held : n ≤ e.ledger.count (.value (.object id))

/-- What a computation does in a machine that is about to run something. -/
theorem run_eq {α : Type} {realm : RealmId} {x : Eval α} {a : α} {machine' : Machine}
    (h : x (Eval.interp Builtin.supply depthLimit)
      { e.machine with realm := realm, calls := [], stackUsed := 0 } = .ok a machine') :
    run realm x e = (some a, { e with machine := machine' }) := by
  obtain ⟨machine, pending, ledger, queue⟩ := e
  unfold run
  dsimp only at h ⊢
  rw [h]

/-- Freeing after an answer leaves an object alone that is held. -/
theorem Keeps.after_tidy (h : e.Keeps id ls m n) (hn : 0 < n) (hq : q ≠ .collect ∧ q ≠ .shutDown)
    (a : q.Reply) : (tidy q a e).Keeps id ls m n := by
  have hroot : .object id ∈ e.roots :=
    List.mem_append_left _ (List.mem_map_of_mem (Ledger.mem_heldObjects (hn.trans_le h.held)))
  rw [tidy_eq hq]
  split
  next =>
    obtain ⟨t, hplain, hlists⟩ := h.stands
    have hweak : (e.machine.body id).isWeak = false := by
      rw [hplain.body_eq]
      rfl
    exact ⟨⟨t, hplain.fades (Machine.settle_fades hroot hweak _), hlists⟩, h.held⟩
  next => exact h

/-- A request to which an engine that keeps a plain object gives a reply, and what it keeps then. -/
def Answered (id : Nat) (ls : List Label) (m : OrderedMap Label Value) (n : Nat) (q : Request)
    (a : q.Reply) (m' : OrderedMap Label Value) (n' : Nat) : Prop :=
  ∀ e : ScriptEngine, e.Keeps id ls m n →
    (Engine.answer q e).reply = a ∧ (Engine.answer q e).state.Keeps id ls m' n'

/-- An answer follows from what is done to the machine and from the references that change hands. -/
theorem Answered.of_core {a : q.Reply} (hcore : ∀ e : ScriptEngine, e.machine.Stands id ls m →
      ∃ machine', core q e = (a, { e with machine := machine' }) ∧ machine'.Stands id ls m')
    (hcount : n' ≤ n - q.taken.count (.value (.object id)) +
      (q.given a).count (.value (.object id)))
    (hn : 0 < n') (hq : q ≠ .collect ∧ q ≠ .shutDown) : Answered id ls m n q a m' n' := by
  intro e h
  obtain ⟨machine', hcore, hstands⟩ := hcore e h.stands
  -- The references are counted before anything is freed, so the object is still a root then.
  have hheld : n' ≤ (e.ledger.after q a).count (.value (.object id)) := by
    have hle := h.held
    rw [Ledger.count_after]
    omega
  have hkeeps : Keeps { e with machine := machine', ledger := e.ledger.after q a } id ls m' n' :=
    ⟨hstands, hheld⟩
  have htidy := hkeeps.after_tidy hn hq a
  have hanswer : Engine.answer q e = answer q e := rfl
  rw [hanswer, answer, hcore]
  exact ⟨rfl, htidy.stands.fades (.of_heap rfl), htidy.held⟩

/-- A request that is answered by a computation. -/
theorem core_of_run {α : Type} {r : RealmId} {x : Eval α} {a : α}
    (hx : ∀ machine : Machine, machine.Stands id ls m →
      ∃ machine', x (Eval.interp Builtin.supply depthLimit) machine = .ok a machine' ∧
        machine'.Stands id ls m') (h : e.machine.Stands id ls m) :
    ∃ machine', run r x e = (some a, { e with machine := machine' }) ∧
      machine'.Stands id ls m' := by
  have hstart : Machine.Stands { e.machine with realm := r, calls := [], stackUsed := 0 } id ls m :=
    h.fades (.of_heap rfl)
  obtain ⟨machine', hrun, hstands⟩ := hx _ hstart
  exact ⟨machine', run_eq hrun, hstands⟩

theorem objectOf_bind {α : Type} {f : Nat → Eval α} {interp : Interp} {machine : Machine} :
    (objectOf (.object id) >>= f) interp machine = f id interp machine :=
  Eval.bind_of_ok rfl

/-! ### Requests that leave the machine alone -/

section Requests

variable {r : RealmId}

theorem retain_answered :
    Answered id ls m n (.retain r (.value (.object id))) () m (n + 1) := by
  refine .of_core (fun e h => ⟨e.machine, rfl, h⟩) ?_ (Nat.succ_pos n) ⟨nofun, nofun⟩
  have hgiven : (Request.retain r (.value (.object id))).given () = [.value (.object id)] := rfl
  rw [hgiven, List.count_singleton_self]
  exact Nat.le_refl _

/-- Keys and other things than the object are given back. -/
theorem release_answered (hn : 0 < n) {ref : Ref}
    (href : ref.counted.count (.value (.object id)) = 0) :
    Answered id ls m n (.release r [ref]) () m n := by
  refine .of_core (fun e h => ⟨e.machine, rfl, h⟩) ?_ hn ⟨nofun, nofun⟩
  have htaken : (Request.release r [ref]).taken = ref.counted := List.append_nil _
  rw [htaken, href]
  exact Nat.le_add_right _ _

/-- Writing takes the reference to the value. -/
theorem set_answered (hl : l ∈ ls) (v : Value)
    (hcount : n' ≤ n - (Ref.ofValue v).count (.value (.object id))) (hn' : 0 < n') :
    Answered id ls m n (.set r (.object id) l.key v) (some true) (m.set l v) n' := by
  refine .of_core (fun e h => ?_) hcount hn' ⟨nofun, nofun⟩
  refine core_of_run (x := do
      let id ← objectOf (.object id)
      Eval.setProp id l.key v
      pure true) (fun machine h => ?_) h
  obtain ⟨machine', hset, hstands⟩ := Eval.setProp_stands h hl v
  refine ⟨machine', ?_, hstands⟩
  rw [objectOf_bind, Eval.bind_of_ok hset]
  rfl

variable (hn : 0 < n)
include hn

/-- A key is given back. -/
theorem releaseKey_answered (k : Key) : Answered id ls m n (.release r [.key k]) () m n := by
  have hcounted : (Ref.key k).counted = Ref.ofKey k := rfl
  refine release_answered hn ?_
  rw [hcounted, Ref.ofKey]
  split <;> simp

/-- A text is given back. -/
theorem releaseText_answered (t : Text) :
    Answered id ls m n (.release r [.value (.string t)]) () m n := by
  have hcounted : (Ref.value (.string t)).counted = [.value (.string t)] := rfl
  refine release_answered hn ?_
  simp [hcounted]

theorem keyOfText_answered (s : String) :
    Answered id ls m n (.keyOfText r s) (Key.ofText (.ofString s)) m n :=
  .of_core (fun e h => ⟨e.machine, rfl, h⟩) (Nat.le_add_right _ _) hn ⟨nofun, nofun⟩

theorem keyOfIndex_answered (i : UInt32) :
    Answered id ls m n (.keyOfIndex r i) (Key.ofNat i.toNat) m n :=
  .of_core (fun e h => ⟨e.machine, rfl, h⟩) (Nat.le_add_right _ _) hn ⟨nofun, nofun⟩

theorem textOfKey_answered (t : Text) :
    Answered id ls m n (.textOfKey r (Key.ofText t)) (.string t) m n := by
  refine .of_core (fun e h => ⟨e.machine, ?_, h⟩) (Nat.le_add_right _ _) hn ⟨nofun, nofun⟩
  have hcore : core (.textOfKey r (Key.ofText t)) e =
      (.string (e.machine.keyText (Key.ofText t)), e) := rfl
  rw [hcore, Label.keyText_ofText]

/-! ### Requests that are answered by computations -/

theorem keyOfValue_answered (hv : Label.ofValue? v = some l) :
    Answered id ls m n (.keyOfValue r v) (some l.key) m n := by
  refine .of_core (fun e h => ?_) (Nat.le_add_right _ _) hn ⟨nofun, nofun⟩
  exact core_of_run (fun machine h => ⟨machine, Eval.toKey_ofValue hv, h⟩) h

theorem toText_answered (t : Text) :
    Answered id ls m n (.toText r (.string t)) (some t.toHostString) m n := by
  refine .of_core (fun e h => ?_) (Nat.le_add_right _ _) hn ⟨nofun, nofun⟩
  exact core_of_run (x := do pure (← Eval.toText (.string t)).toHostString)
    (fun machine h => ⟨machine, rfl, h⟩) h

theorem get_answered (hl : l ∈ ls) : Answered id ls m n (.get r (.object id) l.key)
    ((m.lookup l).getD .undefined) m n := by
  refine .of_core (fun e h => ?_) (Nat.le_add_right _ _) hn ⟨nofun, nofun⟩
  obtain ⟨machine', hrun, hstands⟩ := core_of_run (r := r)
    (fun machine h => ⟨machine, Eval.getOf_stands h hl, h⟩) h
  have hcore : core (.get r (.object id) l.key) e =
      runValue r (Eval.getOf (.object id) l.key) e := rfl
  rw [hcore, runValue, hrun]
  exact ⟨machine', rfl, hstands⟩

theorem has_answered (hl : l ∈ ls) :
    Answered id ls m n (.has r (.object id) l.key) (some (m.lookup l).isSome) m n := by
  refine .of_core (fun e h => ?_) (Nat.le_add_right _ _) hn ⟨nofun, nofun⟩
  refine core_of_run (x := do Eval.hasProperty (← objectOf (.object id)) l.key)
    (fun machine h => ⟨machine, ?_, h⟩) h
  rw [objectOf_bind, Eval.hasProperty_stands h hl]

theorem hasOwn_answered (l : Label) :
    Answered id ls m n (.hasOwn r (.object id) l.key) (some (m.lookup l).isSome) m n := by
  refine .of_core (fun e h => ?_) (Nat.le_add_right _ _) hn ⟨nofun, nofun⟩
  refine core_of_run (x := do Eval.hasOwn (← objectOf (.object id)) l.key)
    (fun machine h => ⟨machine, ?_, h⟩) h
  rw [objectOf_bind, Eval.hasOwn_stands h l]

theorem delete_answered (hm : m.lookup l = some v) :
    Answered id ls m n (.delete r (.object id) l.key) (some true) (m.erase l) n := by
  refine .of_core (fun e h => ?_) (Nat.le_add_right _ _) hn ⟨nofun, nofun⟩
  refine core_of_run (x := do
      pure ((← Eval.delete (← objectOf (.object id)) l.key) == .done)) (fun machine h => ?_) h
  obtain ⟨machine', hdelete, hstands⟩ := Eval.delete_stands h hm
  refine ⟨machine', ?_, hstands⟩
  rw [objectOf_bind, Eval.bind_of_ok hdelete]
  rfl

theorem ownKeys_answered :
    Answered id ls m n (.ownKeys r (.object id) .enumerableStrings)
      (some (m.listing.map Key.ofText)) m n := by
  refine .of_core (fun e h => ?_) (Nat.le_add_right _ _) hn ⟨nofun, nofun⟩
  refine core_of_run (x := do chosenKeys (← objectOf (.object id)) .enumerableStrings)
    (fun machine h => ⟨machine, ?_, h⟩) h
  have hinterned : Key.interned ∘ Key.ofText = Key.ofText := funext Key.interned_ofText
  rw [objectOf_bind]
  refine (Eval.bind_of_ok (Eval.selectKeys_stands h)).trans ?_
  rw [List.map_map, hinterned]
  rfl

end Requests

/-! ## New objects -/

variable {r : RealmId}

/-- A computation that gave a value did not throw. -/
theorem runValue_inv {x : Eval Value} {v : Value} (hx : (runValue r x e).1 = v)
    (hv : v ≠ .exception) :
    ∃ machine', x (Eval.interp Builtin.supply depthLimit)
        { e.machine with realm := r, calls := [], stackUsed := 0 } = .ok v machine' ∧
      runValue r x e = (v, { e with machine := machine' }) := by
  unfold runValue at hx ⊢
  rcases hrun : run r x e with ⟨_ | w, e'⟩
  · rw [hrun] at hx
    exact absurd hx.symm hv
  · rw [hrun] at hx
    obtain rfl : w = v := hx
    obtain ⟨machine', hcomp⟩ := run_inv (congrArg Prod.fst hrun)
    rw [run_eq hcomp] at hrun
    cases hrun
    exact ⟨machine', hcomp, rfl⟩

/-- A new object is held and stands for the empty map. -/
theorem newObject_keeps (hreply : (Engine.answer (.newObject r) e).reply = Value.object id)
    (hbeyond : ∀ l ∈ ls,
      (Engine.answer (.newObject r) e).state.machine.find l.key (some id) = .absent) :
    (Engine.answer (.newObject r) e).state.Keeps id ls [] 1 := by
  obtain ⟨machine', hcomp, hcore⟩ := runValue_inv (r := r) (e := e) (x := do
    Eval.reserve 64
    pure (.object (← Eval.newObject))) hreply nofun
  obtain ⟨_, hid, hbound, hobj⟩ := Eval.blank_of_newObject hcomp
  cases hid
  -- Nothing is thrown and nothing is given back, so tidying leaves what was made as it is.
  have hanswer : (Engine.answer (.newObject r) e).state.machine.heap = machine'.heap ∧
      (Engine.answer (.newObject r) e).state.ledger =
        e.ledger.after (.newObject r) (Value.object id) := by
    have hcore' : core (.newObject r) e = (Value.object id, { e with machine := machine' }) := hcore
    have hanswer : Engine.answer (.newObject r) e = answer (.newObject r) e := rfl
    let counted : ScriptEngine :=
      { e with machine := machine', ledger := e.ledger.after (.newObject r) (Value.object id) }
    have htidy : tidy (.newObject r) (Value.object id) counted = counted :=
      tidy_idle (q := .newObject r) ⟨nofun, nofun⟩ rfl
    rw [hanswer, answer, hcore']
    exact ⟨congrArg (·.rested.machine.heap) htidy, congrArg (·.rested.ledger) htidy⟩
  obtain ⟨hheap, hledger⟩ := hanswer
  refine ⟨Machine.stands_nil ?_ ?_ hbeyond, ?_⟩
  · rwa [hheap]
  · unfold Machine.obj at hobj ⊢
    rwa [hheap]
  · have hgiven : (Request.newObject r).given (Value.object id) = [.value (.object id)] := rfl
    have hcount := Ledger.count_after e.ledger (.newObject r) (Value.object id) (.value (.object id))
    rw [hgiven, List.count_singleton_self] at hcount
    rw [hledger]
    exact (Nat.le_add_left 1 _).trans_eq hcount.symm

end ScriptEngine

end ScriptHost
