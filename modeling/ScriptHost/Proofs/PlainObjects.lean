import ScriptHost.Engine.Change
import ScriptHost.Proofs.PropertyTables
import ScriptHost.Proofs.Prototypes
/-!
# What scripts and hosts do to plain objects

On a plain object, under keys that its prototypes do not have, reading, writing, asking and deleting
are what they are in its table of properties.  No code of a script is run.
-/

namespace ScriptHost

namespace Eval

variable {α β : Type} {interp : Interp} {m m' : Machine}

/-! ## Computations -/

theorem bind_of_ok {x : Eval α} {f : α → Eval β} {a : α} (h : x interp m = .ok a m') :
    (x >>= f) interp m = f a interp m' := by
  change EStateM.bind (x interp) (fun a => f a interp) m = _
  unfold EStateM.bind
  rw [h]

theorem ok_of_bind {x : Eval α} {f : α → Eval β} {b : β}
    (h : (x >>= f) interp m = .ok b m') :
    ∃ a m₁, x interp m = .ok a m₁ ∧ f a interp m₁ = .ok b m' := by
  change EStateM.bind (x interp) (fun a => f a interp) m = _ at h
  unfold EStateM.bind at h
  split at h
  next a m₁ hx => exact ⟨a, m₁, hx, h⟩
  next => cases h

theorem get_bind (f : Machine → Eval β) : (do f (← get)) interp m = f m interp m := rfl

theorem filterM_of_ok {p : α → Eval Bool} {q : α → Bool} {l : List α}
    (h : ∀ a ∈ l, p a interp m = .ok (q a) m) : l.filterM p interp m = .ok (l.filter q) m := by
  -- What was kept so far is held in reverse.
  have haux : ∀ acc, l.filterAuxM p acc interp m = .ok ((l.filter q).reverse ++ acc) m := by
    induction l with
    | nil => exact fun acc => rfl
    | cons a l ih =>
        intro acc
        rw [List.filterAuxM, bind_of_ok (h a List.mem_cons_self), List.filter_cons]
        have hrest := ih fun a ha => h a (List.mem_cons_of_mem _ ha)
        cases q a <;> simp [hrest]
  rw [List.filterM, bind_of_ok (haux []), List.append_nil, List.reverse_reverse]
  rfl

variable {id : Nat} {k : Key} {t : PropertyTable} {ks : List Key} {v : Value}

/-! ## Reading -/

theorem body_plain (h : m.Plain id t ks) : body id interp m = .ok .ordinary m := by
  have hbody : body id interp m = .ok (m.body id) m := rfl
  rw [hbody, h.body_eq]

theorem getOf_own (h : m.Plain id t ks) (hp : t.get? k = some (.plain v)) :
    getOf (.object id) k interp m = .ok v m := by
  have hget : getOf (.object id) k = getRule (reading 999) id k (.object id) := rfl
  rw [hget, getRule, get_bind, h.find_own hp]
  rfl

theorem getOf_beyond (h : m.Plain id t ks) (hk : k ∈ ks) (hp : t.get? k = none) :
    getOf (.object id) k interp m = .ok .undefined m := by
  have hget : getOf (.object id) k = getRule (reading 999) id k (.object id) := rfl
  rw [hget, getRule, get_bind, h.find_beyond hk hp]
  rfl

theorem hasProperty_own {p : Property} (h : m.Plain id t ks) (hp : t.get? k = some p) :
    hasProperty id k interp m = .ok true m := by
  have hhas : hasProperty id k = hasRule (reading 999) id k := rfl
  rw [hhas, hasRule, get_bind, h.find_own hp]
  rfl

theorem hasProperty_beyond (h : m.Plain id t ks) (hk : k ∈ ks) (hp : t.get? k = none) :
    hasProperty id k interp m = .ok false m := by
  have hhas : hasProperty id k = hasRule (reading 999) id k := rfl
  rw [hhas, hasRule, get_bind, h.find_beyond hk hp]
  rfl

theorem ownProperty_own (h : m.Plain id t ks) (hp : t.get? k = some (.plain v)) :
    ownProperty id k interp m = .ok (some (.plain v)) m := by
  have hown : ownProperty id k = ownRule (reading 999) id k := rfl
  rw [hown, ownRule, bind_of_ok (body_plain h)]
  dsimp only
  rw [ownPlain, get_bind, h.own_eq, hp]
  rfl

theorem ownProperty_beyond (h : m.Plain id t ks) (hp : t.get? k = none) :
    ownProperty id k interp m = .ok none m := by
  have hown : ownProperty id k = ownRule (reading 999) id k := rfl
  rw [hown, ownRule, bind_of_ok (body_plain h)]
  dsimp only
  rw [ownPlain, get_bind, h.own_eq, hp]
  rfl

/-! ## Changing -/

/-- The machine where an object has something under a key. -/
def putPlain (m : Machine) (id : Nat) (k : Key) (v : Value) : Machine :=
  m.update id fun o => { o with props := o.props.put k (.plain v) }

theorem writeShared_plain (h : m.Plain id t ks) : writeShared id k v interp m = .ok () m := by
  rw [writeShared, bind_of_ok (body_plain h)]
  cases k <;> rfl

theorem replaceValue_plain {v' : Value} (h : m.Plain id t ks) :
    replaceValue id k (.plain v') v interp m = .ok .done (putPlain m id k v) := by
  have hwrite : (do
      writeShared id k v
      Mem.putProperty id k { Property.plain v' with content := .data v true }
      pure Change.done : Eval Change) interp m = .ok .done (putPlain m id k v) := by
    rw [bind_of_ok (writeShared_plain h)]
    rfl
  rw [replaceValue, bind_of_ok (body_plain h)]
  cases k <;> exact hwrite

theorem addValue_plain (h : m.Plain id t ks) :
    addValue (writing 999) (.object id) k v interp m = .ok .done (putPlain m id k v) := by
  have hext : (m.obj id).extensible = true := by rw [h.obj]
  rw [addValue, bind_of_ok (body_plain h)]
  dsimp only
  rw [addProperty, get_bind, hext, h.body_eq]
  cases k <;> rfl

/-- Writing puts an ordinary property into the table, whether there was one or not. -/
theorem setProp_plain (h : m.Plain id t ks) (hk : k ∈ ks)
    (hp : ∀ p, t.get? k = some p → ∃ v', p = .plain v') :
    setProp id k v interp m = .ok () (putPlain m id k v) := by
  have hset : setProp id k v = setRule (writing 999) id k v (.object id) >>= orThrow := rfl
  have hrule : setRule (writing 999) id k v (.object id) interp m =
      .ok .done (putPlain m id k v) := by
    rw [setRule, get_bind, h.body_eq]
    dsimp only
    -- A property of its own is replaced; one that is found nowhere is added.
    cases hown : t.get? k with
    | some p =>
        obtain ⟨v', rfl⟩ := hp p hown
        have hsettle : settleOwn id k (.plain v') interp m = .ok (.plain v') m := rfl
        rw [h.find_own hown]
        dsimp only
        rw [bind_of_ok hsettle]
        have hcontent : (Property.plain v').content = .data v' true := rfl
        rw [hcontent]
        dsimp only
        rw [if_pos (beq_self_eq_true _), replaceValue_plain h]
    | none =>
        rw [h.find_beyond hk hown]
        dsimp only
        rw [if_pos (beq_self_eq_true _), addValue_plain h]
  rw [hset, bind_of_ok hrule]
  rfl

/-- The machine where an object has nothing under a key. -/
def erasePlain (m : Machine) (id : Nat) (k : Key) : Machine :=
  m.update id fun o => { o with props := o.props.erase k }

theorem delete_own (h : m.Plain id t ks) (hp : t.get? k = some (.plain v)) :
    delete id k interp m = .ok .done (erasePlain m id k) := by
  have hdelete : delete id k = deleteRule (writing 999) id k := rfl
  rw [hdelete, deleteRule, bind_of_ok (body_plain h)]
  dsimp only
  rw [get_bind, h.own_eq, hp]
  dsimp only
  have hshare : unshare id k interp m = .ok () m := by
    rw [unshare, bind_of_ok (body_plain h)]
    cases k <;> rfl
  have hkept : (!(Property.plain v).configurable) = false := rfl
  rw [hkept, if_neg Bool.false_ne_true, bind_of_ok hshare]
  rfl

/-! ## Enumerating -/

theorem keysOf_plain (h : m.Plain id t ks) : keysOf id interp m = .ok t.keys m := by
  have hkeys : keysOf id = keysRule (writing 999) id := rfl
  have hown : m.ownKeys id = t.keys := by
    unfold Machine.ownKeys
    rw [h.obj]
  rw [hkeys, keysRule, bind_of_ok (body_plain h)]
  dsimp only
  rw [get_bind, hown, List.filter_eq_self.2 fun _ _ => rfl]
  rfl

/-- The enumerable names of a plain object are all its keys but the symbols. -/
theorem selectKeys_plain (h : m.Plain id t ks)
    (hp : ∀ k ∈ t.keys, ∃ v, t.get? k = some (.plain v)) :
    selectKeys id true false false true interp m =
      .ok (t.keys.filter fun k => !k.isSymbol) m := by
  rw [selectKeys, bind_of_ok (keysOf_plain h), get_bind]
  refine (filterM_of_ok (q := fun _ => true) fun k hk => ?_).trans
    (congrArg (EStateM.Result.ok · m) ?_)
  · obtain ⟨v, hv⟩ := hp k (List.mem_filter.1 hk).1
    rw [bind_of_ok (ownProperty_own h hv)]
    rfl
  · rw [List.filter_eq_self.2 fun _ _ => rfl]
    refine List.filter_congr fun k _ => ?_
    cases k <;> simp [Key.isSymbol]

theorem hasOwn_own (h : m.Plain id t ks) (hp : t.get? k = some (.plain v)) :
    hasOwn id k interp m = .ok true m := by
  rw [hasOwn, bind_of_ok (ownProperty_own h hp)]
  rfl

theorem hasOwn_beyond (h : m.Plain id t ks) (hp : t.get? k = none) :
    hasOwn id k interp m = .ok false m := by
  rw [hasOwn, bind_of_ok (ownProperty_beyond h hp)]
  rfl

end Eval

end ScriptHost
