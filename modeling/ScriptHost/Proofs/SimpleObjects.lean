import ScriptHost.Engine.Change
import ScriptHost.Proofs.Changes
import ScriptHost.Proofs.TypedArrays
/-!
# Writing and deleting, whatever the properties are like

Among plain objects, and under a key that has no functions to call, a write either comes to one
property of the object or is refused, and a refused write has done no more than make objects that were
not there.  The same goes for asking and deleting.
-/

namespace ScriptHost

namespace Machine

variable {m m' m'' : Machine} {id j : Nat} {k : Key} {p : Property} {ps ids : List Nat}

/-! ## What a walk comes to -/

/-- One step of a walk. -/
theorem IsPlain.findFrom_succ (h : m.IsPlain id) (k : Key) (fuel : Nat) :
    m.findFrom k (fuel + 1) (some id) =
      ((m.obj id).props.get? k).elim (m.findFrom k fuel (m.obj id).proto) (.property id) := by
  rw [findFrom]
  split
  next hproxy => exact absurd hproxy (h.not_proxy _ _ _ _)
  next =>
    rw [h.own_eq]
    cases (m.obj id).props.get? k with
    | some p => rfl
    | none =>
        dsimp only
        rw [h.stopsAt_eq, if_neg Bool.false_ne_true]
        rfl

/-- A walk along plain objects comes to the first property, or to none. -/
theorem find_cases (h : m.Descends id ps) (hid : m.IsPlain id) (k : Key) :
    (∃ j ∈ id :: ps, ∃ p, m.find k (some id) = .property j p ∧ (m.obj j).props.get? k = some p ∧
      m.firstProperty k (id :: ps) = some p ∧ (j = id ∨ (m.obj id).props.get? k = none)) ∨
    (m.find k (some id) = .absent ∧ m.firstProperty k (id :: ps) = none) := by
  unfold find
  have hfuel : ps.length < m.heap.size + 1 := Nat.lt_succ_of_le h.length_le
  -- By induction on the chain of prototypes, which the fuel outlasts.
  generalize m.heap.size + 1 = fuel at hfuel
  induction ps generalizing id fuel with
  | nil =>
      obtain ⟨fuel, rfl⟩ := Nat.exists_eq_succ_of_ne_zero (Nat.ne_zero_of_lt hfuel)
      have hend : (m.obj id).proto = none := h
      rw [hid.findFrom_succ, hend, firstProperty, List.findSome?_cons]
      cases hget : (m.obj id).props.get? k with
      | some p => exact .inl ⟨id, List.mem_cons_self, p, rfl, hget, rfl, .inl rfl⟩
      | none =>
          refine .inr ⟨?_, rfl⟩
          cases fuel <;> rfl
  | cons q qs ih =>
      obtain ⟨fuel, rfl⟩ := Nat.exists_eq_succ_of_ne_zero (Nat.ne_zero_of_lt hfuel)
      rw [hid.findFrom_succ, h.1, firstProperty, List.findSome?_cons]
      cases hget : (m.obj id).props.get? k with
      | some p => exact .inl ⟨id, List.mem_cons_self, p, rfl, hget, rfl, .inl rfl⟩
      | none =>
          rcases ih h.2.2 h.2.1 fuel (Nat.lt_of_succ_lt_succ hfuel) with
            ⟨j, hj, p, hfind, hp, hfirst, -⟩ | ⟨hfind, hfirst⟩
          · exact .inl ⟨j, List.mem_cons_of_mem id hj, p, hfind, hp, hfirst, .inr rfl⟩
          · exact .inr ⟨hfind, hfirst⟩

/-! ## Machines that grow -/

/-- What becomes of a machine when objects are made that show no memory, and prototypes of functions
among them. -/
structure Grows (m m' : Machine) : Prop where
  size : m.heap.size ≤ m'.heap.size
  body : ∀ id < m.heap.size, m'.body id = m.body id
  proto : ∀ id < m.heap.size, (m'.obj id).proto = (m.obj id).proto
  extensible : ∀ id < m.heap.size, (m'.obj id).extensible = (m.obj id).extensible
  new : ∀ id, m.heap.size ≤ id → (m'.body id).isNew
  get : ∀ id < m.heap.size, ∀ k, (m'.obj id).props.get? k = (m.obj id).props.get? k ∨ m.IsPlain id ∧
    Option.Rel Property.Settles ((m.obj id).props.get? k) ((m'.obj id).props.get? k)
  cells : m'.cells = m.cells
  regions : m'.regions = m.regions
  realms : m'.realms = m.realms
  realm : m'.realm = m.realm

namespace Grows

/-- Beyond the heap there are blank objects, which show nothing. -/
theorem refl (m : Machine) : m.Grows m := by
  have hnew : ∀ id, m.heap.size ≤ id → m.body id = .ordinary := by
    intro id hid
    by_contra hbody
    exact absurd (lt_of_body hbody) (Nat.not_lt.2 hid)
  refine ⟨Nat.le_refl _, fun _ _ => rfl, fun _ _ => rfl, fun _ _ => rfl, fun id hid => ?_,
    fun _ _ _ => .inl rfl, rfl, rfl, rfl, rfl⟩
  rw [hnew id hid]
  rfl

variable (h : m.Grows m')
include h

theorem isPlain (hid : m.IsPlain id) : m'.IsPlain id := by
  refine ⟨hid.1.trans_le h.size, ?_⟩
  rw [h.body id hid.1]
  exact hid.2

theorem rel (hid : id < m.heap.size) (k : Key) :
    Option.Rel Property.Settles ((m.obj id).props.get? k) ((m'.obj id).props.get? k) := by
  rcases h.get id hid k with hsame | ⟨-, hrel⟩
  · rw [hsame]
    exact Property.Settles.rel_refl _
  · exact hrel

theorem trans (h' : m'.Grows m'') : m.Grows m'' where
  size := h.size.trans h'.size
  body id hid := (h'.body id (hid.trans_le h.size)).trans (h.body id hid)
  proto id hid := (h'.proto id (hid.trans_le h.size)).trans (h.proto id hid)
  extensible id hid := (h'.extensible id (hid.trans_le h.size)).trans (h.extensible id hid)
  new id hid := by
    rcases Nat.lt_or_ge id m'.heap.size with hid' | hid'
    · rw [h'.body id hid']
      exact h.new id hid
    · exact h'.new id hid'
  get id hid k := by
    rcases h'.get id (hid.trans_le h.size) k with hsame | ⟨hplain, hrel⟩
    · rw [hsame]
      exact h.get id hid k
    · refine .inr ⟨⟨hid, ?_⟩, Property.Settles.rel_trans (h.rel hid k) hrel⟩
      rw [← h.body id hid]
      exact hplain.2
  cells := h'.cells.trans h.cells
  regions := h'.regions.trans h.regions
  realms := h'.realms.trans h.realms
  realm := h'.realm.trans h.realm

theorem evolves {but : Nat → Key → Prop} : m.Evolves but m' :=
  .of_props h.size h.body h.new h.cells h.regions fun id hid k _ => h.get id hid k

theorem descends (hid : id < m.heap.size) (hps : m.Descends id ps) : m'.Descends id ps := by
  induction ps generalizing id with
  | nil => exact (h.proto id hid).trans hps
  | cons q qs ih => exact ⟨(h.proto id hid).trans hps.1, h.isPlain hps.2.1, ih hps.2.1.1 hps.2.2⟩

/-- What is first under a key stays first. -/
theorem firstProperty (hids : ∀ id ∈ ids, id < m.heap.size) (k : Key) :
    Option.Rel Property.Settles (m.firstProperty k ids) (m'.firstProperty k ids) := by
  induction ids with
  | nil => exact .none
  | cons id ids ih =>
      have hrest := ih fun j hj => hids j (List.mem_cons_of_mem id hj)
      have hrel := h.rel (hids id List.mem_cons_self) k
      unfold Machine.firstProperty at hrest ⊢
      rw [List.findSome?_cons, List.findSome?_cons]
      generalize (m.obj id).props.get? k = o, (m'.obj id).props.get? k = o' at hrel
      cases hrel with
      | none => exact hrest
      | some hp => exact .some hp

theorem showsData (hids : ∀ id ∈ ids, id < m.heap.size) (hdata : m.ShowsData k ids) :
    m'.ShowsData k ids := by
  intro p' hp'
  have hrel := h.firstProperty hids k
  rw [hp'] at hrel
  cases hp : m.firstProperty k ids with
  | none =>
      rw [hp] at hrel
      cases hrel
  | some p =>
      rw [hp] at hrel
      obtain ⟨v, hv, hobject⟩ := hdata p hp
      cases hrel with
      | some hsettles => exact ⟨v, hsettles.value hv, hobject⟩

/-- So type errors are told as before. -/
theorem tellsTypeErrors {r : RealmId} (htells : m.TellsTypeErrors r) : m'.TellsTypeErrors r := by
  intro p hp
  rw [h.realms] at hp
  obtain ⟨ps, hplain, hps, hdata⟩ := htells p hp
  refine ⟨ps, h.isPlain hplain, h.descends hplain.1 hps, fun k hk => h.showsData ?_ (hdata k hk)⟩
  intro id hid
  rcases List.mem_cons.1 hid with rfl | hid
  · exact hplain.1
  · exact (hps.mem_plain id hid).1

end Grows

/-- A new object that shows no memory. -/
theorem grows_withObj {o : Obj} (ho : o.body.isNew) : m.Grows (m.withObj o) := by
  have hobj : ∀ id < m.heap.size, (m.withObj o).obj id = m.obj id :=
    fun id hid => obj_withObj_ne o (Nat.ne_of_lt hid)
  refine ⟨by simp [withObj], fun id hid => congrArg Obj.body (hobj id hid),
    fun id hid => congrArg Obj.proto (hobj id hid), fun id hid => congrArg Obj.extensible (hobj id hid),
    fun id hid => ?_, fun id hid k => .inl (by rw [hobj id hid]), rfl, rfl, rfl, rfl⟩
  by_cases hid' : id = m.heap.size
  · rw [body, hid', obj_withObj]
    exact ho
  · rw [body, obj_withObj_ne o hid']
    exact (Grows.refl m).new id hid

/-- The machine where something was done to the properties of an object. -/
def withProps (m : Machine) (id : Nat) (f : PropertyTable → PropertyTable) : Machine :=
  m.update id fun o => { o with props := f o.props }

theorem obj_withProps (m : Machine) (id j : Nat) (f : PropertyTable → PropertyTable) :
    (m.withProps id f).obj j =
      if id = j ∧ id < m.heap.size then { m.obj j with props := f (m.obj j).props }
      else m.obj j := obj_update m id j _

@[simp] theorem size_withProps (m : Machine) (id : Nat) (f : PropertyTable → PropertyTable) :
    (m.withProps id f).heap.size = m.heap.size := by simp [withProps, update]

theorem body_withProps (m : Machine) (id j : Nat) (f : PropertyTable → PropertyTable) :
    (m.withProps id f).body j = m.body j := by
  rw [body, obj_withProps]
  split <;> rfl

theorem isPlain_withProps (h : m.IsPlain j) (f : PropertyTable → PropertyTable) :
    (m.withProps id f).IsPlain j := by
  refine ⟨?_, ?_⟩
  · rw [size_withProps]
    exact h.1
  · rw [body_withProps]
    exact h.2

/-- The machine where an object has a property under a key. -/
abbrev putAt (m : Machine) (id : Nat) (k : Key) (p : Property) : Machine :=
  m.withProps id (·.put k p)

/-- The machine where an object has no property under a key. -/
abbrev eraseAt (m : Machine) (id : Nat) (k : Key) : Machine := m.withProps id (·.erase k)

/-- A property put on an object that is new, or in the place of one that it comes from. -/
theorem Grows.putAt (h : m.Grows m') (hput : id < m.heap.size →
      m.IsPlain id ∧ ∃ p₀, (m.obj id).props.get? k = some p₀ ∧ p₀.Settles p) :
    m.Grows (m'.putAt id k p) := by
  refine ⟨?_, fun j hj => (body_withProps ..).trans (h.body j hj), fun j hj => ?_, fun j hj => ?_,
    fun j hj => ?_, fun j hj k' => ?_, h.cells, h.regions, h.realms, h.realm⟩
  · simpa using h.size
  · rw [obj_withProps, ← h.proto j hj]
    split <;> rfl
  · rw [obj_withProps, ← h.extensible j hj]
    split <;> rfl
  · rw [body_withProps]
    exact h.new j hj
  · rw [obj_withProps]
    split
    -- Only this property of this object is another one.
    next hid =>
      obtain ⟨rfl, hlt⟩ := hid
      obtain ⟨hplain, p₀, hp₀, hsettles⟩ := hput hj
      dsimp only
      rw [PropertyTable.get_put]
      split
      next hk =>
        refine .inr ⟨hplain, ?_⟩
        rw [hk, hp₀]
        exact .some hsettles
      next => exact h.get _ hj k'
    next => exact h.get j hj k'

end Machine

namespace Eval

open Machine (Grows Simple)

variable {I : Interp} {m m' : Machine} {id j : Nat} {k : Key} {p : Property} {ps : List Nat}
  {v : Value}

/-- Raising an error makes the object of the error. -/
theorem raised_grows (m : Machine) (kind : ErrorKind) (message : Text) :
    m.Grows (raised m kind message) := by
  have hobj : m.Grows (m.withObj { body := .error, proto := m.intrinsic? (errorIntrinsic kind) }) :=
    Machine.grows_withObj rfl
  exact (hobj.putAt fun hid => absurd hid (Nat.lt_irrefl _)).putAt
    fun hid => absurd hid (Nat.lt_irrefl _)

/-- What is found with a plain object is a value, at the latest when it was looked at. -/
theorem settleOwn_grows (hplain : m.IsPlain j) (hp : (m.obj j).props.get? k = some p)
    (hdata : ∀ getter setter, p.content ≠ .accessor getter setter) :
    ∃ v w m', settleOwn j k p I m = .ok { p with content := .data v w } m' ∧ m.Grows m' := by
  rcases hcontent : p.content with ⟨v, w⟩ | ⟨getter, setter⟩ | _
  · have hsettle : settleOwn j k p I m = .ok p m := by
      rw [settleOwn, hcontent]
      rfl
    refine ⟨v, w, m, ?_, .refl m⟩
    rw [hsettle, ← hcontent]
  · exact absurd hcontent (hdata getter setter)
  · -- The prototype is a new object that knows the function.
    obtain ⟨proto, hproto⟩ : ∃ proto : Option Nat, settleOwn j k p I m =
        .ok { p with content := .data (.object m.heap.size) true }
          (((m.withObj { body := .ordinary, proto := proto }).putAt m.heap.size
            (Key.str "constructor") (.hidden (.object j))).putAt j k
              { p with content := .data (.object m.heap.size) true }) := by
      rw [settleOwn, hcontent]
      exact ⟨_, rfl⟩
    refine ⟨_, _, _, hproto, ?_⟩
    have hobj : m.Grows (m.withObj { body := .ordinary, proto := proto }) :=
      Machine.grows_withObj rfl
    exact (hobj.putAt fun hid => absurd hid (Nat.lt_irrefl _)).putAt
      fun _ => ⟨hplain, p, hp, .made hcontent⟩

/-! ## Own properties -/

theorem body_eq (id : Nat) : body id I m = .ok (m.body id) m := rfl

/-- A computation may be replaced by one that is the same. -/
theorem run_congr {α : Type} {x y : Eval α} {r : EStateM.Result Value Machine α} (h : x = y)
    (hy : y I m = r) : x I m = r := by rw [h, hy]

theorem writeShared_simple (h : m.IsPlain id) : writeShared id k v I m = .ok () m := by
  rw [writeShared, bind_of_ok (body_eq id)]
  refine run_congr (y := pure ()) ?_ rfl
  split
  next cells n hbody =>
    have hplain := h.2
    rw [hbody] at hplain
    cases hplain
  next => rfl

theorem replaceValue_simple (h : m.IsPlain id) (harray : m.body id ≠ .array) :
    replaceValue id k p v I m =
      .ok .done (m.putAt id k { p with content := .data v true }) := by
  have hwrite : (do
      writeShared id k v
      Mem.putProperty id k { p with content := .data v true }
      pure Change.done : Eval Change) I m =
        .ok .done (m.putAt id k { p with content := .data v true }) := by
    rw [bind_of_ok (writeShared_simple h)]
    rfl
  have hplain := h.2
  rw [replaceValue, bind_of_ok (body_eq id)]
  refine run_congr ?_ hwrite
  -- Other ways to store a value are for the bodies that a plain object does not have.
  split
  next t i hbody =>
    rw [hbody] at hplain
    cases hplain
  next exports t hbody =>
    rw [hbody] at hplain
    cases hplain
  next t hbody => exact absurd hbody harray
  next => rfl

/-- A property is added unless the object is closed. -/
theorem addProperty_simple (harray : m.body id ≠ .array) :
    addProperty id k p I m = if (m.obj id).extensible then .ok .done (m.putAt id k p)
      else .ok (.refused (txt "object is not extensible")) m := by
  rw [addProperty, get_bind]
  cases (m.obj id).extensible with
  | false => rfl
  | true =>
      refine run_congr (y := do
        Mem.putProperty id k p
        pure Change.done) ?_ rfl
      rw [Bool.not_true, if_neg Bool.false_ne_true]
      split
      next n hbody => exact absurd hbody harray
      next => rfl

theorem addValue_simple (h : m.IsPlain id) (harray : m.body id ≠ .array) :
    addValue (writing 999) (.object id) k v I m =
      if (m.obj id).extensible then .ok .done (m.putAt id k (.plain v))
      else .ok (.refused (txt "object is not extensible")) m := by
  rw [addValue, bind_of_ok (body_eq id)]
  refine run_congr ?_ (addProperty_simple harray)
  split
  next t hd c b hbody => exact absurd hbody (h.not_proxy t hd c b)
  next exports hbody =>
    have hplain := h.2
    rw [hbody] at hplain
    cases hplain
  next => rfl

/-! ## Writing -/

/-- What a write comes to: it is refused, or the object has the value. -/
inductive Wrote (m : Machine) (id : Nat) (k : Key) (v : Value) : Change → Machine → Prop
  | refused {m' : Machine} (reason : Text) (h : m.Grows m') : Wrote m id k v (.refused reason) m'
  | done {m' : Machine} (h : m.Grows m') : Wrote m id k v .done
      (m'.putAt id k { ((m.obj id).props.get? k).getD (.plain v) with content := .data v true })

/-- A value that is added where there is nothing. -/
theorem addValue_wrote (h : m.IsPlain id) (harray : m.body id ≠ .array)
    (hnone : (m.obj id).props.get? k = none) (hgrows : m.Grows m') :
    ∃ c m'', addValue (writing 999) (.object id) k v I m' = .ok c m'' ∧ Wrote m id k v c m'' := by
  have harray' : m'.body id ≠ .array := by rwa [hgrows.body id h.1]
  rw [addValue_simple (hgrows.isPlain h) harray']
  split
  · refine ⟨_, _, rfl, ?_⟩
    have hdone : Wrote m id k v .done _ := .done hgrows
    rwa [hnone] at hdone
  · exact ⟨_, _, rfl, .refused _ hgrows⟩

/-- A plain object is no typed array, which would be asked first. -/
theorem match_typed {β : Type} (h : m.IsPlain id) (f : TypedView → β) (b : β) :
    (match m.body id with
      | .typed t => f t
      | _ => b) = b := by
  have hplain := h.2
  split
  next t hbody =>
    rw [hbody] at hplain
    cases hplain
  next => rfl

/-- Assignment where a value was found: it is left alone, replaced or covered. -/
theorem setRule_found {w : Writing} {writable : Bool} {old : Value} (h : m.IsPlain id)
    (hfind : m.find k (some id) = .property j p)
    (hsettle : settleOwn j k p I m = .ok { p with content := .data old writable } m') :
    setRule w id k v (.object id) I m =
      (if writable then
        if j = id then replaceValue id k { p with content := .data old writable } v
        else addValue w (.object id) k v
      else readOnly k) I m' := by
  rw [setRule, get_bind, hfind]
  dsimp only
  refine (congrArg (fun x : Eval Change => x I m) (match_typed h _ _)).trans ?_
  rw [bind_of_ok hsettle]
  cases writable with
  | false => rfl
  | true =>
      dsimp only
      rw [if_pos rfl]
      by_cases hj : j = id
      · rw [if_pos hj, hj, if_pos (beq_self_eq_true _)]
      · have hne : (Value.object id == Value.object j) = false := by simpa using Ne.symm hj
        rw [if_neg hj, hne, if_neg Bool.false_ne_true, if_pos (beq_self_eq_true _)]

/-- Assignment where nothing was found. -/
theorem setRule_absent {w : Writing} (h : m.IsPlain id) (hfind : m.find k (some id) = .absent) :
    setRule w id k v (.object id) I m = addValue w (.object id) k v I m := by
  rw [setRule, get_bind, hfind]
  dsimp only
  refine (congrArg (fun x : Eval Change => x I m) (match_typed h _ _)).trans ?_
  rw [if_pos (beq_self_eq_true _)]

/-- Assignment is refused or puts the value under the key. -/
theorem setFor_wrote (h : m.Simple k id ps) (v : Value) :
    ∃ c m', setFor id k v (.object id) I m = .ok c m' ∧ Wrote m id k v c m' := by
  have hset : setFor id k v (.object id) = setRule (writing 999) id k v (.object id) := rfl
  rw [hset]
  rcases Machine.find_cases h.descends h.plain k with
    ⟨j, hj, p, hfind, hp, -, hown⟩ | ⟨hfind, hnone⟩
  · have hplain : m.IsPlain j := by
      rcases List.mem_cons.1 hj with rfl | hj
      · exact h.plain
      · exact h.descends.mem_plain j hj
    -- A property that is found first is settled, and it refuses if it is not writable.
    obtain ⟨old, writable, m', hsettle, hgrows⟩ :=
      settleOwn_grows (I := I) hplain hp (h.noAccessor j hj p hp)
    rw [setRule_found h.plain hfind hsettle]
    cases writable with
    | false => exact ⟨_, m', rfl, .refused _ hgrows⟩
    | true =>
        rw [if_pos rfl]
        -- The value is put in the place of an own property; one that is inherited is covered by a
        -- new one.
        split
        next hj =>
          subst hj
          have harray : m'.body j ≠ .array := by
            rw [hgrows.body j hplain.1]
            exact h.noArray
          refine ⟨_, _, replaceValue_simple (hgrows.isPlain hplain) harray, ?_⟩
          have hdone : Wrote m j k v .done _ := .done hgrows
          rwa [hp] at hdone
        next hj => exact addValue_wrote h.plain h.noArray (hown.resolve_left hj) hgrows
  · have hown : (m.obj id).props.get? k = none := by
      rw [Machine.firstProperty, List.findSome?_cons] at hnone
      cases hget : (m.obj id).props.get? k with
      | none => rfl
      | some p =>
          rw [hget] at hnone
          cases hnone
    rw [setRule_absent h.plain hfind]
    exact addValue_wrote h.plain h.noArray hown (.refl m)

/-! ## Asking and deleting -/

theorem hasProperty_simple (h : m.Simple k id ps) :
    hasProperty id k I m = .ok (m.firstProperty k (id :: ps)).isSome m := by
  have hhas : hasProperty id k = hasRule (reading 999) id k := rfl
  rw [hhas, hasRule, get_bind]
  rcases Machine.find_cases h.descends h.plain k with ⟨j, -, p, hfind, -, hfirst, -⟩ | ⟨hfind, hnone⟩
  · rw [hfind, hfirst]
    rfl
  · rw [hfind, hnone]
    rfl

/-- An own property that is asked for may be settled by that. -/
theorem hasOwn_simple (h : m.Simple k id ps) : ∃ m',
    hasOwn id k I m = .ok ((m.obj id).props.get? k).isSome m' ∧ m.Grows m' := by
  have hrule : ownProperty id k = ownRule (reading 999) id k := rfl
  have hplain : ownProperty id k I m = ownPlain id k I m := by
    rw [hrule, ownRule, bind_of_ok (body_eq id)]
    refine run_congr ?_ rfl
    split
    next t hd c b hbody => exact absurd hbody (h.plain.not_proxy t hd c b)
    next => rfl
  rw [ownPlain, get_bind, h.plain.own_eq] at hplain
  rw [hasOwn]
  -- What is there is settled by being looked at.
  cases hp : (m.obj id).props.get? k with
  | none =>
      rw [hp] at hplain
      exact ⟨m, bind_of_ok hplain, .refl m⟩
  | some p =>
      obtain ⟨v, w, m', hsettle, hgrows⟩ := settleOwn_grows (I := I) h.plain hp
        (h.noAccessor id List.mem_cons_self p hp)
      rw [hp] at hplain
      dsimp only at hplain
      rw [bind_of_ok hsettle] at hplain
      have hown : ownProperty id k I m =
          .ok (some { p with content := .data v w }) m' := hplain
      refine ⟨m', ?_, hgrows⟩
      rw [bind_of_ok hown]
      rfl

/-- An own property is taken off, unless it must stay. -/
theorem delete_simple (h : m.IsPlain id) (hp : (m.obj id).props.get? k = some p) :
    delete id k I m =
      if p.configurable then .ok .done (m.eraseAt id k)
      else .ok (.refused (txt "could not delete property")) m := by
  have hplain := h.2
  -- A plain object shares no cells with a frame.
  have hunshare : unshare id k I m = .ok () m := by
    rw [unshare, bind_of_ok (body_eq id)]
    refine run_congr (y := pure ()) ?_ rfl
    split
    next cells n hbody =>
      rw [hbody] at hplain
      cases hplain
    next => rfl
  have hrule : delete id k = deleteRule (writing 999) id k := rfl
  have hrest : delete id k I m = (if !p.configurable then refuse "could not delete property"
      else do
        unshare id k
        modify fun m => m.eraseAt id k
        pure .done : Eval Change) I m := by
    have hown : m.own? id k = some p := (h.own_eq k).trans hp
    rw [hrule, deleteRule, bind_of_ok (body_eq id)]
    cases hbody : m.body id with
    | proxy t hd c b => exact absurd hbody (h.not_proxy t hd c b)
    | typed t =>
        rw [hbody] at hplain
        cases hplain
    | _ =>
        dsimp only
        rw [get_bind, hown]
        rfl
  rw [hrest]
  cases p.configurable with
  | false => rfl
  | true =>
      rw [Bool.not_true, if_neg Bool.false_ne_true, if_pos rfl, bind_of_ok hunshare]
      rfl

end Eval

end ScriptHost
