import ScriptHost.Engine.Access
import ScriptHost.Proofs.Sweeping
/-!
# Plain objects and their prototypes

A walk along prototypes that comes to nothing still does so when objects on the way fade.  So once
the prototypes of a plain object have nothing under some keys, its own properties are all that there
is under these keys, however the object changes and whatever is freed.
-/

namespace ScriptHost

namespace Machine

variable {m m' : Machine} {id j : Nat} {k : Key} {t t' : PropertyTable} {ks : List Key}

/-! ## Walks that come to nothing -/

/-- An object, no proxy, that has not a property of its own. -/
def Lacks (m : Machine) (k : Key) (id : Nat) : Prop :=
  (∀ target handler callable constructs, m.body id ≠ .proxy target handler callable constructs) ∧
    m.own? id k = none

/-- One step of a walk that comes to nothing. -/
theorem findFrom_succ_absent {fuel : Nat} :
    m.findFrom k (fuel + 1) (some id) = .absent ↔
      m.Lacks k id ∧ (m.stopsAt id k ∨ m.findFrom k fuel (m.obj id).proto = .absent) := by
  rw [findFrom]
  split
  next target handler callable constructs hbody =>
    refine ⟨nofun, fun h => ?_⟩
    exact absurd hbody (h.1.1 target handler callable constructs)
  next hbody =>
    cases hown : m.own? id k with
    | some p =>
        refine ⟨nofun, fun h => ?_⟩
        have hnone := h.1.2
        rw [hown] at hnone
        cases hnone
    | none =>
        have hlacks : m.Lacks k id := ⟨hbody, hown⟩
        dsimp only
        cases hstops : m.stopsAt id k with
        | true => exact iff_of_true rfl ⟨hlacks, .inl rfl⟩
        | false =>
            rw [if_neg Bool.false_ne_true]
            exact ⟨fun h => ⟨hlacks, .inr h⟩, fun h => h.2.resolve_left Bool.false_ne_true⟩

/-- A walk comes to nothing elsewhere if each object that lacks the key does so there. -/
theorem findFrom_absent (h : ∀ j, m.Lacks k j → m'.Lacks k j ∧
      ((m'.obj j).proto = none ∨
        (m'.obj j).proto = (m.obj j).proto ∧ (m.stopsAt j k → m'.stopsAt j k)))
    {fuel : Nat} {start : Option Nat} (habsent : m.findFrom k fuel start = .absent) :
    m'.findFrom k fuel start = .absent := by
  induction fuel generalizing start with
  | zero => rfl
  | succ fuel ih =>
      cases start with
      | none => rfl
      | some id =>
          rw [findFrom_succ_absent] at habsent ⊢
          obtain ⟨hlacks, hrest⟩ := habsent
          obtain ⟨hlacks', hnone | ⟨hproto, hstops⟩⟩ := h id hlacks
          · refine ⟨hlacks', .inr ?_⟩
            rw [hnone]
            cases fuel <;> rfl
          · refine ⟨hlacks', hrest.imp hstops fun hrest => ?_⟩
            rw [hproto]
            exact ih hrest

theorem stopsAt_congr (hobj : m'.obj j = m.obj j) : m'.stopsAt j k = m.stopsAt j k := by
  unfold stopsAt body
  rw [hobj]

/-- Whether an object lacks a property can be told from the object, whatever its elements, variables
and exports hold. -/
theorem Lacks.congr (hobj : m'.obj j = m.obj j) (h : m.Lacks k j) : m'.Lacks k j := by
  obtain ⟨hproxy, hown⟩ := h
  have hbody : m'.body j = m.body j := by rw [body, body, hobj]
  refine ⟨by rwa [hbody], ?_⟩
  clear hproxy hbody
  -- What a body holds elsewhere decides what is read, not whether there is something.
  unfold own? at hown ⊢
  dsimp only at hown ⊢
  rw [hobj]
  cases hbody : (m.obj j).body with
  | typed v =>
      rw [hbody] at hown
      cases k with
      | index n =>
          rw [Option.map_eq_none_iff] at hown ⊢
          unfold element? at hown ⊢
          by_cases hn : n < v.count
          · cases hregion : v.region with
            | some r => simp [hn, hregion] at hown
            | none => simp [hn]
          · simp [hn]
      | _ => exact hown
  | arguments cells =>
      rw [hbody] at hown
      cases k with
      | index n =>
          cases hprop : (m.obj j).props.get? (.index n) with
          | none => cases hcell : cells[n]?.join <;> simp [hcell]
          | some p =>
              cases hcell : cells[n]?.join <;> cases hcontent : p.content <;>
                simp [hcell, hprop, hcontent] at hown
      | _ => exact hown
  | module exports =>
      rw [hbody] at hown
      cases k with
      | name t =>
          cases hfind : exports.find? (·.1 == t) with
          | none => simpa [hfind] using hown
          | some e => simp [hfind] at hown
      | _ => exact hown
  | _ =>
      rw [hbody] at hown
      exact hown

/-- The properties of an object that refers to others weakly are those in its table. -/
theorem own_weak (h : (m.body j).isWeak) : m.own? j k = (m.obj j).props.get? k := by
  unfold body at h
  unfold own?
  dsimp only
  cases hbody : (m.obj j).body with
  | weakRef _ | weakMap _ | weakSet _ | registry _ _ _ => rfl
  | _ => simp [hbody, Body.isWeak] at h

/-- Objects that fade get no property and no prototype. -/
theorem Lacks.fades (hfades : (m.obj j).Fades (m'.obj j)) (h : m.Lacks k j) :
    m'.Lacks k j ∧ ((m'.obj j).proto = none ∨
      (m'.obj j).proto = (m.obj j).proto ∧ (m.stopsAt j k → m'.stopsAt j k)) := by
  obtain ⟨o, ho⟩ : ∃ o, o = m'.obj j := ⟨_, rfl⟩
  rw [← ho] at hfades
  cases hfades with
  | same =>
      refine ⟨h.congr ho.symm, .inr ⟨by rw [← ho], fun hstops => ?_⟩⟩
      rwa [stopsAt_congr ho.symm]
  | freed =>
      -- A walk ends at what was freed.
      refine ⟨⟨fun _ _ _ _ hproxy => ?_, ?_⟩, .inl (by rw [← ho])⟩
      · rw [body, ← ho] at hproxy
        cases hproxy
      · unfold own?
        rw [← ho]
        cases k <;> rfl
  | noticed hold hnew =>
      have hweak : (m'.body j).isWeak := by rwa [body, ← ho]
      refine ⟨⟨fun _ _ _ _ hproxy => ?_, ?_⟩, .inr ⟨by rw [← ho], fun hstops => ?_⟩⟩
      · rw [hproxy] at hweak
        cases hweak
      · rw [own_weak hweak, ← ho, ← own_weak hold, h.2]
      · -- Only typed arrays answer alone.
        unfold stopsAt body at hstops
        cases hbody : (m.obj j).body with
        | typed _ =>
            rw [hbody] at hold
            cases hold
        | _ =>
            rw [hbody] at hstops
            cases hstops

/-- A walk that comes to nothing does so when objects have faded. -/
theorem Fades.find_absent (hfades : m.Fades id m') {start : Option Nat}
    (h : m.find k start = .absent) : m'.find k start = .absent := by
  unfold find at h ⊢
  rw [hfades.size]
  exact findFrom_absent (fun j hlacks => hlacks.fades (hfades.fades j)) h

/-! ## Plain objects -/

/-- A machine where an object has no properties of its own. -/
def blanked (m : Machine) (id : Nat) : Machine := m.update id fun o => { o with props := {} }

/-- A plain object with a table of properties, whose prototypes have none under some keys. -/
structure Plain (m : Machine) (id : Nat) (t : PropertyTable) (ks : List Key) : Prop where
  bound : id < m.heap.size
  obj : m.obj id = { proto := (m.obj id).proto, props := t }
  beyond : ∀ k ∈ ks, (m.blanked id).find k (some id) = .absent

theorem obj_blanked : (m.blanked id).obj j =
    if id = j ∧ id < m.heap.size then { m.obj j with props := {} } else m.obj j :=
  obj_update m id j _

namespace Plain

theorem body_eq (h : m.Plain id t ks) : m.body id = .ordinary := by rw [body, h.obj]

theorem props_eq (h : m.Plain id t ks) : (m.obj id).props = t := by rw [h.obj]

theorem own_eq (h : m.Plain id t ks) : m.own? id k = t.get? k := by
  unfold own?
  rw [h.obj]

/-- What a plain object has is found there. -/
theorem find_own (h : m.Plain id t ks) {p : Property} (hp : t.get? k = some p) :
    m.find k (some id) = .property id p := by
  unfold find
  rw [findFrom, h.body_eq]
  dsimp only
  rw [h.own_eq, hp]

/-- What it has not is not found. -/
theorem find_beyond (h : m.Plain id t ks) (hk : k ∈ ks) (hp : t.get? k = none) :
    m.find k (some id) = .absent := by
  have hbeyond := h.beyond k hk
  unfold find at hbeyond ⊢
  rw [show (m.blanked id).heap.size = m.heap.size from by simp [blanked, update]] at hbeyond
  refine findFrom_absent (fun j hlacks => ?_) hbeyond
  -- The walk was made with the object blanked, which lacks the key as the object does.
  by_cases hj : id = j
  · subst hj
    have hbody : (m.blanked id).body id = m.body id := by
      rw [body, obj_blanked, if_pos ⟨rfl, h.bound⟩]
      rfl
    refine ⟨⟨fun target handler callable constructs => ?_, ?_⟩, .inr ⟨?_, fun hstops => ?_⟩⟩
    · simp [h.body_eq]
    · rw [h.own_eq, hp]
    · rw [obj_blanked, if_pos ⟨rfl, h.bound⟩]
    · unfold stopsAt at hstops ⊢
      rwa [hbody] at hstops
  · have hobj : (m.blanked id).obj j = m.obj j := by rw [obj_blanked, if_neg fun h => hj h.1]
    refine ⟨hlacks.congr hobj.symm, .inr ⟨by rw [hobj], fun hstops => ?_⟩⟩
    rwa [← stopsAt_congr hobj]

/-- A plain object stays one when others fade. -/
theorem fades (h : m.Plain id t ks) (hfades : m.Fades id m') : m'.Plain id t ks := by
  refine ⟨hfades.size ▸ h.bound, ?_, fun k hk => ?_⟩
  · rw [hfades.kept]
    exact h.obj
  · have hblanked : (m.blanked id).Fades id (m'.blanked id) := by
      refine ⟨by simp [blanked, update, hfades.size], ?_, fun j => ?_⟩
      · rw [obj_blanked, obj_blanked, hfades.kept, hfades.size]
      · rw [obj_blanked, obj_blanked, hfades.size]
        split
        next hj =>
          rw [← hj.1, hfades.kept]
          exact .same
        next => exact hfades.fades j
    exact hblanked.find_absent (h.beyond k hk)

/-- A plain object stays one when its properties change. -/
theorem update_props (h : m.Plain id t ks) {f : Obj → Obj}
    (hf : ∀ o, f o = { o with props := (f o).props }) (ht : (f (m.obj id)).props = t') :
    (m.update id f).Plain id t' ks := by
  have hself : (m.update id f).obj id = f (m.obj id) := by
    rw [obj_update, if_pos ⟨rfl, h.bound⟩]
  refine ⟨by simpa [update] using h.bound, ?_, fun k hk => ?_⟩
  · rw [hself, hf, ht, h.obj]
  · have hblanked : (m.blanked id).Fades id ((m.update id f).blanked id) := by
      have hobj : ∀ j, ((m.update id f).blanked id).obj j = (m.blanked id).obj j := by
        intro j
        rw [obj_blanked, obj_blanked, obj_update]
        have hsize : (m.update id f).heap.size = m.heap.size := by simp [update]
        rw [hsize]
        split
        next => rw [hf]
        next => rfl
      refine ⟨by simp [blanked, update], hobj id, fun j => ?_⟩
      rw [hobj]
      exact .same
    exact hblanked.find_absent (h.beyond k hk)

end Plain

end Machine

end ScriptHost
