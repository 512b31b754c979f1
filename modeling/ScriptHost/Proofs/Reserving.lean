import ScriptHost.Client.Allocation
import ScriptHost.Proofs.Labels
import ScriptHost.Proofs.PlainObjects
import ScriptHost.Proofs.ScriptThrows
/-!
# What the engine of scripts refuses

Before the engine makes something new it makes sure that there is room.  If there is none it throws
an error, which is an object, so what it refuses is always told by what is pending.  Without a limit
on memory the only thing that it refuses is a text that is too long.
-/

namespace ScriptHost

namespace Eval

variable {α β : Type}

/-! ## What is given and what is thrown -/

/-- A computation gives something of a kind or throws an object. -/
def Gives (x : Eval α) (Q : α → Prop) : Prop :=
  ∀ interp m, match x interp m with
    | .ok a _ => Q a
    | .error v _ => ∃ id, v = .object id

theorem Gives.pure {a : α} {Q : α → Prop} (ha : Q a) : Gives (Pure.pure a) Q := fun _ _ => ha

theorem Gives.bind {x : Eval α} {f : α → Eval β} {Q : α → Prop} {Q' : β → Prop} (hx : Gives x Q)
    (hf : ∀ a, Q a → Gives (f a) Q') : Gives (x >>= f) Q' := by
  intro interp m
  change match EStateM.bind (x interp) (fun a => f a interp) m with
    | .ok b _ => Q' b
    | .error v _ => ∃ id, v = .object id
  -- What is thrown first is thrown in the end.
  have hfirst := hx interp m
  unfold EStateM.bind
  cases hxm : x interp m with
  | ok a m' =>
      rw [hxm] at hfirst
      exact hf a hfirst interp m'
  | error v m' =>
      rw [hxm] at hfirst
      exact hfirst

theorem raise_gives (kind : ErrorKind) (message : String) {Q : α → Prop} :
    Gives (raise kind message) Q := by
  intro interp m
  exact ⟨_, rfl⟩

theorem outOfMemory_gives {Q : α → Prop} : Gives (outOfMemory) Q := by
  intro interp m
  exact ⟨_, rfl⟩

/-! ## Making sure that there is room -/

theorem get_gives : Gives (get : Eval Machine) fun _ => True := fun _ _ => trivial

theorem modify_gives (f : Machine → Machine) : Gives (modify f : Eval Unit) fun _ => True :=
  fun _ _ => trivial

/-- Without a limit there is always room. -/
theorem reserve_unlimited (n : Nat) {interp : Interp} {m : Machine}
    (hunlimited : m.limits.memory = none) : reserve n interp m = .ok () m := by
  unfold reserve
  rw [get_bind, hunlimited]
  rfl

theorem reserve_gives (n : Nat) : Gives (reserve n) fun _ => True := by
  unfold reserve
  refine get_gives.bind fun m _ => ?_
  -- An error is thrown only when counting afresh has found no room either.
  split
  · refine get_gives.bind fun m _ => ?_
    split
    · refine (modify_gives _).bind fun _ _ => get_gives.bind fun m _ => ?_
      split
      · exact outOfMemory_gives
      · exact Gives.pure trivial
    · exact Gives.pure trivial
  · exact Gives.pure trivial

theorem reserveText_gives (n : Nat) : Gives (reserveText n) fun _ => True := by
  unfold reserveText
  refine (reserve_gives n).bind fun _ _ => get_gives.bind fun m _ => ?_
  split
  · refine (modify_gives _).bind fun _ _ => get_gives.bind fun m _ => ?_
    split
    · exact (modify_gives _).bind fun _ _ => get_gives.bind fun m _ => reserve_gives _
    · exact Gives.pure trivial
  · exact Gives.pure trivial

/-! ## Making something new -/

theorem checkedText_gives (size : Nat) (t : Unit → Text) :
    Gives (checkedText size t) fun v => v ≠ .exception := by
  unfold checkedText
  split
  · exact (raise_gives _ _).bind fun (_ : Unit) (h : False) => h.elim
  · exact (reserveText_gives size).bind fun _ _ => Gives.pure nofun

/-- A text that is not too long is given. -/
theorem checkedText_unlimited {size : Nat} (t : Unit → Text) (hfits : ¬size > textLimit)
    {interp : Interp} {m : Machine} (hunlimited : m.limits.memory = none) :
    ∃ v m', checkedText size t interp m = .ok v m' := by
  have hreserve : reserveText size interp m = .ok () m := by
    unfold reserveText
    rw [bind_of_ok (reserve_unlimited size hunlimited), get_bind, hunlimited]
    rfl
  refine ⟨.string (t ()), m, ?_⟩
  unfold checkedText
  rw [if_neg hfits]
  exact (bind_of_ok hreserve).trans rfl

/-- One that is too long is not. -/
theorem checkedText_long {size : Nat} (t : Unit → Text) (hlong : size > textLimit)
    {interp : Interp} {m : Machine} : ∃ m', checkedText size t interp m =
      .error (.object m.heap.size) m' := by
  unfold checkedText
  rw [if_pos hlong]
  exact ⟨_, rfl⟩

theorem newObject_gives : Gives (do
    reserve 64
    pure (.object (← newObject))) fun v : Value => v ≠ .exception := by
  refine (reserve_gives 64).bind fun _ _ => ?_
  intro interp m
  exact nofun

theorem newObject_unlimited {interp : Interp} {m : Machine} (hunlimited : m.limits.memory = none) :
    ∃ v m', (do
      reserve 64
      pure (Value.object (← newObject))) interp m = .ok v m' :=
  ⟨_, _, (bind_of_ok (reserve_unlimited 64 hunlimited)).trans rfl⟩

theorem newArray_gives : Gives (do
    reserve 64
    newArray #[]) fun v : Value => v ≠ .exception := by
  refine (reserve_gives 64).bind fun _ _ => ?_
  intro interp m
  exact nofun

theorem newArray_unlimited {interp : Interp} {m : Machine} (hunlimited : m.limits.memory = none) :
    ∃ v m', (do
      reserve 64
      newArray #[]) interp m = .ok v m' :=
  ⟨_, _, (bind_of_ok (reserve_unlimited 64 hunlimited)).trans rfl⟩

end Eval

namespace ScriptEngine

open Eval (Gives)

/-- If a computation comes to its end the host is given a value, and if not the sentinel, and what
was thrown is pending. -/
theorem runValue_ends {x : Eval Value} (hx : Gives x fun v => v ≠ .exception) {r : RealmId}
    {e : ScriptEngine} :
    ((runValue r x e).1 = .exception → (runValue r x e).2.pending.isSome) ∧
      ((runValue r x e).1 = .exception ↔
        ¬∃ v m, x (Eval.interp Builtin.supply depthLimit)
          { e.machine with realm := r, calls := [], stackUsed := 0 } = .ok v m) := by
  obtain ⟨machine, pending, ledger, queue⟩ := e
  have hends := hx (Eval.interp Builtin.supply depthLimit)
    { machine with realm := r, calls := [], stackUsed := 0 }
  unfold runValue run
  dsimp only
  split at hends
  next v m' hrun =>
    rw [hrun]
    exact ⟨fun hnone => absurd hnone hends, fun hnone => absurd hnone hends,
      fun hnever => absurd ⟨v, m', rfl⟩ hnever⟩
  next v m' hrun =>
    rw [hrun]
    obtain ⟨id, rfl⟩ := hends
    exact ⟨fun _ => rfl, fun _ => nofun, fun _ => rfl⟩

/-- The engine of scripts throws whatever it refuses to make. -/
theorem refusing : Refusing ScriptEngine.pending where
  throws := by
    intro q e hq hfails
    have hpending : (Engine.answer q e).state.pending = (core q e).2.pending := answer_pending q e
    rw [hpending]
    cases q with
    | newText r s => exact (runValue_ends (Eval.checkedText_gives _ _)).1 (eq_of_beq hfails)
    | newObject r => exact (runValue_ends Eval.newObject_gives).1 (eq_of_beq hfails)
    | newArray r => exact (runValue_ends Eval.newArray_gives).1 (eq_of_beq hfails)
    -- Big integers and keys need no room.
    | newBig r n => cases hfails
    | keyOfText r s =>
        have hkey : (Key.ofText (Text.ofString s)).isNull = true := hfails
        rw [Key.isNull_ofText] at hkey
        cases hkey
    | keyOfIndex r n =>
        have hkey : (Key.ofNat n.toNat).isNull = true := hfails
        rw [Key.ofNat_eq_ofText, Key.isNull_ofText] at hkey
        cases hkey
    | _ => cases hq

/-- Without a limit on memory, nothing but a text that is too long is refused. -/
theorem refuses_iff_of_unlimited {q : Request} (hq : q.isAllocation) {e : ScriptEngine}
    (hunlimited : e.machine.limits.memory = none) :
    q.fails (Engine.answer q e).reply = true ↔
      ∃ r s, q = .newText r s ∧ Eval.textLimit < (Text.ofString s).size := by
  -- Keys and big integers are always given, and without a limit there is room for anything.
  cases q with
  | newText r s =>
      have hfails : Request.fails (.newText r s) (Engine.answer (.newText r s) e).reply = true ↔
          (runValue r (Eval.checkedText (Text.ofString s).size fun _ => Text.ofString s) e).1 =
            .exception := beq_iff_eq
      rw [hfails, (runValue_ends (Eval.checkedText_gives _ _)).2]
      refine ⟨fun hnever => ⟨r, s, rfl, ?_⟩, ?_⟩
      · by_contra hfits
        exact hnever (Eval.checkedText_unlimited (fun _ => Text.ofString s) hfits hunlimited)
      · rintro ⟨_, _, ⟨⟩, hlong⟩ ⟨v, m, hrun⟩
        obtain ⟨m', hthrown⟩ := Eval.checkedText_long (fun _ => Text.ofString s) hlong
        rw [hthrown] at hrun
        cases hrun
  | newObject r =>
      refine ⟨fun hfails => ?_, nofun⟩
      have hnever := (runValue_ends Eval.newObject_gives).2.1 (eq_of_beq hfails)
      exact (hnever (Eval.newObject_unlimited hunlimited)).elim
  | newArray r =>
      refine ⟨fun hfails => ?_, nofun⟩
      have hnever := (runValue_ends Eval.newArray_gives).2.1 (eq_of_beq hfails)
      exact (hnever (Eval.newArray_unlimited hunlimited)).elim
  | newBig r n => exact ⟨nofun, nofun⟩
  | keyOfText r s =>
      have hkey : Request.fails (.keyOfText r s) (Engine.answer (.keyOfText r s) e).reply = false :=
        Key.isNull_ofText (Text.ofString s)
      rw [hkey]
      exact ⟨nofun, nofun⟩
  | keyOfIndex r n =>
      have hkey : Request.fails (.keyOfIndex r n) (Engine.answer (.keyOfIndex r n) e).reply =
          false := by
        refine Eq.trans ?_ (Key.isNull_ofText (Key.natText n.toNat))
        rw [← Key.ofNat_eq_ofText]
        rfl
      rw [hkey]
      exact ⟨nofun, nofun⟩
  | _ => cases hq

end ScriptEngine

end ScriptHost
