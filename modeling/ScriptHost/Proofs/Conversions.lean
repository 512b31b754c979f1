import ScriptHost.Proofs.Construction
import ScriptHost.Proofs.Rounding
/-!
# Numbers that are made and read back

A number that the host makes of an integer is the nearest number of double precision.  What it reads of
a number as an integer is the number without its fraction, modulo a power of two.  Neither depends on
what else the host and its engine are like.
-/

namespace ScriptHost

open Accounting (bind_ok live_ok ask_eq)

/-! ## Results that depend on nothing -/

namespace Host

variable {c : ContextId} {α : Type} {a : α}

/-- What an action gives wherever a context is live. -/
def Delivers (c : ContextId) (x : Action ScriptEngine α) (a : α) : Prop :=
  ∀ s : Host ScriptEngine, (Contexts.entry s.contexts c).realm.isSome →
    ∃ s', x s = (.ok a, s') ∧ s'.contexts = s.contexts

/-- What is made in a live context out of nothing else. -/
theorem Delivers.live (f : RealmId → Action ScriptEngine α) (hf : ∀ r, f r = pure a) :
    Delivers c (Host.live c >>= f) a := by
  intro s hlive
  obtain ⟨r, hr⟩ := Option.isSome_iff_exists.1 hlive
  refine ⟨s, ?_, rfl⟩
  rw [bind_ok (live_ok hr), hf]
  rfl

theorem Delivers.pure : Delivers c (Pure.pure a) a := fun s _ => ⟨s, rfl, rfl⟩

/-- What is done next depends on nothing but what was given first. -/
theorem Delivers.bind {β : Type} {b : β} {x : Action ScriptEngine α} {f : α → Action ScriptEngine β}
    (hx : Delivers c x a) (hf : Delivers c (f a) b) : Delivers c (x >>= f) b := by
  intro s hlive
  rcases hx s hlive with ⟨s₁, hrun, hcontexts⟩
  rcases hf s₁ (by rw [hcontexts]; exact hlive) with ⟨s', hrun', hcontexts'⟩
  exact ⟨s', (bind_ok hrun).trans hrun', hcontexts'.trans hcontexts⟩

theorem Delivers.ensuring {x : Action ScriptEngine α} {last : Action ScriptEngine Unit}
    (hx : Delivers c x a) (hlast : Delivers c last ()) : Delivers c (Host.ensuring x last) a := by
  have htry : Delivers c (tryCatch x fun e => do
      last
      throw e) a := by
    intro s hlive
    rcases hx s hlive with ⟨s', hrun, hcontexts⟩
    exact ⟨s', Accounting.tryCatch_ok hrun, hcontexts⟩
  exact htry.bind (hlast.bind .pure)

/-- What is read off the reply to a single request. -/
theorem Delivers.asked {q : RealmId → Request} {f : ∀ r, (q r).Reply → Action ScriptEngine α}
    (hf : ∀ r e, f r (ScriptEngine.core (q r) e).1 = Pure.pure a) :
    Delivers c (do
      let r ← Host.live c
      let reply ← ask (q r)
      f r reply) a := by
  intro s hlive
  obtain ⟨r, hr⟩ := Option.isSome_iff_exists.1 hlive
  rcases ask_eq (q r) s with ⟨s', hrun, hcontexts, -⟩
  refine ⟨s', ?_, hcontexts⟩
  rw [bind_ok (live_ok hr), bind_ok hrun]
  exact congrFun (hf r s.engine) s'

end Host

namespace ScriptEngine

/-- The result of a computation that depends on nothing. -/
theorem run_fst {α : Type} {y : Eval α} {a : α} (hy : ∀ I m, y I m = .ok a m) (r : RealmId)
    (e : ScriptEngine) : (run r y e).1 = some a := by
  rw [run_reads (hy _ _)]

end ScriptEngine

/-! ## Numbers as the engine holds them -/

namespace Value

/-- A number, held in either way. -/
def IsNumber (v : Value) (d : Float) : Prop :=
  v = .float d ∨ ∃ n : Int32, v = .int n ∧ d = Binary.ofInt n.toInt

theorem ofInt_isNumber (n : ℤ) : (ofInt n).IsNumber (Binary.ofInt n) := by
  unfold ofInt
  split
  next h =>
    have hrange : -2 ^ 31 ≤ n ∧ n < 2 ^ 31 := by simpa [twoTo] using h
    exact .inr ⟨_, rfl, by rw [Int32.toInt_ofInt_of_le (by omega) (by omega)]⟩
  next => exact .inl rfl

end Value

namespace Binary

/-- An integer of 32 bits is held exactly. -/
theorem integerPart_int32 (n : Int32) : integerPart (ofInt n.toInt).toBits = n.toInt := by
  have hlow := n.le_toInt
  have hhigh := n.toInt_lt
  rw [integerPart_ofInt (by omega), nearest_small (by omega)]

theorem toInt64_eq (d : Float) : toInt64 d = Int64.ofInt (integerPart d.toBits) := by
  refine Int64.toInt.inj ?_
  rw [toInt64, wrapSigned, trunc_eq, Int64.toInt_ofInt, Int64.toInt_ofInt]
  exact Int.bmod_bmod

theorem toInt32_eq (d : Float) : toInt32 d = Int32.ofInt (integerPart d.toBits) := by
  refine Int32.toInt.inj ?_
  rw [toInt32, wrapSigned, trunc_eq, Int32.toInt_ofInt, Int32.toInt_ofInt]
  exact Int.bmod_bmod

/-- A 32-bit natural is the 32-bit integer modulo `2 ^ 32`. -/
theorem toNat_ofInt (z : ℤ) : ((Int32.ofInt z).toUInt32.toNat : ℤ) = z % 2 ^ 32 := by
  have hbits : (Int32.ofInt z).toUInt32.toNat = (BitVec.ofInt 32 z).toNat := rfl
  rw [hbits, BitVec.toNat_ofInt]
  exact Int.toNat_of_nonneg (Int.emod_nonneg _ (by decide))

example : (Int32.ofInt (-1)).toUInt32.toNat = 2 ^ 32 - 1 := by decide

theorem toInt64_of_range {z : ℤ} (hlow : -2 ^ 63 ≤ z) (hhigh : z < 2 ^ 63) :
    (Int64.ofInt z).toInt = z := Int64.toInt_ofInt_of_le (by omega) (by omega)

/-- A number that is a multiple of `2 ^ 64` has no low bits. -/
theorem bmod_of_large {b : UInt64} {x : ℚ} (hx : value? b = some x) (hlarge : 2 ^ 116 ≤ |x|) :
    (integerPart b).bmod (2 ^ 64) = 0 := by
  have hscale : (2 : ℚ) ^ 116 = 2 ^ 52 * 2 ^ 64 := by norm_num
  obtain ⟨z, rfl⟩ := multiple_of_large hx (hscale ▸ hlarge)
  have hpart : integerPart b = z * 2 ^ 64 := by
    unfold integerPart
    rw [hx, Option.map_some, Option.getD_some]
    have hcast : (z : ℚ) * 2 ^ 64 = (z * 2 ^ 64 : ℤ) := by push_cast; rfl
    rw [hcast]
    unfold towardZero
    split
    next => exact Int.floor_intCast _
    next => exact Int.ceil_intCast _
  rw [hpart, Int.bmod_def]
  omega

/-- The integer part of bits is that of the number that is made of them. -/
theorem integerPart_ofBits (b : UInt64) : integerPart (Float.ofBits b).toBits = integerPart b := by
  by_cases hnan : double.decode b.toNat = .nan
  · have hnone : value? b = none := by
      rw [← value_decode, hnan]
      rfl
    have hnone' : value? nan.toBits = none := rfl
    unfold integerPart
    rw [toBits_ofBits_nan hnan, hnone, hnone']
  · rw [toBits_ofBits hnan]

end Binary

namespace Eval

variable {v : Value} {d : Float} (h : v.IsNumber d) (I : Interp) (m : Machine)
include h

theorem toFloat_number : toFloat v I m = .ok d m := by
  obtain rfl | ⟨n, rfl, rfl⟩ := h <;> rfl

/-- A number as an integer of 64 bits is its integer part, without what lies above these. -/
theorem toInt64_number : toInt64 v I m = .ok (Int64.ofInt (Binary.integerPart d.toBits)) m := by
  obtain rfl | ⟨n, rfl, rfl⟩ := h
  · rw [← Binary.toInt64_eq]
    rfl
  · rw [Binary.integerPart_int32]
    rfl

theorem toInt32_number : toInt32 v I m = .ok (Int32.ofInt (Binary.integerPart d.toBits)) m := by
  obtain rfl | ⟨n, rfl, rfl⟩ := h
  · rw [← Binary.toInt32_eq]
    rfl
  · rw [Binary.integerPart_int32, Int32.ofInt_toInt]
    rfl

end Eval

namespace Host

variable {c : ContextId} {v : Value} {d : Float}

theorem toFloat_delivers (h : v.IsNumber d) : Delivers c (toFloat ⟨c, v⟩) d :=
  .asked fun r e => by
    have hreply := ScriptEngine.run_fst (Eval.toFloat_number h) r e
    exact congrArg (orThrow c) hreply

theorem toInt64_delivers (h : v.IsNumber d) :
    Delivers c (toInt64 ⟨c, v⟩) (Int64.ofInt (Binary.integerPart d.toBits)) :=
  .asked fun r e => congrArg (orThrow c) (ScriptEngine.run_fst (Eval.toInt64_number h) r e)

theorem toInt32_delivers (h : v.IsNumber d) :
    Delivers c (toInt32 ⟨c, v⟩) (Int32.ofInt (Binary.integerPart d.toBits)) :=
  .asked fun r e => congrArg (orThrow c) (ScriptEngine.run_fst (Eval.toInt32_number h) r e)

/-- The 32-bit natural has the bits of the 32-bit integer. -/
theorem toUInt32_delivers (h : v.IsNumber d) :
    Delivers c (toUInt32 ⟨c, v⟩) (Int32.ofInt (Binary.integerPart d.toBits)).toUInt32 :=
  .asked fun r e => by
    have hread : ∀ I m, (do pure (← Eval.toInt32 v).toUInt32 : Eval UInt32) I m =
        .ok (Int32.ofInt (Binary.integerPart d.toBits)).toUInt32 m := fun I m =>
      Eval.bind_of_ok (Eval.toInt32_number h I m)
    exact congrArg (orThrow c) (ScriptEngine.run_fst hread r e)

/-! ## Integers -/

/-- A number made of an integer of 64 bits is the nearest number of double precision.  Read back it is
that number, but for the greatest ones, whose number is beyond the integers.  A natural of 32 bits and an
integer of 32 bits are read back as they were, or modulo `2 ^ 32`. -/
theorem integers_read_back {s : Host ScriptEngine} {c : ContextId}
    (hlive : (Contexts.entry s.contexts c).realm.isSome) :
    (∀ v : Int64, ∃ h, newInt64 c v s = (.ok h, s) ∧ ∃ r : ℤ, |r| ≤ 2 ^ 63 ∧
      (Binary.RoundsTo v.toInt r ∧ ∀ x, Binary.RoundsTo v.toInt x → x = r) ∧
      (∃ d, Delivers c (toFloat h) d ∧ Binary.value? d.toBits = some (r : ℚ)) ∧
      ∃ n, Delivers c (toInt64 h) n ∧ n.toInt = (if r < 2 ^ 63 then r else -2 ^ 63) ∧
        (n = v ↔ ∃ (e : ℕ) (a : ℤ), |a| < 2 ^ 53 ∧ v.toInt = a * 2 ^ e)) ∧
    (∀ u : UInt32, ∃ h, newUInt32 c u s = (.ok h, s) ∧ Delivers c (toUInt32 h) u ∧
      ∃ n, Delivers c (toInt64 h) n ∧ n.toInt = u.toNat) ∧
    ∀ i : Int32, Delivers c (toInt32 (newInt32 c i)) i ∧
      ∃ u, Delivers c (toUInt32 (newInt32 c i)) u ∧ (u.toNat : ℤ) = i.toInt % 2 ^ 32 := by
  obtain ⟨realm, hrealm⟩ := Option.isSome_iff_exists.1 hlive
  refine ⟨fun v => ?_, fun u => ?_, fun i => ?_⟩
  · have hlow := v.le_toInt
    have hhigh := v.toInt_lt
    have hnumber := Value.ofInt_isNumber v.toInt
    have hbound := Binary.abs_nearest_le (v := v.toInt) (by omega)
    have hexact := Binary.nearest_eq_self_iff (v := v.toInt)
    have hpart := Binary.integerPart_ofInt (v := v.toInt) (by omega)
    refine ⟨_, bind_ok (live_ok hrealm), Binary.nearest v.toInt, hbound,
      Binary.roundsTo_nearest (by omega), ⟨_, toFloat_delivers hnumber, Binary.value_ofInt (by omega)⟩,
      _, toInt64_delivers hnumber, ?_⟩
    rw [hpart]
    rw [abs_le] at hbound
    have hwrapped : (Int64.ofInt (Binary.nearest v.toInt)).toInt =
        if Binary.nearest v.toInt < 2 ^ 63 then Binary.nearest v.toInt else -2 ^ 63 := by
      split
      next hlt => exact Binary.toInt64_of_range (by omega) hlt
      next hge =>
        have htop : Binary.nearest v.toInt = 2 ^ 63 := by omega
        rw [htop]
        rfl
    refine ⟨hwrapped, ?_⟩
    rw [← hexact, ← Int64.toInt_inj, hwrapped]
    split
    next => exact Iff.rfl
    next hge =>
      -- What was rounded up so far was positive, so that it is not the least integer.
      have hsign : 0 ≤ v.toInt := le_of_not_gt fun hneg => by
        have hnonpos := Binary.nearest_nonpos hneg
        omega
      omega
  · have hnumber := Value.ofInt_isNumber u.toNat
    have hlt := u.toNat_lt
    have hpart : Binary.integerPart (Binary.ofInt u.toNat).toBits = u.toNat := by
      rw [Binary.integerPart_ofInt (by omega), Binary.nearest_small (by omega)]
    have hbits : (Int32.ofInt u.toNat).toUInt32 = u := by
      have hmod := Binary.toNat_ofInt u.toNat
      exact UInt32.toNat.inj (by omega)
    refine ⟨_, bind_ok (live_ok hrealm), ?_, _, toInt64_delivers hnumber, ?_⟩
    · have hread := @toUInt32_delivers c _ _ hnumber
      rwa [hpart, hbits] at hread
    · rw [hpart]
      exact Binary.toInt64_of_range (by omega) (by omega)
  · have hnumber : (Value.int i).IsNumber (Binary.ofInt i.toInt) := .inr ⟨i, rfl, rfl⟩
    have hread := @toInt32_delivers c _ _ hnumber
    have hread' := @toUInt32_delivers c _ _ hnumber
    have hmod := Binary.toNat_ofInt i.toInt
    rw [Binary.integerPart_int32, Int32.ofInt_toInt] at hread hread'
    rw [Int32.ofInt_toInt] at hmod
    exact ⟨hread, _, hread', hmod⟩

/-- The greatest integer is read back as the least one. -/
theorem greatest_integer_read_back : (Contexts.entry smallHost.contexts 0).realm.isSome ∧
    ∃ h, newInt64 0 Int64.maxValue smallHost = (.ok h, smallHost) ∧
      Delivers 0 (toInt64 h) Int64.minValue := by
  have hlive : (Contexts.entry smallHost.contexts 0).realm.isSome := rfl
  rcases (integers_read_back hlive).1 Int64.maxValue with
    ⟨h, hnew, r, -, ⟨-, honly⟩, -, n, hdelivers, hn, -⟩
  have hrounds := (Binary.roundsTo_nearest (v := Int64.maxValue.toInt) (by decide)).1
  have htop : Binary.nearest Int64.maxValue.toInt = 2 ^ 63 := rfl
  have hr : r = 2 ^ 63 := htop ▸ (Int.cast_injective (honly _ hrounds)).symm
  have hmin : n = Int64.minValue := by
    refine Int64.toInt.inj (hn.trans ?_)
    rw [hr]
    rfl
  exact ⟨hlive, h, hnew, hmin ▸ hdelivers⟩

/-! ## Doubles -/

end Host

end ScriptHost
