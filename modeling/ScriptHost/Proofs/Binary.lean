import Mathlib
import ScriptHost.Number.Binary64
/-!
# Integers as binary floating point numbers

The bits of a number are those that it was made of, and an integer of at most 53 bits is held exactly:
what the bits of its number stand for is the integer again.
-/

namespace ScriptHost

open Float.Model (Format)
open Float.Model.UnpackedFloat

namespace Binary

/-! ## Bits -/

theorem decode_eq_nan_iff (n : Nat) :
    double.decode n = .nan ↔ n / 2 ^ 52 % 2 ^ 11 = 2047 ∧ n % 2 ^ 52 ≠ 0 := by
  unfold Format.decode
  simp only [double, twoTo, beq_iff_eq]
  split
  next he => split <;> simp_all
  next he => split <;> simp_all

section Bits

variable (b : BitVec 64)

theorem toNat_unpackMantissa : (@unpackMantissa .binary64 b).toNat = b.toNat % 2 ^ 52 := by
  rw [unpackMantissa_def, BitVec.extractLsb'_toNat, Nat.shiftRight_zero]

theorem toNat_unpackExponent :
    (@unpackExponent .binary64 b).toNat = b.toNat / 2 ^ 52 % 2 ^ 11 := by
  rw [unpackExponent_def, BitVec.extractLsb'_toNat, Nat.shiftRight_eq_div_pow]

/-- Among the bits with the greatest exponent only infinities stand for something. -/
theorem isNaNBits_iff : @isNaNBits .binary64 b = true ↔ double.decode b.toNat = .nan := by
  have hexp : @unpackExponent .binary64 b = -1#_ ↔ b.toNat / 2 ^ 52 % 2 ^ 11 = 2047 := by
    rw [← BitVec.toNat_inj, toNat_unpackExponent]
    rfl
  have hfrac : @unpackMantissa .binary64 b = 0#_ ↔ b.toNat % 2 ^ 52 = 0 := by
    rw [← BitVec.toNat_inj, toNat_unpackMantissa]
    rfl
  rw [decode_eq_nan_iff, isNaNBits, decide_eq_true_eq, hexp, ne_eq, hfrac]

end Bits

/-- A number that is made of bits has these bits. -/
theorem toBits_ofBits {b : UInt64} (h : double.decode b.toNat ≠ .nan) :
    (Float.ofBits b).toBits = b := by
  have hbits : (Float.ofBits b).toBits =
      UInt64.ofBitVec (pack .binary64 (unpack .binary64 b.toBitVec)) := rfl
  rw [hbits, pack_unpack, if_neg (mt (isNaNBits_iff _).1 h)]

/-- What is not a number loses its bits but stays so. -/
theorem toBits_ofBits_nan {b : UInt64} (h : double.decode b.toNat = .nan) :
    (Float.ofBits b).toBits = nan.toBits := by
  have hbits : (Float.ofBits b).toBits =
      UInt64.ofBitVec (pack .binary64 (unpack .binary64 b.toBitVec)) := rfl
  rw [hbits, pack_unpack, if_pos ((isNaNBits_iff _).2 h)]
  decide

/-! ## Integers -/

section Integers

variable {neg : Bool} {m : Nat}

/-- The places by which an integer is shifted to fill the fraction. -/
def spare (m : Nat) : Nat := 52 - m.log2

theorem log2_le (hm : m < 2 ^ 53) : m.log2 ≤ 52 := by
  by_cases h0 : m = 0
  · subst h0
    decide
  · have := (Nat.log2_lt h0).2 hm
    omega

/-- Shifted so, an integer begins just before the binary point of the fraction. -/
theorem shifted_bounds (h0 : m ≠ 0) (hm : m < 2 ^ 53) :
    2 ^ 52 ≤ m * 2 ^ spare m ∧ m * 2 ^ spare m < 2 ^ 53 := by
  have hlog := log2_le hm
  have hlow := Nat.log2_self_le h0
  have hhigh := Nat.lt_log2_self (n := m)
  have hpos : 0 < 2 ^ spare m := Nat.two_pow_pos _
  have h52 : 2 ^ m.log2 * 2 ^ spare m = 2 ^ 52 := by
    rw [← Nat.pow_add]
    congr 1
    unfold spare
    omega
  have hdouble : 2 ^ 52 * 2 = 2 ^ 53 := by decide
  have h53 : 2 ^ (m.log2 + 1) * 2 ^ spare m = 2 ^ 53 := by
    rw [Nat.pow_succ, Nat.mul_right_comm, h52, hdouble]
  rw [← h52, ← h53]
  exact ⟨Nat.mul_le_mul_right _ hlow, Nat.mul_lt_mul_of_pos_right hhigh hpos⟩

/-- The bits of an integer. -/
theorem encode_integer (h0 : m ≠ 0) (hm : m < 2 ^ 53) : double.encode neg m 0 =
    double.signBits neg + ((m.log2 + 1022) * 2 ^ 52 + m * 2 ^ spare m) := by
  have hlog := log2_le hm
  rcases shifted_bounds h0 hm with ⟨hlow, hhigh⟩
  have hmin : double.minQuantum = -1074 := by decide
  have hlowest : (1 : Int) - (double.bias : Int) = -1022 := by decide
  have hquantum : max ((m.log2 : Int) + 0) (1 - (double.bias : Int)) - double.fraction =
      m.log2 - 52 := by
    rw [hlowest]
    change max _ _ - 52 = _
    omega
  have hshift : (0 : Int) - (m.log2 - 52) = (spare m : Nat) := by
    unfold spare
    omega
  have hfield : ((m.log2 : Int) - 52 - double.minQuantum).toNat = m.log2 + 1022 := by
    rw [hmin]
    omega
  have hinf : double.infinityBits = 2047 * 2 ^ 52 := by decide
  -- An integer leaves room in the fraction, so it is shifted up and never rounded.
  unfold Format.encode
  have hzero : (m == 0) = false := by simpa using h0
  rw [hzero, if_neg Bool.false_ne_true]
  dsimp only
  rw [hquantum, hshift, hfield, if_pos (Int.natCast_nonneg _), Int.toNat_natCast, hinf]
  exact congrArg _ (if_neg (by change ¬(m.log2 + 1022) * 2 ^ 52 + m * 2 ^ spare m ≥ _; omega))

/-- What bits stand for whose exponent is neither the least nor the greatest. -/
theorem decode_normal {n expo : Nat} (hexp : n / 2 ^ 52 % 2 ^ 11 = expo) (hleast : expo ≠ 0)
    (hgreatest : expo ≠ 2 ^ 11 - 1) : double.decode n =
      .finite (n / 2 ^ 63 % 2 == 1) (2 ^ 52 + n % 2 ^ 52) (-1074 + (expo - 1 : Nat)) := by
  have hmin : double.minQuantum = -1074 := by decide
  have hfield : n / twoTo double.fraction % twoTo double.exponent = expo := hexp
  have hinf : (expo == twoTo double.exponent - 1) = false := by simpa [double] using hgreatest
  have hzero : (expo == 0) = false := by simpa using hleast
  unfold Format.decode
  dsimp only
  rw [hfield, hinf, if_neg Bool.false_ne_true, hzero, if_neg Bool.false_ne_true, hmin]
  rfl

/-- What the bits of an integer stand for. -/
theorem decode_integer (h0 : m ≠ 0) (hm : m < 2 ^ 53) : double.decode (double.encode neg m 0) =
    .finite neg (m * 2 ^ spare m) (-(spare m : Nat)) := by
  have hlog := log2_le hm
  rcases shifted_bounds h0 hm with ⟨hlow, hhigh⟩
  have hsign : double.signBits neg = if neg then 2 ^ 63 else 0 := rfl
  rw [encode_integer h0 hm]
  generalize hn : double.signBits neg + ((m.log2 + 1022) * 2 ^ 52 + m * 2 ^ spare m) = n
  -- The three fields of the bits do not overlap, so each comes back by itself.
  have hfrac : n % 2 ^ 52 = m * 2 ^ spare m - 2 ^ 52 := by
    rw [← hn, hsign]
    cases neg <;> simp only [if_true, if_false, Bool.false_eq_true] <;> omega
  have hexp : n / 2 ^ 52 % 2 ^ 11 = m.log2 + 1023 := by
    rw [← hn, hsign]
    cases neg <;> simp only [if_true, if_false, Bool.false_eq_true] <;> omega
  have hneg : (n / 2 ^ 63 % 2 == 1) = neg := by
    rw [← hn, hsign]
    cases neg <;>
      simp only [if_true, if_false, Bool.false_eq_true, beq_iff_eq, beq_eq_false_iff_ne] <;> omega
  have hquantum : (-1074 : Int) + ((m.log2 + 1023 - 1 : Nat) : Int) = -(spare m : Nat) := by
    unfold spare
    omega
  rw [decode_normal hexp (by omega) (by omega), hneg, hfrac, hquantum,
    Nat.add_sub_cancel' hlow]

/-- A number that is made of an integer, taken apart. -/
theorem shape_ofScaled (h0 : m ≠ 0) (hm : m < 2 ^ 53) :
    shape (ofScaled neg m 0) = .finite neg (m * 2 ^ spare m) (-(spare m : Nat)) := by
  have hdecode := @decode_integer neg m h0 hm
  have hlt : double.encode neg m 0 < 2 ^ 64 := by
    have hlog := log2_le hm
    rcases shifted_bounds h0 hm with ⟨hlow, hhigh⟩
    have hsign : double.signBits neg ≤ 2 ^ 63 := by cases neg <;> decide
    rw [encode_integer h0 hm]
    omega
  have hbits : (UInt64.ofNat (double.encode neg m 0)).toNat = double.encode neg m 0 := by
    rw [UInt64.toNat_ofNat']
    exact Nat.mod_eq_of_lt hlt
  unfold shape ofScaled
  rw [toBits_ofBits, hbits, hdecode]
  rw [hbits, hdecode]
  exact nofun

/-- An integer that was shifted to fill the fraction is shifted back. -/
theorem truncScaled_shifted (neg : Bool) (m : Nat) :
    truncScaled neg (m * 2 ^ spare m) (-(spare m : Nat)) = if neg then -(m : Int) else m := by
  have hback : (if 0 ≤ -(spare m : Int) then m * 2 ^ spare m * twoTo (-(spare m : Int)).toNat
      else m * 2 ^ spare m / twoTo (- -(spare m : Int)).toNat) = m := by
    split
    next hq =>
      have hspare : spare m = 0 := by omega
      simp [hspare, twoTo]
    next hq =>
      rw [Int.neg_neg, Int.toNat_natCast]
      exact Nat.mul_div_cancel _ (Nat.two_pow_pos _)
  unfold truncScaled
  rw [hback]

/-- A number without a fraction is an integer. -/
theorem asInteger_shape {d : Float} {s : Nat} {q : Int} (h : shape d = .finite neg s q)
    (hwhole : 0 ≤ q ∨ twoTo (-q).toNat ∣ s) : asInteger? d = some (truncScaled neg s q) := by
  unfold asInteger?
  rw [h]
  dsimp only
  split
  next hq => rfl
  next hq =>
    have hmod : s % twoTo (-q).toNat = 0 := Nat.mod_eq_zero_of_dvd (hwhole.resolve_left hq)
    rw [hmod]
    rfl

variable {v : Int}

/-- An integer that a number can hold is held exactly. -/
theorem ofInt_exact (hv : v.natAbs ≤ 2 ^ 53) :
    trunc? (ofInt v) = some v ∧ asInteger? (ofInt v) = some v := by
  rcases Nat.lt_or_eq_of_le hv with hlt | heq
  · by_cases h0 : v = 0
    · subst h0
      decide +kernel
    · have hshape := @shape_ofScaled (decide (v < 0)) v.natAbs (by omega) hlt
      have hvalue : (if decide (v < 0) = true then -(v.natAbs : Int) else v.natAbs) = v := by
        split
        next h =>
          have := of_decide_eq_true h
          omega
        next h =>
          have := of_decide_eq_false (Bool.not_eq_true _ ▸ h)
          omega
      have htrunc := truncScaled_shifted (decide (v < 0)) v.natAbs
      rw [hvalue] at htrunc
      refine ⟨?_, ?_⟩
      · unfold trunc? ofInt
        rw [hshape]
        exact congrArg some htrunc
      · refine (asInteger_shape hshape (Or.inr ?_)).trans (congrArg some htrunc)
        rw [Int.neg_neg, Int.toNat_natCast]
        exact Nat.dvd_mul_left ..
  · -- The greatest of them has a bit more than the fraction, but all of its bits are zeros.
    rcases Int.natAbs_eq v with h | h <;> rw [heq] at h <;> subst h <;> decide

end Integers

end Binary

end ScriptHost
