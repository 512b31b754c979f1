import Mathlib.Algebra.Order.Field.Power
import Mathlib.Tactic.FieldSimp
import Mathlib.Tactic.Linarith
import Mathlib.Tactic.NormNum
import Mathlib.Tactic.Ring
import ScriptHost.Client.Numbers
import ScriptHost.Proofs.Numerals
/-!
# The number nearest to an integer

The parts of a number that the engine works with stand for the same rational number as its bits, so
that what is cut off a number is its fraction.  An integer of at most 64 bits, made a number of double
precision, loses the bits beyond the 53rd.  What is left is the nearest number of double precision, and
of two that are as near as each other the one whose last bit is not set.  There is no other such number.
-/

namespace ScriptHost

namespace Binary

/-! ## Numbers in parts -/

/-- The number that `± m · 2 ^ q` is. -/
def scaled (neg : Bool) (m : ℕ) (q : ℤ) : ℚ := (if neg then -1 else 1) * (m * 2 ^ q)

/-- The number that parts stand for. -/
def Shape.value? : Shape → Option ℚ
  | .finite neg m q => some (scaled neg m q)
  | _ => none

/-- The parts of a number stand for what its bits do. -/
theorem value_decode (b : UInt64) : (double.decode b.toNat).value? = value? b := by
  have hlt : b.toNat < 2 ^ 64 := b.toNat_lt
  have hsign : (b.toNat / twoTo (double.fraction + double.exponent) % 2 == 1) =
      decide (b.toNat / 2 ^ 63 = 1) := by
    have hmod : b.toNat / 2 ^ 63 % 2 = b.toNat / 2 ^ 63 := Nat.mod_eq_of_lt (by omega)
    rw [← hmod]
    rfl
  have hexpo : b.toNat / twoTo double.fraction % twoTo double.exponent =
      b.toNat / 2 ^ 52 % 2 ^ 11 := rfl
  have hfrac : b.toNat % twoTo double.fraction = b.toNat % 2 ^ 52 := rfl
  have hminimum : double.minQuantum = -1074 := by decide
  have hlead : ((twoTo double.fraction : ℕ) : ℚ) = 2 ^ 52 := by norm_num [double]
  unfold Format.decode value?
  dsimp only
  rw [hsign, hexpo, hfrac, hminimum]
  generalize b.toNat / 2 ^ 52 % 2 ^ 11 = expo
  generalize b.toNat % 2 ^ 52 = frac
  -- The exponent tells infinities and what is no number, numbers near zero, and all others apart.
  by_cases hgreatest : expo = 2047
  · subst hgreatest
    rw [if_pos (by decide), if_pos rfl]
    split <;> rfl
  · rw [if_neg (by simpa [double] using hgreatest), if_neg hgreatest]
    by_cases hleast : expo = 0
    · rw [if_pos (by simpa using hleast), if_pos hleast]
      simp only [Shape.value?, scaled, decide_eq_true_eq]
    · rw [if_neg (by simpa using hleast), if_neg hleast]
      have hquantum : (-1074 : ℤ) + (expo - 1 : ℕ) = expo - 1075 := by omega
      simp only [Shape.value?, scaled, decide_eq_true_eq, hquantum, Nat.cast_add, hlead]

/-- The integer part of a number that is not negative. -/
theorem floor_scaled (m : ℕ) (q : ℤ) : ⌊(m : ℚ) * 2 ^ q⌋ =
    ((if 0 ≤ q then m * twoTo q.toNat else m / twoTo (-q).toNat : ℕ) : ℤ) := by
  split
  next hq =>
    obtain ⟨k, rfl⟩ := Int.eq_ofNat_of_zero_le hq
    rw [Int.floor_eq_iff]
    simp
  next hq =>
    obtain ⟨k, rfl⟩ : ∃ k : ℕ, q = -(k : ℤ) := ⟨q.natAbs, by omega⟩
    rw [zpow_neg, zpow_natCast, ← div_eq_mul_inv, Int.neg_neg, Int.toNat_natCast]
    have hfloor := Rat.floor_intCast_div_natCast (m : ℤ) (2 ^ k)
    push_cast at hfloor ⊢
    exact hfloor

theorem truncScaled_eq (neg : Bool) (m : ℕ) (q : ℤ) :
    truncScaled neg m q = towardZero (scaled neg m q) := by
  have hnonneg : (0 : ℚ) ≤ m * 2 ^ q := by positivity
  unfold truncScaled scaled
  dsimp only
  rw [← floor_scaled]
  generalize (m : ℚ) * 2 ^ q = x at hnonneg
  cases neg with
  | false => simp [towardZero, hnonneg]
  | true =>
      rcases hnonneg.eq_or_lt with rfl | hpos
      · simp [towardZero]
      · have hneg : ¬0 ≤ -x := by linarith
        rw [if_pos rfl, if_pos rfl, neg_one_mul, towardZero, if_neg hneg, Int.ceil_neg]

/-- What is cut off a number is its fraction. -/
theorem trunc_eq (d : Float) : (trunc? d).getD 0 = integerPart d.toBits := by
  unfold trunc? integerPart shape
  rw [← value_decode]
  cases double.decode d.toBits.toNat with
  | finite neg m q => exact truncScaled_eq neg m q
  | _ => rfl

/-! ## Multiples of a power of two -/

section Multiples

variable (n k : ℕ)

/-- Rounding to a multiple of `2 ^ k` goes at most half of `2 ^ k` away, and on a tie to an even
multiple. -/
theorem shiftRound_near :
    2 * |(n : ℤ) - Format.shiftRound n k * 2 ^ k| ≤ 2 ^ k ∧
      (2 * |(n : ℤ) - Format.shiftRound n k * 2 ^ k| = 2 ^ k → Format.shiftRound n k % 2 = 0) := by
  have hpos : 0 < twoTo k := Nat.two_pow_pos k
  have hwhole : twoTo k * (n / twoTo k) + n % twoTo k = n := Nat.div_add_mod n (twoTo k)
  have hrem : n % twoTo k < twoTo k := Nat.mod_lt n hpos
  have hcast : (2 : ℤ) ^ k = twoTo k := by simp [twoTo]
  unfold Format.shiftRound
  dsimp only
  rw [hcast]
  -- What is left is arithmetic about a quotient and a remainder.
  generalize hd : twoTo k = d at *
  generalize n / d = quot at *
  generalize n % d = rem at *
  subst hwhole
  split
  next hup =>
    have hdiff : ((d * quot + rem : ℕ) : ℤ) - (quot + 1 : ℕ) * (d : ℤ) = rem - d := by
      push_cast
      ring
    rw [hdiff, abs_of_nonpos (by omega)]
    simp only [Bool.or_eq_true, decide_eq_true_eq, Bool.and_eq_true, beq_iff_eq] at hup
    constructor <;> omega
  next hdown =>
    have hdiff : ((d * quot + rem : ℕ) : ℤ) - quot * (d : ℤ) = rem := by
      push_cast
      ring
    rw [hdiff, abs_of_nonneg (by omega)]
    simp only [Bool.or_eq_true, decide_eq_true_eq, Bool.and_eq_true, beq_iff_eq] at hdown
    constructor <;> omega

/-- A multiple of `2 ^ k` other than the one rounded to is not nearer, and as near only on a tie. -/
theorem shiftRound_nearest {z : ℤ} (hz : z ≠ Format.shiftRound n k) :
    |(n : ℤ) - Format.shiftRound n k * 2 ^ k| ≤ |(n : ℤ) - z * 2 ^ k| ∧
      (|(n : ℤ) - z * 2 ^ k| = |(n : ℤ) - Format.shiftRound n k * 2 ^ k| →
        Format.shiftRound n k % 2 = 0 ∧ |z - Format.shiftRound n k| = 1) := by
  rcases shiftRound_near n k with ⟨hnear, htie⟩
  generalize hs : Format.shiftRound n k = s at *
  have hpos : (0 : ℤ) < 2 ^ k := by positivity
  have hgap : 1 ≤ |z - s| := Int.one_le_abs (by omega)
  have happart : |z - s| * 2 ^ k ≤ |(n : ℤ) - z * 2 ^ k| + |(n : ℤ) - s * 2 ^ k| := by
    rw [← abs_of_pos hpos, ← abs_mul, abs_of_pos hpos]
    have hsum : (z - s) * 2 ^ k = (n - s * 2 ^ k) - (n - z * 2 ^ k : ℤ) := by ring
    rw [hsum, add_comm]
    exact abs_sub _ _
  have hstep : 2 ^ k ≤ |z - s| * 2 ^ k := le_mul_of_one_le_left hpos.le hgap
  refine ⟨by omega, fun heq => ⟨htie (by omega), ?_⟩⟩
  refine le_antisymm (le_of_mul_le_mul_right ?_ hpos) hgap
  omega

theorem shiftRound_of_dvd (s : ℕ) : Format.shiftRound (s * 2 ^ k) k = s := by
  have hpos : 0 < twoTo k := Nat.two_pow_pos k
  have hquot : s * 2 ^ k / twoTo k = s := Nat.mul_div_cancel _ hpos
  have hrem : s * 2 ^ k % twoTo k = 0 := Nat.mul_mod_left s (2 ^ k)
  unfold Format.shiftRound
  dsimp only
  rw [hquot, hrem]
  refine if_neg ?_
  simp only [Bool.or_eq_true, decide_eq_true_eq, Bool.and_eq_true, beq_iff_eq]
  omega

theorem shiftRound_zero : Format.shiftRound n 0 = n := by
  simpa using shiftRound_of_dvd 0 n

end Multiples

/-! ## Integers rounded -/

section Rounded

variable {neg : Bool} {m : ℕ}

/-- The bits of an integer that a number has no room for. -/
def excess (m : ℕ) : ℕ := m.log2 - 52

/-- An integer rounded to the bits that a number has room for. -/
def rounded (m : ℕ) : ℕ := Format.shiftRound m (excess m) * 2 ^ excess m

/-- The whole of the fraction that an integer is given, its leading bit included. -/
def significand (m : ℕ) : ℕ := Format.shiftRound (m * 2 ^ spare m) (excess m)

theorem excess_eq_zero (hm : m < 2 ^ 53) : excess m = 0 := by
  have := log2_le hm
  unfold excess
  omega

theorem rounded_small (hm : m < 2 ^ 53) : rounded m = m := by
  rw [rounded, excess_eq_zero hm, shiftRound_zero, Nat.pow_zero, Nat.mul_one]

theorem significand_small (hm : m < 2 ^ 53) : significand m = m * 2 ^ spare m := by
  rw [significand, excess_eq_zero hm, shiftRound_zero]

section Large

variable (hm : 2 ^ 53 ≤ m)
include hm

theorem log2_large : 53 ≤ m.log2 := (Nat.le_log2 (by omega)).2 hm

theorem significand_large : significand m = Format.shiftRound m (excess m) := by
  have := log2_large hm
  have hspare : spare m = 0 := by
    unfold spare
    omega
  rw [significand, hspare, Nat.pow_zero, Nat.mul_one]

/-- The leading bits of a large integer. -/
theorem leading_bounds :
    2 ^ 52 * 2 ^ excess m ≤ m ∧ m < 2 ^ 53 * 2 ^ excess m := by
  have hlog := log2_large hm
  have hlow : 2 ^ 52 * 2 ^ excess m = 2 ^ m.log2 := by
    rw [← Nat.pow_add]
    congr 1
    unfold excess
    omega
  have hhigh : 2 ^ 53 * 2 ^ excess m = 2 ^ (m.log2 + 1) := by
    rw [← Nat.pow_add]
    congr 1
    unfold excess
    omega
  rw [hlow, hhigh]
  exact ⟨Nat.log2_self_le (by omega), Nat.lt_log2_self⟩

end Large

/-- What lies between two powers of two has between them the multiples that are half a step away. -/
theorem between_of_close {m s : ℤ} {k : ℕ} (hlow : 2 ^ 52 * 2 ^ k ≤ m) (hhigh : m < 2 ^ 53 * 2 ^ k)
    (hclose : 2 * |m - s * 2 ^ k| ≤ 2 ^ k) : 2 ^ 52 ≤ s ∧ s ≤ 2 ^ 53 := by
  have hpos : (0 : ℤ) < 2 ^ k := by positivity
  have hbelow := le_abs_self (m - s * 2 ^ k)
  have habove := neg_abs_le (m - s * 2 ^ k)
  -- One multiple further out is more than half a step away.
  constructor
  · refine le_of_not_gt fun hlt => ?_
    have hprod : (s + 1) * 2 ^ k ≤ 2 ^ 52 * 2 ^ k := mul_le_mul_of_nonneg_right hlt hpos.le
    rw [add_mul, one_mul] at hprod
    omega
  · refine le_of_not_gt fun hlt => ?_
    have hprod : (2 ^ 53 + 1) * 2 ^ k ≤ s * 2 ^ k := mul_le_mul_of_nonneg_right hlt hpos.le
    rw [add_mul, one_mul] at hprod
    omega

theorem significand_bounds (h0 : m ≠ 0) : 2 ^ 52 ≤ significand m ∧ significand m ≤ 2 ^ 53 := by
  rcases Nat.lt_or_ge m (2 ^ 53) with hlt | hge
  · rw [significand_small hlt]
    have := shifted_bounds h0 hlt
    omega
  · rw [significand_large hge]
    rcases leading_bounds hge with ⟨hlow, hhigh⟩
    zify at hlow hhigh ⊢
    exact between_of_close hlow hhigh (shiftRound_near m (excess m)).1

/-- The bits of an integer of any size. -/
theorem encode_rounded (h0 : m ≠ 0) (hm : m < 2 ^ 64) : double.encode neg m 0 =
    double.signBits neg + ((m.log2 + 1022) * 2 ^ 52 + significand m) := by
  rcases Nat.lt_or_ge m (2 ^ 53) with hlt | hge
  · rw [significand_small hlt]
    exact encode_integer h0 hlt
  · have hlog := log2_large hge
    have hlog' : m.log2 < 64 := (Nat.log2_lt h0).2 hm
    rcases significand_bounds h0 with ⟨-, hhigh⟩
    have hmin : double.minQuantum = -1074 := by decide
    have hlowest : (1 : ℤ) - (double.bias : ℤ) = -1022 := by decide
    -- The exponent of a number this large is not the least one, and its bits are shifted down.
    have hquantum : max ((m.log2 : ℤ) + 0) (1 - (double.bias : ℤ)) - double.fraction =
        excess m := by
      rw [hlowest]
      unfold excess
      change max _ _ - 52 = _
      omega
    have hback : ¬(0 : ℤ) ≤ 0 - excess m := by
      unfold excess
      omega
    have hshift : (-(0 - (excess m : ℤ))).toNat = excess m := by omega
    have hfield : ((excess m : ℤ) - double.minQuantum).toNat = m.log2 + 1022 := by
      rw [hmin]
      unfold excess
      omega
    have hinf : double.infinityBits = 2047 * 2 ^ 52 := by decide
    have hzero : (m == 0) = false := by simpa using h0
    unfold Format.encode
    rw [hzero, if_neg Bool.false_ne_true]
    dsimp only
    rw [hquantum, hfield, if_neg hback, hshift, hinf, ← significand_large hge]
    exact congrArg _ (if_neg (by change ¬(m.log2 + 1022) * 2 ^ 52 + significand m ≥ _; omega))

/-! ## What the bits stand for -/

/-- What bits stand for that were put together from an exponent and a fraction; the fraction may carry
into the exponent. -/
theorem value_carried {b : UInt64} {e s : ℕ}
    (hb : b.toNat = double.signBits neg + (e * 2 ^ 52 + s)) (he : e ≤ 2044)
    (hlow : 2 ^ 52 ≤ s) (hhigh : s ≤ 2 ^ 53) :
    value? b = some (scaled neg s (e - 1074)) := by
  have hsign : double.signBits neg = if neg then 2 ^ 63 else 0 := rfl
  have hneg : (b.toNat / 2 ^ 63 = 1) ↔ neg = true := by
    rw [hb, hsign]
    cases neg <;> simp only [if_true, if_false, Bool.false_eq_true, iff_true, iff_false] <;> omega
  unfold value? scaled
  dsimp only
  simp only [hneg]
  -- A fraction that was rounded up to the next power of two makes the exponent one more.
  rcases Nat.lt_or_eq_of_le hhigh with hlt | heq
  · have hexp : b.toNat / 2 ^ 52 % 2 ^ 11 = e + 1 := by
      rw [hb, hsign]
      cases neg <;> simp only [if_true, if_false, Bool.false_eq_true] <;> omega
    have hfrac : b.toNat % 2 ^ 52 = s - 2 ^ 52 := by
      rw [hb, hsign]
      cases neg <;> simp only [if_true, if_false, Bool.false_eq_true] <;> omega
    have hquantum : ((e + 1 : ℕ) : ℤ) - 1075 = e - 1074 := by omega
    rw [hexp, hfrac, if_neg (by omega), if_neg (by omega), hquantum, Nat.cast_sub hlow]
    norm_num
  · have hexp : b.toNat / 2 ^ 52 % 2 ^ 11 = e + 2 := by
      rw [hb, hsign]
      cases neg <;> simp only [if_true, if_false, Bool.false_eq_true] <;> omega
    have hfrac : b.toNat % 2 ^ 52 = 0 := by
      rw [hb, hsign]
      cases neg <;> simp only [if_true, if_false, Bool.false_eq_true] <;> omega
    have hquantum : ((e + 2 : ℕ) : ℤ) - 1075 = e - 1074 + 1 := by omega
    rw [hexp, hfrac, if_neg (by omega), if_neg (by omega), hquantum, zpow_add_one₀ two_ne_zero, heq]
    congr 2
    push_cast
    ring

/-- Bits that stand for a number are those of the number that is made of them. -/
theorem toBits_of_value {b : UInt64} {x : ℚ} (h : value? b = some x) :
    (Float.ofBits b).toBits = b := by
  refine toBits_ofBits fun hnan => ?_
  have hvalue := value_decode b
  rw [hnan, h] at hvalue
  exact absurd hvalue nofun

/-- An integer, made a number, is rounded; the last bit of the number is that of the fraction. -/
theorem bits_ofScaled (h0 : m ≠ 0) (hm : m < 2 ^ 64) :
    value? (ofScaled neg m 0).toBits = some (scaled neg (rounded m) 0) ∧
      (ofScaled neg m 0).toBits.toNat % 2 = significand m % 2 := by
  have hencode := @encode_rounded neg m h0 hm
  rcases significand_bounds h0 with ⟨hlow, hhigh⟩
  have hlog : m.log2 < 64 := (Nat.log2_lt h0).2 hm
  have hsign : double.signBits neg = if neg then 2 ^ 63 else 0 := rfl
  have hlt : double.encode neg m 0 < 2 ^ 64 := by
    rw [hencode, hsign]
    cases neg <;> simp only [if_true, if_false, Bool.false_eq_true] <;> omega
  have hbits : (UInt64.ofNat (double.encode neg m 0)).toNat = double.encode neg m 0 := by
    rw [UInt64.toNat_ofNat']
    exact Nat.mod_eq_of_lt hlt
  have hvalue := value_carried (hbits.trans hencode) (by omega) hlow hhigh
  unfold ofScaled
  rw [toBits_of_value hvalue, hvalue, hbits, hencode]
  refine ⟨congrArg some ?_, ?_⟩
  · have hexp : ((m.log2 + 1022 : ℕ) : ℤ) - 1074 = m.log2 - 52 := by omega
    rw [hexp]
    unfold scaled
    refine congrArg ((if neg then -1 else 1) * ·) ?_
    -- Small ones are shifted up into the fraction, large ones down.
    rcases Nat.lt_or_ge m (2 ^ 53) with hsmall | hlarge
    · have hspare : (m.log2 : ℤ) - 52 = -(spare m : ℕ) := by
        have := log2_le hsmall
        unfold spare
        omega
      rw [significand_small hsmall, rounded_small hsmall, hspare, zpow_neg, zpow_natCast]
      push_cast
      field_simp
    · have hexcess : (m.log2 : ℤ) - 52 = (excess m : ℕ) := by
        have := log2_large hlarge
        unfold excess
        omega
      rw [significand_large hlarge, rounded, hexcess, zpow_natCast]
      push_cast
      rw [mul_one]
  · rw [hsign]
    cases neg <;> simp only [if_true, if_false, Bool.false_eq_true] <;> omega

end Rounded

/-! ## All numbers of double precision -/

section Doubles

variable {b : UInt64} {y : ℚ} {k : ℕ}

/-- The sign of a number. -/
def signOf (neg : Bool) : ℚ := if neg then -1 else 1

theorem signOf_mul_self (neg : Bool) : signOf neg * signOf neg = 1 := by cases neg <;> norm_num [signOf]

theorem abs_signOf (neg : Bool) : |signOf neg| = 1 := by cases neg <;> norm_num [signOf]

theorem scaled_eq (neg : Bool) (m : ℕ) (q : ℤ) : scaled neg m q = signOf neg * (m * 2 ^ q) := rfl

theorem abs_scaled (neg : Bool) (m : ℕ) (q : ℤ) : |scaled neg m q| = m * 2 ^ q := by
  rw [scaled_eq, abs_mul, abs_signOf, one_mul, abs_of_nonneg (by positivity)]

/-- A number of double precision has a fraction of at most 53 bits. -/
theorem value_form (h : value? b = some y) :
    ∃ neg, ∃ m q, y = scaled neg m q ∧ m < 2 ^ 53 ∧
      (m < 2 ^ 52 → q = -1074) ∧ m % 2 = b.toNat % 2 := by
  have hlow : b.toNat % 2 ^ 52 < 2 ^ 52 := Nat.mod_lt _ (by decide)
  unfold value? at h
  dsimp only at h
  split at h
  next => exact absurd h nofun
  next =>
    split at h
    next =>
      refine ⟨decide (b.toNat / 2 ^ 63 = 1), b.toNat % 2 ^ 52, -1074, ?_, by omega, fun _ => rfl,
        by omega⟩
      rw [← Option.some.inj h]
      simp [scaled]
    next =>
      refine ⟨decide (b.toNat / 2 ^ 63 = 1), 2 ^ 52 + b.toNat % 2 ^ 52,
        ((b.toNat / 2 ^ 52 % 2 ^ 11 : ℕ) : ℤ) - 1075, ?_, by omega, fun _ => by omega, by omega⟩
      rw [← Option.some.inj h, scaled, Nat.cast_add, Nat.cast_pow, Nat.cast_ofNat]
      simp only [decide_eq_true_eq]

/-- A number of double precision that is not below `2 ^ (52 + k)` is a multiple of `2 ^ k`. -/
theorem multiple_of_large (h : value? b = some y) (hlarge : 2 ^ 52 * 2 ^ k ≤ |y|) :
    ∃ z : ℤ, y = z * 2 ^ k := by
  obtain ⟨neg, m, q, rfl, hm, -, -⟩ := value_form h
  rw [abs_scaled] at hlarge
  have hq : (k : ℤ) ≤ q := by
    refine le_of_not_gt fun hlt => ?_
    have hpow : (2 : ℚ) ^ q ≤ 2 ^ ((k : ℤ) - 1) := zpow_le_zpow_right₀ one_le_two (by omega)
    have hfrac : (m : ℚ) < 2 ^ 53 := by exact_mod_cast hm
    have hhalf : (2 : ℚ) ^ 53 * 2 ^ ((k : ℤ) - 1) = 2 ^ 52 * 2 ^ k := by
      rw [zpow_sub_one₀ two_ne_zero, zpow_natCast]
      ring
    have hless : (m : ℚ) * 2 ^ q < 2 ^ 53 * 2 ^ ((k : ℤ) - 1) :=
      mul_lt_mul hfrac hpow (by positivity) (by positivity)
    rw [hhalf] at hless
    exact absurd hlarge (not_le.2 hless)
  obtain ⟨j, rfl⟩ : ∃ j : ℕ, q = j + k := ⟨(q - k).toNat, by omega⟩
  refine ⟨(if neg then -1 else 1) * (m * 2 ^ j), ?_⟩
  rw [scaled, zpow_add₀ two_ne_zero, zpow_natCast, zpow_natCast]
  cases neg <;> push_cast <;> ring

/-- The last bit of a number that fills its fraction. -/
theorem last_bit {neg : Bool} {z : ℕ} (h : value? b = some (scaled neg z k)) (hlow : 2 ^ 52 ≤ z)
    (hhigh : z < 2 ^ 53) : b.toNat % 2 = z % 2 := by
  obtain ⟨neg', m, q, heq, hm, hsub, hlast⟩ := value_form h
  have habs : (z : ℚ) * 2 ^ (k : ℤ) = m * 2 ^ q := by
    rw [← abs_scaled neg, heq, abs_scaled]
  rw [← hlast]
  have hz52 : (2 : ℚ) ^ 52 ≤ z := by exact_mod_cast hlow
  have hz53 : (z : ℚ) < 2 ^ 53 := by exact_mod_cast hhigh
  have hm53 : (m : ℚ) < 2 ^ 53 := by exact_mod_cast hm
  have hsucc : ∀ p : ℤ, (2 : ℚ) ^ 53 * 2 ^ (p - 1) = 2 ^ 52 * 2 ^ p := fun p => by
    rw [zpow_sub_one₀ two_ne_zero]
    ring
  -- The number has one form only in which its first factor fills the fraction: neither exponent can
  -- be below the other.
  have hnotlow : (k : ℤ) ≤ q := by
    refine le_of_not_gt fun hlt => ?_
    have hpow : (2 : ℚ) ^ q ≤ 2 ^ ((k : ℤ) - 1) := zpow_le_zpow_right₀ one_le_two (by omega)
    have hless : (m : ℚ) * 2 ^ q < 2 ^ 53 * 2 ^ ((k : ℤ) - 1) :=
      mul_lt_mul hm53 hpow (by positivity) (by positivity)
    rw [hsucc, ← habs] at hless
    exact absurd hless (not_lt.2 (mul_le_mul_of_nonneg_right hz52 (by positivity)))
  have hm52 : 2 ^ 52 ≤ m := le_of_not_gt fun hlt => by
    have := hsub hlt
    omega
  have hnothigh : q ≤ k := by
    refine le_of_not_gt fun hlt => ?_
    have hpow : (2 : ℚ) ^ (k : ℤ) ≤ 2 ^ (q - 1) := zpow_le_zpow_right₀ one_le_two (by omega)
    have hless : (z : ℚ) * 2 ^ (k : ℤ) < 2 ^ 53 * 2 ^ (q - 1) :=
      mul_lt_mul hz53 hpow (by positivity) (by positivity)
    have hm52' : (2 : ℚ) ^ 52 ≤ m := by exact_mod_cast hm52
    rw [hsucc, habs] at hless
    exact absurd hless (not_lt.2 (mul_le_mul_of_nonneg_right hm52' (by positivity)))
  obtain rfl : q = k := le_antisymm hnothigh hnotlow
  have hcancel : (z : ℚ) = m := mul_right_cancel₀ (by positivity) habs
  have hsame : z = m := by exact_mod_cast hcancel
  rw [hsame]

end Doubles

/-! ## The nearest number -/

section Nearest

variable {m : ℕ} {y : ℚ}

/-- Of the numbers that are multiples of a power of two once they are large, none is nearer to an
integer than the one it is rounded to.  Another one that is as near has its last bit set. -/
theorem rounded_nearest (hm : 2 ^ 53 ≤ m)
    (hy : 2 ^ 52 * 2 ^ excess m ≤ |y| → ∃ z : ℤ, y = z * 2 ^ excess m) :
    |(m : ℚ) - rounded m| ≤ |(m : ℚ) - y| ∧
      (|(m : ℚ) - y| = |(m : ℚ) - rounded m| → y ≠ rounded m → significand m % 2 = 0 ∧
        ∃ z : ℕ, y = z * 2 ^ excess m ∧ 2 ^ 52 ≤ z ∧ z < 2 ^ 53 ∧ z % 2 = 1) := by
  have hnear := (shiftRound_near m (excess m)).1
  have hother := @shiftRound_nearest m (excess m)
  rcases leading_bounds hm with ⟨hlow, hhigh⟩
  rw [significand_large hm, rounded]
  generalize Format.shiftRound m (excess m) = s at *
  generalize excess m = k at *
  have hdist : ∀ z : ℤ, |(m : ℚ) - z * 2 ^ k| = (|(m : ℤ) - z * 2 ^ k| : ℤ) := fun z => by
    push_cast
    rfl
  have hself : |(m : ℚ) - (s * 2 ^ k : ℕ)| = (|(m : ℤ) - s * 2 ^ k| : ℤ) := by
    push_cast
    rfl
  have hcast : ((s * 2 ^ k : ℕ) : ℚ) = (s : ℤ) * 2 ^ k := by push_cast; rfl
  rw [hself]
  -- A number that is at least as large as the power of two below is a multiple like the rounded
  -- one; any other is farther away than that power, and so than what is rounded to.
  rcases le_or_gt (2 ^ 52 * 2 ^ k) |y| with hlarge | hsmall
  · obtain ⟨z, rfl⟩ := hy hlarge
    rw [hdist]
    by_cases hz : z = s
    · subst hz
      exact ⟨le_refl _, fun _ hne => absurd hcast.symm hne⟩
    · rcases hother hz with ⟨hle, htie⟩
      refine ⟨by exact_mod_cast hle, fun heq _ => ?_⟩
      have heq' : |(m : ℤ) - z * 2 ^ k| = |(m : ℤ) - s * 2 ^ k| := by exact_mod_cast heq
      rcases htie heq' with ⟨heven, hstep⟩
      have hclose : 2 * |(m : ℤ) - z * 2 ^ k| ≤ 2 ^ k := heq'.symm ▸ hnear
      have hlow' : (2 : ℤ) ^ 52 * 2 ^ k ≤ m := by exact_mod_cast hlow
      have hhigh' : (m : ℤ) < 2 ^ 53 * 2 ^ k := by exact_mod_cast hhigh
      obtain ⟨hzlow, hzhigh⟩ := between_of_close hlow' hhigh' hclose
      have hodd : z % 2 = 1 := by
        rcases (abs_eq zero_le_one).1 hstep with h | h <;> omega
      obtain ⟨z, rfl⟩ := Int.eq_ofNat_of_zero_le (show 0 ≤ z by omega)
      exact ⟨heven, z, by push_cast; rfl, by omega, by omega, by omega⟩
  · have hleast : |(m : ℤ) - s * 2 ^ k| ≤ |(m : ℤ) - 2 ^ 52 * 2 ^ k| := by
      by_cases hs : (2 : ℤ) ^ 52 = s
      · rw [hs]
      · exact (hother hs).1
    have hlow' : (2 : ℤ) ^ 52 * 2 ^ k ≤ m := by exact_mod_cast hlow
    rw [abs_of_nonneg (show 0 ≤ (m : ℤ) - 2 ^ 52 * 2 ^ k by omega)] at hleast
    have hleast' : ((|(m : ℤ) - s * 2 ^ k| : ℤ) : ℚ) ≤ m - 2 ^ 52 * 2 ^ k := by
      exact_mod_cast hleast
    have hless : ((|(m : ℤ) - s * 2 ^ k| : ℤ) : ℚ) < |(m : ℚ) - y| := by
      have habs := le_abs_self ((m : ℚ) - y)
      have hself := le_abs_self y
      linarith
    exact ⟨hless.le, fun heq => absurd heq hless.ne'⟩

variable (v : ℤ)

/-- An integer rounded to the bits that a number has room for, with its sign. -/
def nearest : ℤ := if v < 0 then -(rounded v.natAbs : ℤ) else rounded v.natAbs

theorem cast_natAbs_signOf : (v : ℚ) = signOf (decide (v < 0)) * v.natAbs := by
  rcases lt_or_ge v 0 with hneg | hpos
  · rw [Nat.cast_natAbs, abs_of_neg hneg]
    simp [signOf, hneg]
  · rw [Nat.cast_natAbs, abs_of_nonneg hpos]
    simp [signOf, not_lt.2 hpos]

theorem nearest_eq : (nearest v : ℚ) = scaled (decide (v < 0)) (rounded v.natAbs) 0 := by
  unfold nearest scaled
  split
  next hneg => simp [hneg]
  next hpos => simp [hpos]

theorem dist_signed (neg : Bool) (x y : ℚ) : |signOf neg * x - y| = |x - signOf neg * y| := by
  rw [← one_mul |x - _|, ← abs_signOf neg, ← abs_mul, mul_sub, ← mul_assoc, signOf_mul_self, one_mul]

theorem nearest_small {v : ℤ} (hv : v.natAbs < 2 ^ 53) : nearest v = v := by
  unfold nearest
  rw [rounded_small hv]
  split <;> omega

variable {v} (hv : v.natAbs < 2 ^ 64)
include hv

/-- The number that is made of an integer. -/
theorem value_ofInt : value? (ofInt v).toBits = some (nearest v : ℚ) := by
  by_cases h0 : v = 0
  · subst h0
    decide +kernel
  · rw [nearest_eq]
    exact (bits_ofScaled (by omega) hv).1

/-- How far numbers are from an integer. -/
theorem distance {b : UInt64} {y : ℚ} (hy : value? b = some y) :
    |(v : ℚ) - nearest v| ≤ |(v : ℚ) - y| ∧
      (|(v : ℚ) - y| = |(v : ℚ) - nearest v| → y ≠ nearest v →
        (ofInt v).toBits.toNat % 2 = 0 ∧ ∀ b', value? b' = some y → b'.toNat % 2 = 1) := by
  rcases Nat.lt_or_ge v.natAbs (2 ^ 53) with hsmall | hlarge
  · rw [nearest_small hsmall, sub_self, abs_zero]
    refine ⟨abs_nonneg _, fun hzero hne => absurd ?_ hne⟩
    exact (sub_eq_zero.1 (abs_eq_zero.1 hzero)).symm
  · -- The sign is taken off both sides: it changes no distance.
    have hsigned := cast_natAbs_signOf v
    have hrounded := nearest_eq v
    have hlast : (ofInt v).toBits.toNat % 2 = significand v.natAbs % 2 :=
      (bits_ofScaled (by omega) hv).2
    rw [scaled_eq, zpow_zero, mul_one] at hrounded
    rw [hlast, hsigned, hrounded]
    generalize decide (v < 0) = neg
    have hback : signOf neg * (signOf neg * y) = y := by
      rw [← mul_assoc, signOf_mul_self, one_mul]
    have hmultiple : 2 ^ 52 * 2 ^ excess v.natAbs ≤ |signOf neg * y| →
        ∃ z : ℤ, signOf neg * y = z * 2 ^ excess v.natAbs := fun hle => by
      rw [abs_mul, abs_signOf, one_mul] at hle
      obtain ⟨z, rfl⟩ := multiple_of_large hy hle
      exact ⟨(if neg then -1 else 1) * z, by cases neg <;> simp [signOf]⟩
    rcases rounded_nearest hlarge hmultiple with ⟨hle, htie⟩
    rw [dist_signed, dist_signed, ← mul_assoc, signOf_mul_self, one_mul]
    refine ⟨hle, fun heq hne => ?_⟩
    have hne' : signOf neg * y ≠ rounded v.natAbs := fun h => hne (by rw [← h, hback])
    obtain ⟨heven, z, hz, hlow, hhigh, hodd⟩ := htie heq hne'
    refine ⟨heven, fun b' hb' => ?_⟩
    have hform : y = scaled neg z (excess v.natAbs) := by
      rw [scaled_eq, zpow_natCast, ← hz, hback]
    rw [last_bit (hform ▸ hb') hlow hhigh, hodd]

/-- The number that is made of an integer is the nearest one to it, and the only such. -/
theorem roundsTo_nearest : RoundsTo v (nearest v) ∧ ∀ x, RoundsTo v x → x = nearest v := by
  have hvalue := value_ofInt hv
  refine ⟨⟨⟨_, hvalue⟩, fun b y hy => (distance hv hy).1, fun b y hy hne heq =>
    ⟨_, hvalue, ((distance hv hy).2 heq hne).1⟩⟩, fun x hx => ?_⟩
  refine Decidable.byContradiction fun hne => ?_
  obtain ⟨b, hb⟩ := hx.double
  have heq : |(v : ℚ) - x| = |(v : ℚ) - nearest v| :=
    le_antisymm (hx.nearest _ _ hvalue) (distance hv hb).1
  obtain ⟨b', hb', heven⟩ := hx.even _ _ hvalue (Ne.symm hne) heq.symm
  have hodd := ((distance hv hb).2 heq hne).2 b' hb'
  omega

end Nearest

/-! ## What is held exactly -/

section Exact

variable {m : ℕ}

theorem rounded_le (hm : m ≤ 2 ^ 63) : rounded m ≤ 2 ^ 63 := by
  rcases Nat.lt_or_ge m (2 ^ 53) with hsmall | hlarge
  · rw [rounded_small hsmall]
    exact hm
  · rcases Nat.lt_or_eq_of_le hm with hlt | rfl
    · have hlog : m.log2 < 63 := (Nat.log2_lt (by omega)).2 hlt
      have hexcess : excess m ≤ 10 := by
        unfold excess
        omega
      have hhigh : Format.shiftRound m (excess m) ≤ 2 ^ 53 :=
        significand_large hlarge ▸ (significand_bounds (by omega)).2
      have hpow : 2 ^ excess m ≤ 2 ^ 10 := Nat.pow_le_pow_right (by decide) hexcess
      have hprod := Nat.mul_le_mul hhigh hpow
      unfold rounded
      omega
    · decide

/-- Nothing is rounded where 53 bits and zeros after them are all there is. -/
theorem rounded_eq_self_iff : rounded m = m ↔ ∃ e a : ℕ, a < 2 ^ 53 ∧ m = a * 2 ^ e := by
  rcases Nat.lt_or_ge m (2 ^ 53) with hsmall | hlarge
  · exact ⟨fun _ => ⟨0, m, hsmall, by omega⟩, fun _ => rounded_small hsmall⟩
  · rcases leading_bounds hlarge with ⟨hlow, hhigh⟩
    constructor
    · intro hself
      unfold rounded at hself
      -- Rounding up to the next power of two would have changed it.
      rcases Nat.lt_or_eq_of_le (significand_bounds (by omega : m ≠ 0)).2 with hlt | heq
      · refine ⟨excess m, Format.shiftRound m (excess m), significand_large hlarge ▸ hlt, hself.symm⟩
      · refine absurd hhigh (Nat.not_lt.2 (Nat.le_of_eq ?_))
        rw [← heq, significand_large hlarge]
        exact hself
    · rintro ⟨e, a, ha, rfl⟩
      -- The zeros at its end are more than what is rounded off.
      have hexcess : excess (a * 2 ^ e) ≤ e := by
        refine Nat.le_of_not_lt fun hlt => ?_
        have hprod : a * 2 ^ e < 2 ^ 53 * 2 ^ e := Nat.mul_lt_mul_of_pos_right ha (Nat.two_pow_pos e)
        have hpow : 2 ^ (e + 1) ≤ 2 ^ excess (a * 2 ^ e) := Nat.pow_le_pow_right (by decide) hlt
        rw [Nat.pow_succ] at hpow
        omega
      obtain ⟨j, hj⟩ := Nat.exists_eq_add_of_le' hexcess
      have hfactor : a * 2 ^ e = a * 2 ^ j * 2 ^ excess (a * 2 ^ e) := by
        rw [Nat.mul_assoc, ← Nat.pow_add, ← hj]
      unfold rounded
      generalize excess (a * 2 ^ e) = k at *
      rw [hfactor, shiftRound_of_dvd]

variable {v : ℤ}

theorem nearest_eq_self_iff :
    nearest v = v ↔ ∃ (e : ℕ) (a : ℤ), |a| < 2 ^ 53 ∧ v = a * 2 ^ e := by
  have hrounded : nearest v = v ↔ rounded v.natAbs = v.natAbs := by
    unfold nearest
    split <;> omega
  -- It is a matter of the absolute value.
  rw [hrounded, rounded_eq_self_iff]
  constructor
  · rintro ⟨e, a, ha, heq⟩
    rcases Int.natAbs_eq v with hv | hv
    · refine ⟨e, a, by rw [Nat.abs_cast]; exact_mod_cast ha, ?_⟩
      rw [hv, heq]
      push_cast
      rfl
    · refine ⟨e, -a, by rw [abs_neg, Nat.abs_cast]; exact_mod_cast ha, ?_⟩
      rw [hv, heq]
      push_cast
      ring
  · rintro ⟨e, a, ha, rfl⟩
    refine ⟨e, a.natAbs, ?_, ?_⟩
    · rw [Int.abs_eq_natAbs] at ha
      exact_mod_cast ha
    · rw [Int.natAbs_mul, Int.natAbs_pow]
      rfl

theorem nearest_nonpos (hv : v < 0) : nearest v ≤ 0 := by
  unfold nearest
  rw [if_pos hv]
  omega

theorem abs_nearest_le (hv : v.natAbs ≤ 2 ^ 63) : |nearest v| ≤ 2 ^ 63 := by
  have hle := rounded_le hv
  unfold nearest
  split
  next => rw [abs_neg, Nat.abs_cast]; exact_mod_cast hle
  next => rw [Nat.abs_cast]; exact_mod_cast hle

/-- What is cut off the number that is made of an integer is nothing. -/
theorem integerPart_ofInt (hv : v.natAbs < 2 ^ 64) : integerPart (ofInt v).toBits = nearest v := by
  unfold integerPart towardZero
  rw [value_ofInt hv]
  simp

end Exact

end Binary

end ScriptHost
