import Mathlib.Algebra.Order.Ring.Nat
import ScriptHost.Number.Format
import ScriptHost.Number.Reading
import ScriptHost.Proofs.Binary
import ScriptHost.Proofs.Texts
/-!
# Decimal numerals of integers

An integer of at most 53 bits is written by its decimal digits whether it is held as an integer or as
a floating point number, and its digits are read as the number that holds it.  The shortest digits of
such a number are its own: next to it there are no decimal numerals that stand for the same number.
-/

namespace ScriptHost

open Float.Model.UnpackedFloat

namespace Binary

/-! ## Rounding of shifted numbers -/

section Shifting

variable {f : Format} {neg : Bool} {m : Nat}

theorem log2_shift (h0 : m ≠ 0) (k : Nat) : (m * 2 ^ k).log2 = m.log2 + k := by
  have hpos : 0 < 2 ^ k := Nat.two_pow_pos k
  rw [Nat.log2_eq_iff (Nat.mul_ne_zero h0 hpos.ne'), Nat.pow_add, Nat.add_right_comm, Nat.pow_add]
  exact ⟨Nat.mul_le_mul_right _ (Nat.log2_self_le h0),
    Nat.mul_lt_mul_of_pos_right Nat.lt_log2_self hpos⟩

/-- A number that was shifted up is rounded as it was before if it is shifted down further. -/
theorem shiftRound_shift (n j k : Nat) :
    Format.shiftRound (n * 2 ^ k) (j + k) = Format.shiftRound n j := by
  have hpos : 0 < 2 ^ k := Nat.two_pow_pos k
  have hpow : twoTo (j + k) = 2 ^ j * 2 ^ k := Nat.pow_add 2 j k
  have hbelow : (2 * (n % 2 ^ j * 2 ^ k) > 2 ^ j * 2 ^ k) ↔ 2 * (n % 2 ^ j) > 2 ^ j := by
    rw [← Nat.mul_assoc]
    exact Nat.mul_lt_mul_right hpos
  have htie : (2 * (n % 2 ^ j * 2 ^ k) = 2 ^ j * 2 ^ k) ↔ 2 * (n % 2 ^ j) = 2 ^ j := by
    rw [← Nat.mul_assoc]
    exact Nat.mul_left_inj hpos.ne'
  unfold Format.shiftRound
  dsimp only
  rw [hpow, Nat.mul_div_mul_right _ _ hpos, Nat.mul_mod_mul_right]
  simp only [hbelow, htie, Bool.or_eq_true, Bool.and_eq_true, decide_eq_true_eq, beq_iff_eq]
  rfl

/-- A number that was shifted up and is shifted down by less is not rounded. -/
theorem shiftRound_exact (n j k : Nat) : Format.shiftRound (n * 2 ^ (j + k)) k = n * 2 ^ j := by
  have hpos : 0 < 2 ^ k := Nat.two_pow_pos k
  have hshift : n * 2 ^ (j + k) = n * 2 ^ j * 2 ^ k := by rw [Nat.pow_add, Nat.mul_assoc]
  have hdiv : n * 2 ^ j * 2 ^ k / twoTo k = n * 2 ^ j := Nat.mul_div_cancel _ hpos
  have hmod : n * 2 ^ j * 2 ^ k % twoTo k = 0 := Nat.mul_mod_left _ _
  unfold Format.shiftRound
  dsimp only
  rw [hshift, hdiv, hmod]
  simp [hpos.ne]

/-- The same number has the same bits, whichever way it is scaled. -/
theorem encode_shift (h0 : m ≠ 0) (k : Nat) (q : Int) :
    f.encode neg (m * 2 ^ k) (q - k) = f.encode neg m q := by
  have hzero : (m == 0) = false := by simpa using h0
  have hzero' : (m * 2 ^ k == 0) = false := by simpa using h0
  have htop : ((m * 2 ^ k).log2 : Int) + (q - k) = m.log2 + q := by
    rw [log2_shift h0]
    omega
  unfold Format.encode
  rw [hzero, hzero', if_neg Bool.false_ne_true, if_neg Bool.false_ne_true]
  dsimp only
  rw [htop]
  generalize max ((m.log2 : Int) + q) (1 - (f.bias : Int)) - f.fraction = quantum
  -- Both are shifted by as much in all, up or down.
  have hsame : (if 0 ≤ q - k - quantum then m * 2 ^ k * twoTo (q - k - quantum).toNat
      else Format.shiftRound (m * 2 ^ k) (-(q - k - quantum)).toNat) =
      if 0 ≤ q - quantum then m * twoTo (q - quantum).toNat
      else Format.shiftRound m (-(q - quantum)).toNat := by
    by_cases hup : 0 ≤ q - k - quantum
    · have hsum : (q - quantum).toNat = k + (q - k - quantum).toNat := by omega
      rw [if_pos hup, if_pos (by omega), hsum, Nat.mul_assoc]
      exact congrArg _ (Nat.pow_add 2 _ _).symm
    · by_cases hdown : 0 ≤ q - quantum
      · have hsum : k = (q - quantum).toNat + (-(q - k - quantum)).toNat := by omega
        rw [if_neg hup, if_pos hdown]
        refine (congrArg (fun k => Format.shiftRound (m * 2 ^ k) _) hsum).trans ?_
        exact shiftRound_exact _ _ _
      · have hsum : (-(q - k - quantum)).toNat = (-(q - quantum)).toNat + k := by omega
        rw [if_neg hup, if_neg hdown, hsum, shiftRound_shift]
  rw [hsame]

/-- A whole number as a ratio. -/
theorem ofRatio_whole (h0 : m ≠ 0) (hm : m.log2 ≤ 120) : ofRatio neg m 1 = ofScaled neg m 0 := by
  have hzero : (m == 0) = false := by simpa using h0
  have hshift : (0 : Int) ≤ 120 - ((m.log2 : Int) - (1 : Nat).log2) := by
    have hone : (1 : Nat).log2 = 0 := by decide
    omega
  unfold ofRatio
  rw [hzero, if_neg Bool.false_ne_true]
  dsimp only
  rw [if_pos hshift, if_pos hshift, Nat.div_one, Nat.mod_one, if_pos (beq_self_eq_true 0)]
  generalize hk : (120 - ((m.log2 : Int) - (1 : Nat).log2)).toNat = k
  have hk' : (120 - ((m.log2 : Int) - (1 : Nat).log2)) = k := by omega
  have htwice : 2 * (m * twoTo k) + 0 = m * 2 ^ (k + 1) := by
    rw [Nat.add_zero, Nat.pow_succ, Nat.mul_comm 2, Nat.mul_assoc]
    rfl
  have hquantum : -(120 - ((m.log2 : Int) - (1 : Nat).log2)) - 1 = 0 - ((k + 1 : Nat) : Int) := by
    omega
  unfold ofScaled
  rw [htwice, hquantum, encode_shift h0]

end Shifting

/-- Bits with the greatest exponent stand for no finite number. -/
theorem decode_greatest {n : Nat} {neg : Bool} {m : Nat} {q : Int}
    (h : double.decode n = .finite neg m q) : n / 2 ^ 52 % 2 ^ 11 ≠ 2 ^ 11 - 1 := by
  intro hexp
  have hfield : (n / twoTo double.fraction % twoTo double.exponent ==
      twoTo double.exponent - 1) = true := by simpa [double] using hexp
  unfold Format.decode at h
  dsimp only at h
  rw [if_pos hfield] at h
  split at h <;> cases h

/-- A number that stands for something finite is finite. -/
theorem isFinite_of_shape {d : Float} {neg : Bool} {m : Nat} {q : Int}
    (h : shape d = .finite neg m q) : d.isFinite = true := by
  have hexp : @unpackExponent .binary64 d.toBits.toBitVec ≠ -1#_ := by
    intro heq
    refine decode_greatest h ?_
    rw [← UInt64.toNat_toBitVec, ← toNat_unpackExponent, heq]
    rfl
  have hfinite : d.isFinite = (unpack .binary64 d.toBits.toBitVec).isFinite := rfl
  rw [hfinite, unpack, if_neg hexp]
  split
  next => split <;> rfl
  next => rfl

end Binary

/-! ## Reading digits -/

namespace Numeral

open ScriptHost.Key (isDigit_toDigits)

theorem isDigit_eq (c : Char) : isDigit c = c.isDigit := by
  unfold isDigit Char.isDigit
  rfl

theorem digitValue_digit {c : Char} (hc : c.isDigit) : digitValue c = c.toNat - 48 := by
  rw [← isDigit_eq] at hc
  exact if_pos hc

/-- An integer is written as its digits, after a sign if it is negative. -/
theorem toList_toString (n : Int) :
    (toString n).toList = (if n < 0 then ['-'] else []) ++ Nat.toDigits 10 n.natAbs := by
  cases n with
  | ofNat n =>
      have htext : (toString (Int.ofNat n)).toList = Nat.toDigits 10 n := Nat.toList_repr
      have hsign : ¬Int.ofNat n < 0 := Int.not_lt.2 (Int.natCast_nonneg n)
      rw [htext, if_neg hsign]
      rfl
  | negSucc m =>
      have hsplit : toString (Int.negSucc m) = "-" ++ toString (m + 1) := rfl
      rw [hsplit, String.toList_append, Nat.toString_eq_repr, Nat.toList_repr,
        if_pos (Int.negSucc_lt_zero m)]
      rfl

/-- The digits of a number write it. -/
theorem ofDigits_toDigits (n : Nat) : ofDigits 10 (Nat.toDigits 10 n) = n := by
  have hvalue := Nat.ofDigitChars_toDigits (b := 10) (n := n) (by decide) (by decide)
  rw [Nat.ofDigitChars_eq_foldl] at hvalue
  refine Eq.trans ?_ hvalue
  refine List.foldl_ext _ _ _ fun v c hc => ?_
  rw [digitValue_digit (isDigit_toDigits hc), Nat.mul_comm]
  rfl

variable {neg : Bool} {n : Nat}

theorem scale10_whole (hn : n ≤ 2 ^ 53) : scale10 neg n 0 = Binary.ofScaled neg n 0 := by
  unfold scale10
  by_cases h0 : n = 0
  · subst h0
    rfl
  · have hlog : n.log2 ≤ 53 := by
      have hlt := (Nat.log2_lt (k := 54) h0).2 (by omega)
      omega
    have hzero : (n == 0) = false := by simpa using h0
    have hone : n * tenTo (0 : Int).toNat = n := Nat.mul_one n
    rw [hzero, if_neg Bool.false_ne_true]
    dsimp only
    rw [if_neg (by omega), if_neg (by omega), if_pos (Int.le_refl 0), hone]
    exact Binary.ofRatio_whole h0 (by omega)

/-- The digits of an integer are read as the number that holds it. -/
theorem scanDecimal_toDigits (hn : n ≤ 2 ^ 53) :
    scanDecimal? neg (Nat.toDigits 10 n) = some (Binary.ofScaled neg n 0, []) := by
  have hall : ∀ c ∈ Nat.toDigits 10 n, isDigit c := fun c hc => isDigit_eq c ▸ isDigit_toDigits hc
  have htake : (Nat.toDigits 10 n).takeWhile isDigit = Nat.toDigits 10 n := by
    simpa using @List.takeWhile_append_of_pos _ isDigit _ [] hall
  have hdrop : (Nat.toDigits 10 n).dropWhile isDigit = [] := by
    simpa using @List.dropWhile_append_of_pos _ isDigit _ [] hall
  have hempty : ((Nat.toDigits 10 n).isEmpty && ([] : List Char).isEmpty) = false := by
    simp
  unfold scanDecimal?
  rw [htake, hdrop]
  dsimp only
  rw [hempty, if_neg Bool.false_ne_true, List.append_nil, ofDigits_toDigits]
  exact congrArg (fun d => some (d, [])) (scale10_whole hn)

end Numeral

namespace Shortest

open Binary (spare)

variable {n k p j c : Nat}

/-! ## Where the point stands -/

/-- The ratio of an integer to a power of ten, both shifted. -/
theorem ratio_integer (a k j : Nat) : ratio a (-(k : Int)) (j : Int) = (a, 2 ^ k * 10 ^ j) := by
  unfold ratio
  have hpos : (-(k : Int)).toNat = 0 := by omega
  have hneg : (-(j : Int)).toNat = 0 := by omega
  rw [hpos, hneg, Int.neg_neg, Int.toNat_natCast, Int.toNat_natCast]
  exact Prod.ext (by simp [twoTo, tenTo]) rfl

/-- The place of the point that is guessed from the size of a number in bits. -/
def guess (l : Nat) : Int := Int.fdiv ((l : Int) * 30103) 100000

theorem guess_bounds : ∀ l < 53,
    10 ^ (guess l - 2).toNat ≤ 2 ^ l ∧ 2 ^ (l + 1) ≤ 10 ^ (guess l + 2).toNat := by
  decide

theorem guess_nonneg (l : Nat) : 0 ≤ guess l := by
  unfold guess
  rw [Int.fdiv_eq_ediv_of_nonneg _ (by decide)]
  omega

/-- Whether a number lies below a power of ten. -/
def below (m : Nat) (q i : Int) : Bool :=
  decide ((ratio m q i).1 < (ratio m q i).2)

theorem pointOf_eq {m : Nat} {q : Int} {l : Nat} (hl : (m.log2 : Int) + q = l) :
    pointOf m q = if below m q (guess l - 1) then guess l - 1
      else if below m q (guess l) then guess l
      else if below m q (guess l + 1) then guess l + 1
      else guess l + 2 := by
  unfold pointOf
  rw [hl]
  rfl

/-- An integer with `p` digits is less than a power of ten just if the power has more. -/
theorem below_iff (hp : 10 ^ (p - 1) ≤ n) (hn : n < 10 ^ p) (k : Nat) (i : Int) :
    below (n * 2 ^ k) (-(k : Int)) i = true ↔ (p : Int) ≤ i := by
  have hpos : 0 < 2 ^ k := Nat.two_pow_pos k
  unfold below
  rw [decide_eq_true_eq]
  by_cases hi : 0 ≤ i
  · obtain ⟨i, rfl⟩ := Int.eq_ofNat_of_zero_le hi
    rw [ratio_integer, Nat.mul_comm n]
    change 2 ^ k * n < 2 ^ k * 10 ^ i ↔ _
    rw [Nat.mul_lt_mul_left hpos]
    constructor
    · intro hlt
      have := (Nat.pow_lt_pow_iff_right (by decide : 1 < 10)).1 (hp.trans_lt hlt)
      omega
    · intro hle
      exact hn.trans_le (Nat.pow_le_pow_right (by decide) (by omega))
  · -- A negative exponent stands for less than one, and the integer is not below that.
    have h0 : 0 < n := (Nat.pow_pos (by decide)).trans_le hp
    have hlarge : ¬(ratio (n * 2 ^ k) (-(k : Int)) i).1 < (ratio (n * 2 ^ k) (-(k : Int)) i).2 := by
      unfold ratio
      have hzero : i.toNat = 0 := by omega
      rw [hzero, Int.neg_neg, Int.toNat_natCast, Nat.not_lt]
      have hten : 0 < tenTo (-i).toNat := Nat.pow_pos (by decide)
      have htwo : 0 < twoTo (-(k : Int)).toNat := Nat.pow_pos (by decide)
      have hone : twoTo k * tenTo 0 = 2 ^ k := Nat.mul_one _
      rw [hone]
      calc 2 ^ k ≤ n * 2 ^ k := Nat.le_mul_of_pos_left _ h0
        _ ≤ n * 2 ^ k * twoTo (-(k : Int)).toNat := Nat.le_mul_of_pos_right _ htwo
        _ ≤ _ := Nat.le_mul_of_pos_right _ hten
    refine iff_of_false hlarge ?_
    omega

/-- The point stands behind the last digit. -/
theorem pointOf_integer (hp : 10 ^ (p - 1) ≤ n) (hn : n < 10 ^ p) (hsize : n < 2 ^ 53) (k : Nat) :
    pointOf (n * 2 ^ k) (-(k : Int)) = p := by
  have h0 : n ≠ 0 := (Nat.pow_pos (by decide)).trans_le hp |>.ne'
  have hp0 : 0 < p := by
    by_contra hp0
    obtain rfl : p = 0 := by omega
    omega
  have hlog : ((n * 2 ^ k).log2 : Int) + -(k : Int) = n.log2 := by
    rw [Binary.log2_shift h0]
    omega
  -- The point is looked for from two below the guess on, and it is not far above that.
  obtain ⟨hlow, hhigh⟩ := guess_bounds n.log2 (by have := Binary.log2_le hsize; omega)
  have hleast : (guess n.log2 - 2).toNat < p := by
    refine (Nat.pow_lt_pow_iff_right (by decide : 1 < 10)).1 ?_
    exact (hlow.trans (Nat.log2_self_le h0)).trans_lt hn
  have hmost : p - 1 < (guess n.log2 + 2).toNat := by
    refine (Nat.pow_lt_pow_iff_right (by decide : 1 < 10)).1 ?_
    exact (hp.trans_lt Nat.lt_log2_self).trans_le hhigh
  have hguess := guess_nonneg n.log2
  have hbelow := below_iff hp hn k
  rw [pointOf_eq hlog]
  simp only [hbelow]
  split_ifs <;> omega

/-! ## Which digits stand for an integer -/

/-- A multiple of a power of ten that differs from an integer differs by more than a rounding. -/
theorem far_apart (k j x : Nat) (hne : x * 10 ^ j ≠ n) :
    x * (2 ^ (k + 2) * 10 ^ j) + 4 ≤ n * 2 ^ (k + 2) ∨
      n * 2 ^ (k + 2) + 4 ≤ x * (2 ^ (k + 2) * 10 ^ j) := by
  have hfour : 4 ≤ 2 ^ (k + 2) := by
    rw [Nat.pow_add]
    exact Nat.le_mul_of_pos_left _ (Nat.two_pow_pos k)
  have hscaled : x * (2 ^ (k + 2) * 10 ^ j) = x * 10 ^ j * 2 ^ (k + 2) := by
    rw [Nat.mul_comm (2 ^ (k + 2)), Nat.mul_assoc]
  rw [hscaled]
  rcases Nat.lt_or_gt_of_ne hne with hlt | hgt
  · left
    calc x * 10 ^ j * 2 ^ (k + 2) + 4 ≤ x * 10 ^ j * 2 ^ (k + 2) + 2 ^ (k + 2) := by omega
      _ = (x * 10 ^ j + 1) * 2 ^ (k + 2) := (Nat.succ_mul _ _).symm
      _ ≤ n * 2 ^ (k + 2) := Nat.mul_le_mul_right _ hlt
  · right
    calc n * 2 ^ (k + 2) + 4 ≤ n * 2 ^ (k + 2) + 2 ^ (k + 2) := by omega
      _ = (n + 1) * 2 ^ (k + 2) := (Nat.succ_mul _ _).symm
      _ ≤ x * 10 ^ j * 2 ^ (k + 2) := Nat.mul_le_mul_right _ hgt

/-- With a count of digits an integer is written if the digits that are left out are zeros. -/
theorem onGrid_integer {low : Nat} (hlow : 4 * (n * 2 ^ k) - 2 ≤ low) (closed : Bool) (hc : c ≤ p) :
    onGrid .nearest (n * 2 ^ k) (-(k : Int)) low (4 * (n * 2 ^ k) + 2) closed p c =
      if 10 ^ (p - c) ∣ n then some (n / 10 ^ (p - c)) else none := by
  obtain ⟨j, hj⟩ : ∃ j, p - c = j := ⟨_, rfl⟩
  have hgrid : (p : Int) - (c : Int) = (j : Int) := by omega
  have hquarter : (-(k : Int)) - 2 = -((k + 2 : Nat) : Int) := by omega
  have hpos : 0 < 2 ^ k := Nat.two_pow_pos k
  have hdown : n * 2 ^ k / (2 ^ k * 10 ^ j) = n / 10 ^ j := by
    rw [Nat.mul_comm n, Nat.mul_div_mul_left _ _ hpos]
  have hrem : n * 2 ^ k % (2 ^ k * 10 ^ j) = 2 ^ k * (n % 10 ^ j) := by
    rw [Nat.mul_comm n, Nat.mul_mod_mul_left]
  have hquad : 4 * (n * 2 ^ k) = n * 2 ^ (k + 2) := by
    rw [Nat.pow_add, ← Nat.mul_assoc n]
    exact Nat.mul_comm ..
  unfold onGrid
  rw [hj, hgrid, hquarter]
  simp only [ratio_integer]
  rw [hdown, hrem]
  by_cases hdvd : 10 ^ j ∣ n
  · have hzero : (2 ^ k * (n % 10 ^ j) == 0) = true := by
      rw [Nat.mod_eq_zero_of_dvd hdvd]
      rfl
    rw [if_pos hzero, if_pos hdvd]
  · have hnonzero : ¬(2 ^ k * (n % 10 ^ j) == 0) = true := by
      rw [beq_iff_eq, Nat.mul_eq_zero, not_or]
      exact ⟨hpos.ne', fun h => hdvd (Nat.dvd_of_mod_eq_zero h)⟩
    -- Neither neighbour reads back: both are further away than half the last place.
    have hfar : ∀ x, ¬(low ≤ x * (2 ^ (k + 2) * 10 ^ j) ∧
        x * (2 ^ (k + 2) * 10 ^ j) ≤ 4 * (n * 2 ^ k) + 2) := by
      intro x
      have hne : x * 10 ^ j ≠ n := fun h => hdvd ⟨x, by rw [← h, Nat.mul_comm]⟩
      rcases far_apart k j x hne with hless | hmore
      · omega
      · omega
    have houtside : ∀ x, (if closed = true then
        decide (low ≤ x * (2 ^ (k + 2) * 10 ^ j)) &&
          decide (x * (2 ^ (k + 2) * 10 ^ j) ≤ 4 * (n * 2 ^ k) + 2)
        else decide (low < x * (2 ^ (k + 2) * 10 ^ j)) &&
          decide (x * (2 ^ (k + 2) * 10 ^ j) < 4 * (n * 2 ^ k) + 2)) = false := by
      intro x
      have := hfar x
      cases closed with
      | true => simpa using hfar x
      | false =>
          simp only [Bool.false_eq_true, if_false, Bool.and_eq_false_iff, decide_eq_false_iff_not]
          omega
    rw [if_neg hnonzero, if_neg hdvd]
    simp only [houtside, Bool.false_and]

/-- The search ends with an integer without some of its last zeros. -/
theorem search_integer {low : Nat} (hlow : 4 * (n * 2 ^ k) - 2 ≤ low) (closed : Bool)
    (hn : n < 10 ^ p) : ∀ fuel c, 0 < c → c ≤ p → p < c + fuel →
      ∃ j < p, 10 ^ j ∣ n ∧ search .nearest (n * 2 ^ k) (-(k : Int)) low (4 * (n * 2 ^ k) + 2) closed p
        fuel c = ⟨n / 10 ^ j, p - j, p⟩ := by
  intro fuel
  induction fuel with
  | zero =>
      intro c _ hc hfuel
      omega
  | succ fuel ih =>
      intro c h0 hc hfuel
      rw [search, onGrid_integer hlow closed hc]
      by_cases hdvd : 10 ^ (p - c) ∣ n
      · have hfits : n / 10 ^ (p - c) < 10 ^ c := by
          rw [Nat.div_lt_iff_lt_mul (Nat.pow_pos (by decide)), ← Nat.pow_add,
            Nat.add_sub_cancel' hc]
          exact hn
        have hbelow : (n / 10 ^ (p - c) == tenTo c) = false := beq_eq_false_iff_ne.2 hfits.ne
        refine ⟨p - c, by omega, hdvd, ?_⟩
        rw [if_pos hdvd]
        simp only [hbelow, Bool.false_eq_true, if_false]
        rw [Nat.sub_sub_self hc]
      · -- With all its digits the integer is written, so some are still left out.
        have hless : c < p := by
          refine Nat.lt_of_le_of_ne hc fun heq => hdvd ?_
          rw [heq, Nat.sub_self]
          exact Nat.one_dvd n
        rw [if_neg hdvd]
        exact ih (c + 1) (by omega) (by omega) (by omega)

/-! ## Zeros at the end -/

/-- Zeros behind digits write a multiple of a power of ten. -/
theorem toDigits_shift (hn : 0 < n) (j : Nat) :
    Nat.toDigits 10 (n * 10 ^ j) = Nat.toDigits 10 n ++ List.replicate j '0' := by
  induction j with
  | zero => simp
  | succ j ih =>
      have hsplit : n * 10 ^ (j + 1) = 10 * (n * 10 ^ j) + 0 := by
        rw [Nat.pow_succ, Nat.add_zero, ← Nat.mul_assoc, Nat.mul_comm 10]
      have hpos : 0 < n * 10 ^ j := Nat.mul_pos hn (Nat.pow_pos (by decide))
      rw [hsplit, ← Nat.toDigits_append_toDigits (by decide) hpos (by decide), ih,
        List.append_assoc, List.replicate_succ']
      rfl

/-- What is left of digits without the zeros at their end lacks zeros only. -/
theorem stripped (cs : List Char) :
    ∃ i, cs = (cs.reverse.dropWhile (· == '0')).reverse ++ List.replicate i '0' := by
  have hzeros : cs.reverse.takeWhile (· == '0') =
      List.replicate (cs.reverse.takeWhile (· == '0')).length '0' := by
    refine List.eq_replicate_of_mem fun c hc => ?_
    exact beq_iff_eq.1 (List.mem_takeWhile_imp (p := (· == '0')) hc)
  refine ⟨(cs.reverse.takeWhile (· == '0')).length, ?_⟩
  have hback : cs.reverse.reverse =
      (cs.reverse.takeWhile (· == '0') ++ cs.reverse.dropWhile (· == '0')).reverse :=
    congrArg List.reverse List.takeWhile_append_dropWhile.symm
  rw [List.reverse_reverse, List.reverse_append] at hback
  refine hback.trans (congrArg _ ?_)
  rw [hzeros, List.reverse_replicate, List.length_replicate]

theorem digits_bounds (hn : 0 < n) (hp : (Nat.toDigits 10 n).length = p) :
    0 < p ∧ 10 ^ (p - 1) ≤ n ∧ n < 10 ^ p := by
  have hpos : 0 < p := hp ▸ List.length_pos_of_ne_nil Nat.toDigits_ne_nil
  have hlt : n < 10 ^ p := (Nat.length_toDigits_le_iff (by decide) hpos).1 hp.le
  refine ⟨hpos, ?_, hlt⟩
  by_cases hone : p = 1
  · subst hone
    exact hn
  · refine Nat.le_of_not_lt fun hless => ?_
    have := (Nat.length_toDigits_le_iff (by decide) (by omega)).2 hless
    omega

end Shortest

namespace NumberText

open Shortest

/-- Digits are padded with the zeros that they lack before the point. -/
theorem layout_padded {cs : List Char} {j p : Nat} (hp : cs.length + j = p) (hsize : p ≤ 21) :
    layout cs p = String.ofList (cs ++ List.replicate j '0') := by
  have hwhole : (decide ((cs.length : Int) ≤ (p : Int)) && decide ((p : Int) ≤ 21)) = true := by
    rw [Bool.and_eq_true, decide_eq_true_eq, decide_eq_true_eq]
    omega
  have hlack : ((p : Int) - (cs.length : Int)).toNat = j := by omega
  unfold layout
  rw [if_pos hwhole, hlack]

/-- The shortest digits of an integer, laid out, are its own. -/
theorem layout_ofScaled {n : Nat} (h0 : 0 < n) (hn : n < 2 ^ 53) (k : Nat) :
    layout (Shortest.ofScaled .nearest (n * 2 ^ k) (-(k : Int))).chars
      (Shortest.ofScaled .nearest (n * 2 ^ k) (-(k : Int))).point =
      String.ofList (Nat.toDigits 10 n) := by
  obtain ⟨p, hp⟩ : ∃ p, (Nat.toDigits 10 n).length = p := ⟨_, rfl⟩
  obtain ⟨hpos, hleast, hmost⟩ := digits_bounds h0 hp
  have hshort : p ≤ 16 := by
    rw [← hp]
    exact (Nat.length_toDigits_le_iff (by decide) (by decide)).2 (hn.trans (by decide))
  have hlow : 4 * (n * 2 ^ k) - 2 ≤ if (n * 2 ^ k == twoTo 52 && decide (-(k : Int) > -1074)) = true
      then 4 * (n * 2 ^ k) - 1 else 4 * (n * 2 ^ k) - 2 := by
    split <;> omega
  -- The search may leave out zeros at the end; the layout puts as many back.
  obtain ⟨j, hj, hdvd, hsearch⟩ :=
    search_integer hlow (n * 2 ^ k % 2 == 0) hmost 20 1 (by decide) (by omega) (by omega)
  have hdec : Shortest.ofScaled .nearest (n * 2 ^ k) (-(k : Int)) = ⟨n / 10 ^ j, p - j, p⟩ := by
    unfold Shortest.ofScaled
    rw [pointOf_integer hleast hmost hn]
    exact hsearch
  obtain ⟨x, rfl⟩ := hdvd
  have hx : 0 < x := Nat.pos_of_mul_pos_left h0
  have hdiv : 10 ^ j * x / 10 ^ j = x := Nat.mul_div_cancel_left _ (Nat.pow_pos (by decide))
  rw [Nat.mul_comm, toDigits_shift hx, List.length_append, List.length_replicate] at hp
  rw [hdec, hdiv, Nat.mul_comm, toDigits_shift hx]
  have hfull : p - j - (Nat.toDigits 10 x).length = 0 := by omega
  obtain ⟨i, hi⟩ := stripped (Nat.toDigits 10 x)
  have hchars : Decimal.chars ⟨x, p - j, p⟩ =
      ((Nat.toDigits 10 x).reverse.dropWhile (· == '0')).reverse := by
    unfold Decimal.chars
    dsimp only
    rw [hfull]
    rfl
  rw [hchars]
  have hlength := congrArg List.length hi
  rw [List.length_append, List.length_replicate] at hlength
  rw [layout_padded (j := i + j) (by omega) (by omega), List.replicate_add, ← List.append_assoc,
    ← hi]

/-- A number that holds an integer is written as the integer. -/
theorem ofFloat_ofInt {n : Int} (hn : n.natAbs ≤ 2 ^ 53) :
    ofFloat (Binary.ofInt n) = toString n := by
  by_cases h0 : n = 0
  · subst h0
    decide
  -- The greatest integers do not fit in the fraction as the others do.
  by_cases hmost : n.natAbs = 2 ^ 53
  · rcases Int.natAbs_eq n with h | h <;> rw [hmost] at h <;> subst h <;> decide
  have hlt : n.natAbs < 2 ^ 53 := by omega
  have hpos : 0 < n.natAbs := by omega
  have hshape : Binary.shape (Binary.ofInt n) = _ :=
    @Binary.shape_ofScaled (decide (n < 0)) n.natAbs (by omega) hlt
  have hnonzero : (n.natAbs * 2 ^ Binary.spare n.natAbs == 0) = false :=
    beq_eq_false_iff_ne.2 (Nat.mul_pos hpos (Nat.two_pow_pos _)).ne'
  apply String.toList_injective
  unfold ofFloat
  rw [hshape]
  simp only [hnonzero, Bool.false_eq_true, if_false]
  rw [layout_ofScaled hpos hlt, String.toList_append, Numeral.toList_toString, String.toList_ofList]
  congr 1
  by_cases hneg : n < 0
  · rw [if_pos hneg, if_pos (decide_eq_true hneg)]
    rfl
  · rw [if_neg hneg, if_neg (by simpa using hneg)]
    rfl

end NumberText

end ScriptHost
