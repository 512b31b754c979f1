import Mathlib.Data.List.Basic
import Mathlib.Data.List.Induction
import ScriptHost.Engine.Value
/-!
# Texts of host strings and of numbers

A host string survives the way to the engine and back, whatever characters it has.  A number has one
text, and the texts that count as indices are those of the numbers below the limit, so that the keys
of a text and of the number that it writes are one key.
-/

namespace ScriptHost

namespace Text

/-! ## Units -/

theorem ext_units {t t' : Text} (h : t.units.toList = t'.units.toList) : t = t' := by
  obtain ⟨units⟩ := t
  obtain ⟨units'⟩ := t'
  have hunits : units = units' := Array.toList_inj.1 h
  rw [hunits]

theorem units_pushPoint (t : Text) (n : Nat) :
    (t.pushPoint n).units.toList = t.units.toList ++ unitsOf n := by
  unfold pushPoint unitsOf
  split <;> simp

/-- A text has the units of its characters, one after the other. -/
theorem units_ofChars (cs : List Char) :
    (ofChars cs).units.toList = cs.flatMap fun c => unitsOf c.toNat := by
  have hfold : ∀ t : Text, (cs.foldl (fun t c => t.pushPoint c.toNat) t).units.toList =
      t.units.toList ++ cs.flatMap fun c => unitsOf c.toNat := by
    induction cs with
    | nil => simp
    | cons c cs ih =>
        intro t
        rw [List.foldl_cons, ih, units_pushPoint, List.flatMap_cons, List.append_assoc]
  simpa [ofChars, empty] using hfold empty

theorem units_ofString (s : String) :
    (ofString s).units.toList = s.toList.flatMap fun c => unitsOf c.toNat :=
  units_ofChars s.toList

/-! ## Back to host strings -/

theorem decode_single {u : UInt16} (hlead : isLead u = false) (htrail : isTrail u = false)
    (s : String) : [u].foldl decodeStep (s, none) = (s.push (Char.ofNat u.toNat), none) := by
  simp [decodeStep, hlead, htrail]

theorem decode_pair {lead trail : UInt16} (hlead : isLead lead) (htrail : isTrail trail)
    (s : String) : [lead, trail].foldl decodeStep (s, none) =
      (s.push (Char.ofNat (pairValue lead trail)), none) := by
  simp [decodeStep, hlead, htrail]

theorem toNat_ofNat_of_lt {n : Nat} (hn : n < 0x10000) : (UInt16.ofNat n).toNat = n := by
  rw [UInt16.toNat_ofNat']
  omega

/-- The units of a character are read as that character. -/
theorem decode_unitsOf (c : Char) (s : String) :
    (unitsOf c.toNat).foldl decodeStep (s, none) = (s.push c, none) := by
  have hvalid : c.toNat < 0xD800 ∨ 0xDFFF < c.toNat ∧ c.toNat < 0x110000 := c.valid
  unfold unitsOf
  split
  next hsmall =>
    -- A character is no surrogate.
    have hunit : (UInt16.ofNat c.toNat).toNat = c.toNat := toNat_ofNat_of_lt hsmall
    rw [decode_single, hunit, Char.ofNat_toNat]
    · simp only [isLead, hunit, Bool.and_eq_false_iff, decide_eq_false_iff_not]
      omega
    · simp only [isTrail, hunit, Bool.and_eq_false_iff, decide_eq_false_iff_not]
      omega
  next hlarge =>
    -- Two surrogates, which are read as the value that they were made from.
    have hfirst := toNat_ofNat_of_lt (n := 0xD800 + (c.toNat - 0x10000) / 0x400) (by omega)
    have hsecond := toNat_ofNat_of_lt (n := 0xDC00 + (c.toNat - 0x10000) % 0x400) (by omega)
    rw [decode_pair]
    · have hpair : pairValue (UInt16.ofNat (0xD800 + (c.toNat - 0x10000) / 0x400))
          (UInt16.ofNat (0xDC00 + (c.toNat - 0x10000) % 0x400)) = c.toNat := by
        unfold pairValue
        rw [hfirst, hsecond]
        omega
      rw [hpair, Char.ofNat_toNat]
    · unfold isLead
      rw [hfirst, Bool.and_eq_true, decide_eq_true_eq, decide_eq_true_eq]
      omega
    · unfold isTrail
      rw [hsecond, Bool.and_eq_true, decide_eq_true_eq, decide_eq_true_eq]
      omega

/-- Nothing of a host string is lost on the way to a text and back. -/
theorem toHostString_ofString (s : String) : (ofString s).toHostString = s := by
  -- Between two characters no lead is left over, which is why one can be read after the other.
  have hfold : ∀ (cs : List Char) (s : String),
      (cs.flatMap fun c => unitsOf c.toNat).foldl decodeStep (s, none) =
        (s ++ String.ofList cs, none) := by
    intro cs
    induction cs with
    | nil => simp
    | cons c cs ih =>
        intro s
        rw [List.flatMap_cons, List.foldl_append, decode_unitsOf, ih]
        congr 1
        apply String.toList_inj.1
        simp
  unfold toHostString
  rw [← Array.foldl_toList, units_ofString, hfold]
  simp

end Text

/-! ## Numbers -/

namespace Key

open Text

/-- The unit of a character below the surrogates. -/
theorem unitsOf_isDigit {c : Char} (hc : c.isDigit) : unitsOf c.toNat = [UInt16.ofNat c.toNat] := by
  rw [Char.isDigit_iff_toNat] at hc
  have hsmall : c.toNat < 0x10000 := by
    have hle : c.toNat ≤ 57 := hc.2
    omega
  exact if_pos hsmall

theorem flatMap_unitsOf {cs : List Char} (hcs : ∀ c ∈ cs, c.isDigit) :
    cs.flatMap (fun c => unitsOf c.toNat) = cs.map fun c => UInt16.ofNat c.toNat := by
  induction cs with
  | nil => rfl
  | cons c cs ih =>
      rw [List.flatMap_cons, unitsOf_isDigit (hcs c List.mem_cons_self),
        ih fun c hc => hcs c (List.mem_cons_of_mem _ hc)]
      rfl

theorem isDigit_toDigits {n : Nat} {c : Char} (hc : c ∈ Nat.toDigits 10 n) : c.isDigit :=
  Nat.isDigit_of_mem_toDigits (by decide) (by decide) hc

theorem units_natText (n : Nat) :
    (natText n).units.toList = (Nat.toDigits 10 n).map fun c => UInt16.ofNat c.toNat := by
  unfold natText
  rw [units_ofString, Nat.toString_eq_repr, Nat.toList_repr]
  exact flatMap_unitsOf fun c => isDigit_toDigits

theorem toNat_digit {c : Char} (hc : c.isDigit) : (UInt16.ofNat c.toNat).toNat = c.toNat := by
  rw [Char.isDigit_iff_toNat] at hc
  have hle : c.toNat ≤ 57 := hc.2
  rw [UInt16.toNat_ofNat']
  omega

/-- A run of digits writes the same number as characters and as units. -/
theorem digitsValue_eq {t : Text} {cs : List Char} (hcs : ∀ c ∈ cs, c.isDigit)
    (ht : t.units.toList = cs.map fun c => UInt16.ofNat c.toNat) :
    t.digitsValue = Nat.ofDigitChars 10 cs 0 := by
  unfold digitsValue
  rw [← Array.foldl_toList, ht, Nat.ofDigitChars_eq_foldl, List.foldl_map]
  refine List.foldl_ext _ _ _ fun v c hc => ?_
  rw [toNat_digit (hcs c hc), Nat.mul_comm]
  rfl

/-- A number is read off its text. -/
theorem digitsValue_natText (n : Nat) : (natText n).digitsValue = n := by
  rw [digitsValue_eq (fun c => isDigit_toDigits) (units_natText n)]
  exact Nat.ofDigitChars_toDigits (by decide) (by decide)

theorem natText_injective {n n' : Nat} (h : natText n = natText n') : n = n' := by
  rw [← digitsValue_natText n, h, digitsValue_natText]

/-- Only zero is written with a leading zero. -/
theorem head_toDigits {n : Nat} (hn : 0 < n) : (Nat.toDigits 10 n).head? ≠ some '0' := by
  induction n using Nat.strongRecOn with
  | ind n ih =>
      rw [Nat.toDigits_eq_if (by decide)]
      split
      next hsmall => simpa using (by omega : n ≠ 0)
      next hlarge =>
        have hhead := ih (n / 10) (by omega) (by omega)
        rwa [List.head?_append_of_ne_nil _ Nat.toDigits_ne_nil]

/-- A run of digits without a leading zero is what is written for the number that it writes. -/
theorem toDigits_ofDigitChars {cs : List Char} (hcs : ∀ c ∈ cs, c.isDigit) (hne : cs ≠ [])
    (hhead : cs.head? = some '0' → cs.length = 1) :
    Nat.toDigits 10 (Nat.ofDigitChars 10 cs 0) = cs := by
  -- From the last digit, as a number is written.
  induction cs using List.reverseRecOn with
  | nil => exact absurd rfl hne
  | append_singleton cs c ih =>
      have hc : c.isDigit := hcs c (by simp)
      rw [Char.isDigit_iff_toNat] at hc
      have hlow : 48 ≤ c.toNat := hc.1
      have hhigh : c.toNat ≤ 57 := hc.2
      have hdigit : Nat.toDigits 10 (c.toNat - 48) = [c] := by
        rw [Nat.toDigits_of_lt_base (by omega), List.cons.injEq]
        refine ⟨Char.toNat_inj.1 ?_, rfl⟩
        rw [Nat.toNat_digitChar_of_lt_ten (by omega)]
        omega
      have hvalue : Nat.ofDigitChars 10 (cs ++ [c]) 0 =
          10 * Nat.ofDigitChars 10 cs 0 + (c.toNat - 48) := by
        simp [Nat.ofDigitChars_append, Nat.ofDigitChars_cons]
      rw [hvalue]
      by_cases hempty : cs = []
      · subst hempty
        simpa using hdigit
      · -- What stands before the last digit has no leading zero at all.
        have hfirst : cs.head? ≠ some '0' := by
          intro hzero
          have hone : (cs ++ [c]).length = 1 := by
            apply hhead
            rw [List.head?_append_of_ne_nil _ hempty, hzero]
          have hlength : 0 < cs.length := List.length_pos_iff.2 hempty
          rw [List.length_append, List.length_singleton] at hone
          omega
        have hcs' := ih (fun c hc => hcs c (List.mem_append_left _ hc)) hempty
          fun hzero => absurd hzero hfirst
        have hpos : 0 < Nat.ofDigitChars 10 cs 0 := by
          rw [Nat.pos_iff_ne_zero]
          intro hzero
          rw [hzero] at hcs'
          exact hfirst (by rw [← hcs']; rfl)
        calc
          Nat.toDigits 10 (10 * Nat.ofDigitChars 10 cs 0 + (c.toNat - 48)) =
              Nat.toDigits 10 (Nat.ofDigitChars 10 cs 0) ++ Nat.toDigits 10 (c.toNat - 48) :=
            (Nat.toDigits_append_toDigits (by decide) hpos (by omega)).symm
          _ = cs ++ [c] := by rw [hcs', hdigit]

/-! ## Texts that count as indices -/

theorem isDigits_iff {t : Text} : t.isDigits = true ↔
    t.units.toList ≠ [] ∧ ∀ u ∈ t.units.toList, 48 ≤ u.toNat ∧ u.toNat ≤ 57 := by
  unfold isDigits
  rw [Bool.and_eq_true, Array.all_eq_true_iff_forall_mem]
  simp [isEmpty]

theorem isDigits_natText (n : Nat) : (natText n).isDigits = true := by
  rw [isDigits_iff, units_natText]
  refine ⟨by simp, fun u hu => ?_⟩
  obtain ⟨c, hc, rfl⟩ := List.mem_map.1 hu
  rw [toNat_digit (isDigit_toDigits hc)]
  exact Char.isDigit_iff_toNat.1 (isDigit_toDigits hc)

theorem size_natText (n : Nat) : (natText n).size = (Nat.toDigits 10 n).length := by
  have hlength := congrArg List.length (units_natText n)
  simpa [Text.size] using hlength

theorem at_zero (t : Text) : t.at' 0 = (t.units.toList.head?.getD 0).toNat := by
  rw [List.head?_eq_getElem?, Array.getElem?_toList]
  rfl

/-- The text of a number has a leading zero only if it is that of zero. -/
theorem at_zero_natText {n : Nat} (h : (natText n).at' 0 = 48) : n = 0 := by
  by_contra hn
  have hhead := head_toDigits (Nat.pos_of_ne_zero hn)
  rw [at_zero, units_natText, List.head?_map] at h
  obtain ⟨c, hc⟩ : ∃ c, (Nat.toDigits 10 n).head? = some c :=
    ⟨_, List.head?_eq_some_head Nat.toDigits_ne_nil⟩
  have hdigit : c.isDigit := isDigit_toDigits (List.mem_of_mem_head? hc)
  rw [hc, Option.map_some, Option.getD_some, toNat_digit hdigit] at h
  have hzero : c = '0' := Char.toNat_inj.1 h
  rw [hc, hzero] at hhead
  exact hhead rfl

/-- Digits without a leading zero are the text of the number that they write. -/
theorem eq_natText {t : Text} (ht : t.isDigits) (hhead : t.at' 0 = 48 → t.size = 1) :
    t = natText t.digitsValue := by
  rw [isDigits_iff] at ht
  obtain ⟨hne, hunits⟩ := ht
  -- The characters that the units are.
  obtain ⟨cs, hcs⟩ : ∃ cs, cs = t.units.toList.map fun u => Char.ofNat u.toNat := ⟨_, rfl⟩
  have hchar : ∀ u ∈ t.units.toList, (Char.ofNat u.toNat).toNat = u.toNat := by
    intro u hu
    have hle := (hunits u hu).2
    have hvalid : u.toNat.isValidChar := .inl (by omega)
    unfold Char.ofNat
    rw [dif_pos hvalid]
    rfl
  have hdigits : ∀ c ∈ cs, c.isDigit := by
    intro c hc
    rw [hcs] at hc
    obtain ⟨u, hu, rfl⟩ := List.mem_map.1 hc
    rw [Char.isDigit_iff_toNat, hchar u hu]
    exact hunits u hu
  have hback : t.units.toList = cs.map fun c => UInt16.ofNat c.toNat := by
    rw [hcs, List.map_map]
    refine (List.map_id _).symm.trans (List.map_congr_left fun u hu => ?_)
    simp [hchar u hu]
  have hlength : cs.length = t.size := by simp [hcs, Text.size]
  have hone : cs.head? = some '0' → cs.length = 1 := by
    intro hzero
    rw [hlength]
    apply hhead
    rw [at_zero, hback, List.head?_map, hzero]
    rfl
  apply ext_units
  rw [units_natText, digitsValue_eq hdigits hback, toDigits_ofDigitChars hdigits _ hone, hback]
  rintro rfl
  exact hne (List.map_eq_nil_iff.1 hcs.symm)

/-- The texts that count as indices are the texts of the numbers below the limit. -/
theorem indexOfText_eq_some {t : Text} {n : Nat} :
    indexOfText? t = some n ↔ n < indexLimit ∧ t = natText n := by
  constructor
  · intro h
    unfold indexOfText? at h
    split at h
    · cases h
    split at h
    · cases h
    next hdigits =>
      rw [Bool.not_eq_true, Bool.not_eq_false'] at hdigits
      split at h
      · cases h
      next hhead =>
        have hone : t.at' 0 = 48 → t.size = 1 := by
          intro hzero
          simpa [hzero] using hhead
        dsimp only at h
        split at h
        next hlimit =>
          cases h
          exact ⟨hlimit, eq_natText hdigits hone⟩
        · cases h
  · -- The text of a number below the limit passes every check: its length, its digits, its head.
    rintro ⟨hn, rfl⟩
    have hlimit : indexLimit ≤ 10 ^ 10 := by decide
    have hsize : (natText n).size ≤ 10 := by
      rw [size_natText, Nat.length_toDigits_le_iff (by decide) (by decide)]
      omega
    have hpos : 0 < (natText n).size := by
      rw [size_natText]
      exact Nat.length_toDigits_pos
    have hhead : (natText n).at' 0 = 48 → (natText n).size = 1 := by
      intro hzero
      rw [at_zero_natText hzero]
      decide
    unfold indexOfText?
    rw [if_neg (by simp; omega), if_neg (by simp [isDigits_natText]), if_neg (by simpa using hhead),
      digitsValue_natText]
    exact if_pos hn

/-! ## Keys of texts -/

/-- A text has an index for its key, which is written like this, or itself. -/
theorem ofText_cases (t : Text) :
    (∃ n, indexOfText? t = some n ∧ t = natText n ∧ ofText t = .index n) ∨
      (indexOfText? t = none ∧ ofText t = .name t) := by
  unfold ofText
  cases hindex : indexOfText? t with
  | some n => exact .inl ⟨n, rfl, (indexOfText_eq_some.1 hindex).2, rfl⟩
  | none => exact .inr ⟨rfl, rfl⟩

/-- A text with a unit that is no digit has itself for its key. -/
theorem ofText_eq_name {t : Text} (ht : ∃ u ∈ t.units.toList, u.toNat < 48 ∨ 57 < u.toNat) :
    ofText t = .name t := by
  have hdigits : ¬ t.isDigits := by
    rw [isDigits_iff]
    rintro ⟨-, hall⟩
    obtain ⟨u, hu, hno⟩ := ht
    have hdigit := hall u hu
    omega
  unfold ofText indexOfText?
  rw [if_pos (c := (!t.isDigits) = true) (by simpa using hdigits), ite_self]

theorem ofText_natText {n : Nat} (hn : n < indexLimit) : ofText (natText n) = .index n := by
  unfold ofText
  rw [indexOfText_eq_some.2 ⟨hn, rfl⟩]

/-- A key that is made of a text is the one for what it stands for. -/
theorem interned_ofText (t : Text) : (ofText t).interned = ofText t := by
  rcases ofText_cases t with ⟨n, hindex, -, hkey⟩ | ⟨-, hkey⟩
  · rw [hkey]
    exact if_pos (indexOfText_eq_some.1 hindex).1
  · rw [hkey]
    exact hkey

/-- A number has the key of its text. -/
theorem ofNat_eq_ofText (n : Nat) : ofNat n = ofText (natText n) := by
  unfold ofNat
  split
  next hn => exact (ofText_natText hn).symm
  next hn =>
    have hnone : indexOfText? (natText n) = none := by
      rw [Option.eq_none_iff_forall_ne_some]
      intro n' hn'
      obtain ⟨hlimit, htext⟩ := indexOfText_eq_some.1 hn'
      rw [natText_injective htext] at hn
      exact hn hlimit
    unfold ofText
    rw [hnone]

end Key

end ScriptHost
