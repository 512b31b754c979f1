import ScriptHost.Proofs.Numerals
import ScriptHost.Script.Lexer
/-!
# Reading the numeral of a big integer

The tokens of a text that holds nothing but a decimal numeral, marked as that of a big integer, with a
minus sign in front of it or without one.
-/

namespace ScriptHost

/-! ## What stands in a text -/

namespace Text

variable {t part : Text} {i : Nat} {u : UInt16} {us : List UInt16}

/-- The units of a text from a position on. -/
def since (t : Text) (i : Nat) : List UInt16 := t.units.toList.drop i

theorem getElem?_since (t : Text) (i k : Nat) : (t.since i)[k]? = t.units[i + k]? := by
  rw [since, List.getElem?_drop, Array.getElem?_toList]

theorem at_since (t : Text) (i k : Nat) : t.at' (i + k) = ((t.since i)[k]?.getD 0).toNat := by
  rw [getElem?_since]
  rfl

theorem since_succ (h : t.since i = u :: us) : t.since (i + 1) = us := by
  rw [since, ← List.drop_drop, ← since, h]
  rfl

theorem since_add {vs : List UInt16} (h : t.since i = vs ++ us) : t.since (i + vs.length) = us := by
  rw [since, ← List.drop_drop, ← since, h, List.drop_left]

theorem size_since (t : Text) (i : Nat) : (t.since i).length = t.size - i := by
  rw [since, List.length_drop, Array.length_toList, size]

/-- A position is past the end of a text if nothing stands from there on. -/
theorem size_le_iff : t.size ≤ i ↔ t.since i = [] := by
  rw [← List.length_eq_zero_iff, size_since]
  omega

theorem pointAt_end (h : t.since i = []) : t.pointAt i = (0, 0) := by
  have hnone : t.get? i = none := by
    have hget := getElem?_since t i 0
    rw [h] at hget
    exact hget.symm
  unfold pointAt
  rw [hnone]

/-- A unit that begins no pair is a code point of its own. -/
theorem pointAt_unit (h : t.since i = u :: us) (hlead : isLead u = false) :
    t.pointAt i = (u.toNat, 1) := by
  have hsome : t.get? i = some u := by
    have hget := getElem?_since t i 0
    rw [h] at hget
    exact hget.symm
  unfold pointAt
  rw [hsome]
  exact if_neg (by simp [hlead])

theorem pointAt_ascii (hi : i < t.size) (hascii : t.at' i < 128) : t.pointAt i = (t.at' i, 1) := by
  obtain ⟨u, us, h⟩ := List.exists_cons_of_ne_nil fun hend => Nat.not_le.2 hi (size_le_iff.2 hend)
  have hu : t.at' i = u.toNat := by
    have hat := at_since t i 0
    rwa [h] at hat
  rw [pointAt_unit h, hu]
  simp [isLead]
  omega

/-- A part that stands somewhere in a text agrees with it unit by unit. -/
theorem at_of_matchesAt (h : t.matchesAt part i) {k : Nat} (hk : k < part.size) :
    t.at' (i + k) = part.at' k := by
  obtain ⟨hfits, hsame⟩ := Bool.and_eq_true_iff.1 h
  have hunits : t.units.extract i (i + part.size) = part.units := eq_of_beq hsame
  have hfits : i + part.size ≤ t.units.size := of_decide_eq_true hfits
  unfold at'
  rw [← hunits, Array.getElem?_extract, if_pos (by omega)]

end Text

namespace Script

/-! ## Readers -/

/-- What is done after a reader goes on from where that one stopped. -/
theorem reader_bind {ρ σ ε α β : Type} {x : ReaderT ρ (StateT σ (Except ε)) α}
    {f : α → ReaderT ρ (StateT σ (Except ε)) β} {r : ρ} {s u : σ} {a : α}
    (h : x r s = .ok (a, u)) : (x >>= f) r s = f a r u := by
  change (x r s >>= fun p => f p.1 r p.2) = f a r u
  rw [h]
  rfl

namespace Lex

open Text

variable {t : Text} {s : LexState} {u : UInt16} {us : List UInt16}

theorem read_eq : (read : Lex Text) t s = .ok (t, s) := rfl

theorem get_eq : (get : Lex LexState) t s = .ok (s, s) := rfl

theorem ahead_eq (k : Nat) : ahead k t s = .ok (t.at' (s.pos + k), s) := rfl

theorem atEnd_eq : atEnd t s = .ok (decide (s.pos ≥ t.size), s) := rfl

theorem skip_eq (k : Nat) : skip k t s = .ok ((), { s with pos := s.pos + k }) := rfl

/-- The mark at the end of the numeral of a big integer. -/
def bigMark : UInt16 := 110

/-- The units of the decimal numeral of a big integer. -/
def bigUnits (n : Nat) : List UInt16 :=
  (Nat.toDigits 10 n).map (fun c => UInt16.ofNat c.toNat) ++ [bigMark]

/-! ## Digits -/

section Digits

variable {c : Char} (hc : c.isDigit)
include hc

theorem digit_range : 48 ≤ c.toNat ∧ c.toNat ≤ 57 := Char.isDigit_iff_toNat.1 hc

theorem digitValue_lt : Numeral.digitValue c < 10 := by
  have hrange := digit_range hc
  rw [Numeral.digitValue_digit hc]
  omega

/-- A digit is read as part of a numeral. -/
theorem digitsIn_digit {fuel n count : Nat} (h : t.at' s.pos = c.toNat) :
    digitsIn 10 (fuel + 1) n count t s =
      digitsIn 10 fuel (n * 10 + Numeral.digitValue c) (count + 1) t { s with pos := s.pos + 1 } := by
  have hrange := digit_range hc
  have htaken : (decide (c.toNat < 128) && decide (Numeral.digitValue c < 10)) = true := by
    simp [digitValue_lt hc]
    omega
  have hchar : Char.ofNat c.toNat = c := Char.ofNat_toNat c
  rw [digitsIn, reader_bind (ahead_eq 0), Nat.add_zero, h]
  rw [hchar, if_pos htaken, reader_bind (skip_eq 1)]

end Digits

/-- Digits are read up to the mark of a big integer. -/
theorem digitsIn_digits {cs : List Char} (hcs : ∀ c ∈ cs, c.isDigit) {fuel n count : Nat}
    (hfuel : cs.length < fuel)
    (h : t.since s.pos = cs.map (fun c => UInt16.ofNat c.toNat) ++ bigMark :: us) :
    digitsIn 10 fuel n count t s =
      .ok ((cs.foldl (fun n c => n * 10 + Numeral.digitValue c) n, count + cs.length),
        { s with pos := s.pos + cs.length }) := by
  induction cs generalizing s fuel n count with
  | nil =>
      obtain ⟨fuel, rfl⟩ := Nat.exists_eq_add_one_of_ne_zero (Nat.ne_of_gt hfuel)
      have hu : t.at' (s.pos + 0) = 110 := by rw [at_since, h]; rfl
      unfold digitsIn
      rw [reader_bind (ahead_eq 0), hu]
      rfl
  | cons c cs ih =>
      obtain ⟨fuel, rfl⟩ := Nat.exists_eq_add_one_of_ne_zero (Nat.ne_of_gt (Nat.zero_lt_of_lt hfuel))
      have hc := hcs c List.mem_cons_self
      -- A digit is taken into the number, and what is behind it is read by induction.
      have hu : t.at' s.pos = c.toNat := by
        have hat := at_since t s.pos 0
        rw [h] at hat
        exact hat.trans (Key.toNat_digit hc)
      rw [digitsIn_digit hc hu, ih (fun d hd => hcs d (List.mem_cons_of_mem c hd))
        (Nat.lt_of_succ_lt_succ hfuel) (since_succ h), List.length_cons, List.foldl_cons]
      have hcount : count + 1 + cs.length = count + (cs.length + 1) := by omega
      have hpos : s.pos + 1 + cs.length = s.pos + (cs.length + 1) := by omega
      rw [hcount, hpos]

/-- A numeral may stand at the end of a text. -/
theorem endNumber_end (v : Value) (h : t.since s.pos = []) : endNumber v t s = .ok (.number v, s) := by
  unfold endNumber
  rw [reader_bind read_eq, reader_bind get_eq, pointAt_end h]
  rfl

/-- The numeral begins with a digit, which is a zero only if nothing but the mark follows it. -/
theorem bigUnits_head {i n : Nat} (h : t.since i = bigUnits n) :
    (48 ≤ t.at' i ∧ t.at' i ≤ 57) ∧ (t.at' i = 48 → t.at' (i + 1) = 110) := by
  obtain ⟨c, cs, hcs⟩ := List.exists_cons_of_ne_nil (Nat.toDigits_ne_nil (b := 10) (n := n))
  have hc : c.isDigit := Key.isDigit_toDigits (hcs ▸ List.mem_cons_self)
  have hhead : t.at' i = c.toNat := by
    have hat := at_since t i 0
    rw [h, bigUnits, hcs] at hat
    exact hat.trans (Key.toNat_digit hc)
  refine ⟨hhead ▸ digit_range hc, fun hzero => ?_⟩
  have hchar : c = '0' := Char.toNat_inj.1 (hhead.symm.trans hzero)
  have hn : n = 0 := by
    by_contra hne
    refine Key.head_toDigits (Nat.pos_of_ne_zero hne) ?_
    rw [hcs, hchar]
    rfl
  rw [at_since, h, hn]
  rfl

/-- The numeral of a big integer at the end of a text is read. -/
theorem numeral_big (strict : Bool) {n : Nat} (h : t.since s.pos = bigUnits n) :
    numeral strict t s = .ok (.number (.bigint n), { s with pos := t.size }) := by
  obtain ⟨⟨hlow, hhigh⟩, hmark⟩ := bigUnits_head h
  have hsize : (Nat.toDigits 10 n).length + 1 = t.size - s.pos := by
    rw [← size_since, h]
    simp [bigUnits]
  have hread := @digitsIn_digits t s [] _ (fun c => Key.isDigit_toDigits) (t.size + 1) 0 0
    (by omega) h
  have hafter : t.since (s.pos + (Nat.toDigits 10 n).length) = [bigMark] := by
    have hrest := since_add h
    rwa [List.length_map] at hrest
  have hu : t.at' (s.pos + (Nat.toDigits 10 n).length + 0) = 110 := by
    rw [at_since, hafter]
    rfl
  -- A leading zero is the whole number, so it marks neither another base nor octal digits.
  have hbase : (if t.at' s.pos == 48 then Numeral.markedBase? (Char.ofNat (t.at' (s.pos + 1)))
      else none) = none := by
    split
    next hzero =>
      rw [hmark (eq_of_beq hzero)]
      rfl
    next => rfl
  have hoctal : ¬(t.at' s.pos == 48 && decide (48 ≤ t.at' (s.pos + 1)) &&
      decide (t.at' (s.pos + 1) ≤ 57)) = true := by
    simp
    intro hzero
    have := hmark hzero
    omega
  have hvalue : (Nat.toDigits 10 n).foldl (fun n c => n * 10 + Numeral.digitValue c) 0 = n :=
    Numeral.ofDigits_toDigits n
  have hend : s.pos + (Nat.toDigits 10 n).length + 1 = t.size := by omega
  unfold numeral
  rw [reader_bind read_eq, reader_bind (ahead_eq 0), reader_bind (ahead_eq 1), Nat.add_zero, hbase]
  dsimp only
  rw [if_neg hoctal, reader_bind hread]
  dsimp only
  rw [reader_bind (ahead_eq 0), hu, if_pos (beq_self_eq_true 110), reader_bind (skip_eq 1), hvalue, hend]
  exact endNumber_end (s := { s with pos := t.size }) _ (size_le_iff.1 (Nat.le_refl _))

/-! ## Whole tokens -/

section Blanks

variable (web first : Bool) (fuel : Nat)

/-- At the end of a text there are no blanks. -/
theorem skipBlanks_end (h : t.since s.pos = []) :
    skipBlanks web first (fuel + 1) false t s = .ok (false, s) := by
  have hend : decide (s.pos ≥ t.size) = true := decide_eq_true (size_le_iff.2 h)
  rw [skipBlanks, reader_bind read_eq, reader_bind (ahead_eq 0), reader_bind atEnd_eq, hend]
  rfl

/-- A unit begins neither a blank nor a comment. -/
structure IsSolid (t : Text) (i : Nat) : Prop where
  inside : i < t.size
  line : Blank.isLineEnd (t.at' i) = false
  blank : Blank.isBlank (t.at' i) = false
  slash : t.at' i ≠ 47
  angle : t.at' i ≠ 60
  dash : t.at' i = 45 → t.at' (i + 1) ≠ 45

theorem lineComment_solid {start : Bool} (h : IsSolid t s.pos) :
    lineComment web start t s = .ok (false, s) := by
  have hslash : (t.at' s.pos == 47) = false := beq_false_of_ne h.slash
  have hangle : (t.at' s.pos == 60) = false := beq_false_of_ne h.angle
  have hdash : (t.at' s.pos == 45 && t.at' (s.pos + 1) == 45) = false := by
    simpa using h.dash
  rw [lineComment, reader_bind (ahead_eq 0), reader_bind (ahead_eq 1), reader_bind (ahead_eq 2),
    Nat.add_zero]
  rw [reader_bind (ahead_eq 3), hslash, hangle, hdash, Bool.false_and, Bool.false_and, Bool.false_and,
    Bool.false_and, Bool.false_and, Bool.false_and, Bool.false_or, Bool.or_self, Bool.and_false]
  rfl

theorem skipBlanks_solid (h : IsSolid t s.pos) :
    skipBlanks web first (fuel + 1) false t s = .ok (false, s) := by
  have hinside : decide (s.pos ≥ t.size) = false := decide_eq_false (Nat.not_le.2 h.inside)
  rw [skipBlanks, reader_bind read_eq, reader_bind (ahead_eq 0), reader_bind atEnd_eq, hinside,
    Nat.add_zero, h.line, h.blank]
  have hslash : (t.at' s.pos == 47) = false := beq_false_of_ne h.slash
  rw [if_neg Bool.false_ne_true, if_neg Bool.false_ne_true, if_neg Bool.false_ne_true,
    reader_bind (lineComment_solid web h), if_neg Bool.false_ne_true, reader_bind (ahead_eq 1), hslash]
  rfl

end Blanks

/-- A digit begins no name and is no blank. -/
theorem digit_plain : ∀ n < 58, 48 ≤ n →
    isNameStart n = false ∧ Blank.isBlank n = false ∧ Blank.isLineEnd n = false := by decide

/-- No mark of several characters is a minus sign in front of a digit. -/
theorem longMarks_minus : ∀ m ∈ longMarks, 2 ≤ (ofString m).size ∧
    ((ofString m).at' 0 = 45 → ¬(48 ≤ (ofString m).at' 1 ∧ (ofString m).at' 1 ≤ 57)) := by decide

theorem mark_go_none {ms : List String} (h : ∀ m ∈ ms, t.matchesAt (ofString m) s.pos = false) :
    mark.go ms t s = .ok (none, s) := by
  induction ms with
  | nil => rfl
  | cons m ms ih =>
      have hhere : marksHere m t s = .ok (false, s) := by
        rw [← h m List.mem_cons_self]
        rfl
      rw [mark.go, reader_bind hhere, if_neg Bool.false_ne_true]
      exact ih fun m' hm' => h m' (List.mem_cons_of_mem m hm')

/-- A minus sign in front of a digit is a mark of its own. -/
theorem mark_minus (hminus : t.at' s.pos = 45) (hlow : 48 ≤ t.at' (s.pos + 1))
    (hhigh : t.at' (s.pos + 1) ≤ 57) :
    mark t s = .ok (.punct "-", { s with pos := s.pos + 1 }) := by
  have hnone : ∀ m ∈ longMarks, t.matchesAt (ofString m) s.pos = false := by
    intro m hm
    obtain ⟨htwo, hdigit⟩ := longMarks_minus m hm
    by_contra hmatch
    have hmatch := eq_true_of_ne_false hmatch
    have hfirst := at_of_matchesAt hmatch (k := 0) (by omega)
    have hsecond := at_of_matchesAt hmatch (k := 1) (by omega)
    exact hdigit (hfirst.symm.trans hminus) (hsecond ▸ ⟨hlow, hhigh⟩)
  rw [mark, reader_bind (ahead_eq 0), reader_bind (mark_go_none hnone), Nat.add_zero, hminus]
  rfl

section Tokens

variable (strict web : Bool)

/-- The end of a text is a token. -/
theorem token_end (h : t.since s.pos = []) :
    token strict web t s = .ok ((.eof, false, s.pos), s) := by
  rw [token, reader_bind read_eq, reader_bind get_eq, reader_bind (skipBlanks_end _ _ _ h),
    reader_bind get_eq, pointAt_end h]
  rfl

/-- The numeral of a big integer is a token. -/
theorem token_big {n : Nat} (h : t.since s.pos = bigUnits n) :
    token strict web t s =
      .ok ((.number (.bigint n), false, s.pos), { s with pos := t.size }) := by
  obtain ⟨⟨hlow, hhigh⟩, -⟩ := bigUnits_head h
  obtain ⟨hname, hblank, hline⟩ := digit_plain _ (Nat.lt_succ_of_le hhigh) hlow
  have hinside : s.pos < t.size := by
    by_contra hout
    rw [size_le_iff.1 (Nat.le_of_not_lt hout)] at h
    simp [bigUnits] at h
  -- Neither blanks nor comments are skipped in front of a digit.
  have hsolid : IsSolid t s.pos :=
    ⟨hinside, hline, hblank, by omega, by omega, fun hdash => by omega⟩
  have hescape : (t.at' s.pos == 92) = false := beq_false_of_ne (by omega)
  have hprivate : (t.at' s.pos == 35) = false := beq_false_of_ne (by omega)
  have hdigit : (decide (48 ≤ t.at' s.pos) && decide (t.at' s.pos ≤ 57)) = true := by
    simp [hlow, hhigh]
  rw [token, reader_bind read_eq, reader_bind get_eq, reader_bind (skipBlanks_solid _ _ _ hsolid),
    reader_bind get_eq, pointAt_ascii hinside (by omega)]
  dsimp only
  rw [if_neg (by decide), hname, hescape, hprivate, hdigit]
  rw [if_neg Bool.false_ne_true, if_neg Bool.false_ne_true, if_neg Bool.false_ne_true, if_pos rfl,
    reader_bind (numeral_big strict h)]
  rfl

/-- A minus sign in front of the numeral of a big integer is a token. -/
theorem token_minus {n : Nat} (h : t.since s.pos = 45 :: bigUnits n) :
    token strict web t s = .ok ((.punct "-", false, s.pos), { s with pos := s.pos + 1 }) := by
  have hminus : t.at' s.pos = 45 := by
    have hat := at_since t s.pos 0
    rwa [h] at hat
  obtain ⟨⟨hlow, hhigh⟩, -⟩ := bigUnits_head (since_succ h)
  have hinside : s.pos < t.size := by
    by_contra hout
    rw [size_le_iff.1 (Nat.le_of_not_lt hout)] at h
    cases h
  have hsolid : IsSolid t s.pos :=
    ⟨hinside, by rw [hminus]; rfl, by rw [hminus]; rfl, by omega, by omega, fun _ => by omega⟩
  rw [token, reader_bind read_eq, reader_bind get_eq, reader_bind (skipBlanks_solid _ _ _ hsolid),
    reader_bind get_eq, pointAt_ascii hinside (by omega), hminus]
  change (mark >>= fun tok => pure (tok, false, s.pos)) t s = _
  rw [reader_bind (mark_minus hminus hlow hhigh)]
  rfl

end Tokens

end Lex

end Script

end ScriptHost
