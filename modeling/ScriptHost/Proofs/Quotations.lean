import Mathlib.Data.List.Basic
import Mathlib.Tactic.SplitIfs
import ScriptHost.Document.Basic
import ScriptHost.Json.Reader
import ScriptHost.Proofs.Texts
/-!
# How strings are quoted

In a quoted string a character stands for itself, or it is a letter or a number after a backslash.
The engine quotes a string of the host as the host does, and it reads it as it was.
-/

namespace ScriptHost

/-! ## Escapes -/

namespace Document

/-- The letters that stand for characters after a backslash. -/
def letters : List (Char × Char) :=
  [('"', '"'), ('\\', '\\'), ('b', '\x08'), ('f', '\x0c'), ('n', '\n'), ('r', '\r'), ('t', '\t')]

/-- Four hexadecimal digits for a small natural. -/
def fourDigits (n : Nat) : List Char :=
  List.replicate (4 - (Nat.toDigits 16 n).length) '0' ++ Nat.toDigits 16 n

theorem fourDigits_eq {n : Nat} (hn : n < 32) :
    fourDigits n = ['0', '0', Nat.digitChar (n / 16), Nat.digitChar (n % 16)] := by
  have hlast : Nat.toDigits 16 (n / 16) = [Nat.digitChar (n / 16)] :=
    Nat.toDigits_of_lt_base (by omega)
  unfold fourDigits
  rw [Nat.toDigits_eq_if (by decide)]
  split
  next hsmall =>
    rw [Nat.div_eq_of_lt hsmall, Nat.mod_eq_of_lt hsmall]
    rfl
  next =>
    rw [hlast]
    rfl

theorem fourDigits_ascii {n : Nat} (hn : n < 32) : ∀ c ∈ fourDigits n, c.toNat < 128 := by
  have hdigit : ∀ d < 16, (Nat.digitChar d).toNat < 128 := by decide
  intro c hc
  rw [fourDigits_eq hn] at hc
  simp only [List.mem_cons, List.not_mem_nil, or_false] at hc
  obtain rfl | rfl | rfl | rfl := hc
  · decide
  · decide
  · exact hdigit _ (by omega)
  · exact hdigit _ (by omega)

/-- How a character is written: by a letter, by its number, or as it is. -/
inductive Escaped (c : Char) : List Char → Prop
  | letter {e : Char} (hmem : (e, c) ∈ letters) : Escaped c ['\\', e]
  | number (hlow : c.toNat < 32) : Escaped c ('\\' :: 'u' :: fourDigits c.toNat)
  | plain (hlow : 32 ≤ c.toNat) (hquote : c ≠ '"') (hslash : c ≠ '\\') : Escaped c [c]

theorem escapeChar_escaped (c : Char) : Escaped c (escapeChar c).toList := by
  have hletter : ∀ e d : Char, (e, d) ∈ letters → c.toNat = d.toNat →
      Escaped c (String.ofList ['\\', e]).toList := by
    intro e d hmem hcd
    obtain rfl : c = d := Char.ext (UInt32.toNat.inj hcd)
    rw [String.toList_ofList]
    exact .letter hmem
  unfold escapeChar
  split_ifs with hquote hslash hline hreturn htab hback hfeed hlow
  · exact hletter '"' '"' (by decide) (congrArg Char.toNat (eq_of_beq hquote))
  · exact hletter '\\' '\\' (by decide) (congrArg Char.toNat (eq_of_beq hslash))
  · exact hletter 'n' '\n' (by decide) (congrArg Char.toNat (eq_of_beq hline))
  · exact hletter 'r' '\r' (by decide) (congrArg Char.toNat (eq_of_beq hreturn))
  · exact hletter 't' '\t' (by decide) (congrArg Char.toNat (eq_of_beq htab))
  · exact hletter 'b' '\x08' (by decide) (eq_of_beq hback)
  · exact hletter 'f' '\x0c' (by decide) (eq_of_beq hfeed)
  · rw [Quoted.hexWidth, String.toList_append, String.toList_ofList, String.toList_ofList]
    exact .number hlow
  · rw [Char.toString, String.toList_singleton]
    exact .plain (Nat.le_of_not_lt hlow) (by simpa using hquote) (by simpa using hslash)

/-- A written string, character by character. -/
theorem toList_quote (s : String) :
    (quote s).toList = '"' :: (s.toList.flatMap (fun c => (escapeChar c).toList) ++ ['"']) := by
  have hfold : ∀ (cs : List Char) (acc : String),
      (cs.foldl (fun acc c => acc ++ escapeChar c) acc).toList =
        acc.toList ++ cs.flatMap fun c => (escapeChar c).toList := by
    intro cs
    induction cs with
    | nil => exact fun acc => (List.append_nil _).symm
    | cons c cs ih =>
        intro acc
        rw [List.foldl_cons, ih, String.toList_append, List.flatMap_cons, List.append_assoc]
  rw [quote, String.foldl_eq_foldl_toList, String.toList_append, hfold]
  rfl

end Document

/-! ## Units -/

/-- The units of a host string. -/
def unitsIn (s : String) : List UInt16 := s.toList.flatMap fun c => Text.unitsOf c.toNat

theorem unitsIn_eq (s : String) : unitsIn s = (Text.ofString s).units.toList :=
  (Text.units_ofString s).symm

@[simp] theorem unitsIn_append (s t : String) : unitsIn (s ++ t) = unitsIn s ++ unitsIn t := by
  rw [unitsIn, String.toList_append, List.flatMap_append]
  rfl

/-- A low character is one unit. -/
theorem unitsOf_low {n : Nat} (hn : n < 0x10000) : Text.unitsOf n = [UInt16.ofNat n] := if_pos hn

/-- The units of low characters. -/
def lowUnits (cs : List Char) : List UInt16 := cs.map fun c => UInt16.ofNat c.toNat

theorem flatMap_low {cs : List Char} (hcs : ∀ c ∈ cs, c.toNat < 0x10000) :
    cs.flatMap (fun c => Text.unitsOf c.toNat) = lowUnits cs := by
  unfold lowUnits
  rw [List.map_eq_flatMap]
  exact List.flatMap_congr fun c hc => unitsOf_low (hcs c hc)

namespace Json

open Document (Escaped)

variable {us rest : List UInt16} {acc : Text}

/-! ## Reading a quotation -/

theorem charOf_ofNat {n : Nat} (hn : n < 0xD800) : charOf (UInt16.ofNat n) = Char.ofNat n := by
  rw [charOf, Text.toNat_ofNat_of_lt (by omega)]

/-- A unit that stands for itself. -/
theorem scanString_plain {u : UInt16} (hlow : 32 ≤ u.toNat) (hquote : u.toNat ≠ 34)
    (hslash : u.toNat ≠ 92) : scanString (u :: us) acc = scanString us (acc.push u) := by
  have hquote' : (u == 34) = false := by simpa [← UInt16.toNat_inj] using hquote
  have hslash' : (u == 92) = false := by simpa [← UInt16.toNat_inj] using hslash
  have hlow' : ¬u < 32 := by
    rw [UInt16.lt_iff_toNat_lt]
    exact Nat.not_lt.2 hlow
  rw [scanString.eq_def]
  dsimp only
  rw [hquote', if_neg Bool.false_ne_true, if_neg hlow', hslash', if_neg Bool.false_ne_true]

/-- A letter after a backslash. -/
theorem scanString_letter {e c : Char} (hmem : (e, c) ∈ Document.letters) :
    scanString (92 :: UInt16.ofNat e.toNat :: us) acc =
      scanString us (acc.push (UInt16.ofNat c.toNat)) := by
  rw [scanString.eq_def]
  simp only [Document.letters, List.mem_cons, Prod.mk.injEq, List.not_mem_nil, or_false] at hmem
  obtain ⟨rfl, rfl⟩ | ⟨rfl, rfl⟩ | ⟨rfl, rfl⟩ | ⟨rfl, rfl⟩ | ⟨rfl, rfl⟩ | ⟨rfl, rfl⟩ |
    ⟨rfl, rfl⟩ := hmem
  all_goals rfl

theorem digitValue_digitChar :
    ∀ d < 16, Numeral.digitValue (charOf (UInt16.ofNat (Nat.digitChar d).toNat)) = d := by decide

theorem scanHex_digit {count n d : Nat} (hd : d < 16) :
    scanHex (count + 1) n (UInt16.ofNat (Nat.digitChar d).toNat :: us) =
      scanHex count (16 * n + d) us := by
  rw [scanHex, digitValue_digitChar d hd, if_pos hd]

/-- The number of a control character after a backslash. -/
theorem scanString_number {n : Nat} (hn : n < 32) :
    scanString (92 :: 117 :: (lowUnits (Document.fourDigits n) ++ us)) acc =
      scanString us (acc.push (UInt16.ofNat n)) := by
  have hzero : '0' = Nat.digitChar 0 := rfl
  have hhex : scanHex 4 0 (lowUnits (Document.fourDigits n) ++ us) = .ok n := by
    rw [Document.fourDigits_eq hn, hzero]
    simp only [lowUnits, List.map_cons, List.map_nil, List.cons_append, List.nil_append]
    rw [scanHex_digit (by decide), scanHex_digit (by decide), scanHex_digit (by omega),
      scanHex_digit (by omega), scanHex]
    exact congrArg Except.ok (by omega)
  rw [Document.fourDigits_eq hn] at hhex ⊢
  rw [scanString.eq_def]
  simp only [lowUnits, List.map_cons, List.map_nil, List.cons_append, List.nil_append] at hhex ⊢
  rw [if_neg (by decide), if_neg (by decide), if_pos (by decide), if_pos (by decide), hhex]

/-- What is written of a character is read as that character. -/
theorem scanString_char {c : Char} {w : List Char} (hw : Escaped c w) :
    scanString (w.flatMap (fun c => Text.unitsOf c.toNat) ++ us) acc =
      scanString us (acc.pushPoint c.toNat) := by
  have hpush : ∀ n < 0x10000, acc.pushPoint n = acc.push (UInt16.ofNat n) := fun n hn => if_pos hn
  cases hw with
  | @letter e hmem =>
      have hlow : e.toNat < 128 ∧ c.toNat < 128 := by
        simp only [Document.letters, List.mem_cons, Prod.mk.injEq, List.not_mem_nil, or_false] at hmem
        obtain ⟨rfl, rfl⟩ | ⟨rfl, rfl⟩ | ⟨rfl, rfl⟩ | ⟨rfl, rfl⟩ | ⟨rfl, rfl⟩ | ⟨rfl, rfl⟩ |
          ⟨rfl, rfl⟩ := hmem
        all_goals decide
      rw [List.flatMap_cons, List.flatMap_singleton, unitsOf_low (n := e.toNat) (by omega),
        hpush _ (by omega)]
      exact scanString_letter hmem
  | number hlow =>
      have hlow' : ∀ d ∈ '\\' :: 'u' :: Document.fourDigits c.toNat, d.toNat < 0x10000 := by
        intro d hd
        have hascii := Document.fourDigits_ascii hlow
        simp only [List.mem_cons] at hd
        obtain rfl | rfl | hd := hd
        · decide
        · decide
        · exact Nat.lt_trans (hascii d hd) (by decide)
      have hunits : ('\\' :: 'u' :: Document.fourDigits c.toNat).flatMap
          (fun c => Text.unitsOf c.toNat) = 92 :: 117 :: lowUnits (Document.fourDigits c.toNat) :=
        flatMap_low hlow'
      rw [hunits, hpush _ (by omega)]
      exact scanString_number hlow
  | plain hlow hquote hslash =>
      rw [List.flatMap_singleton]
      have hvalid := c.valid
      unfold Text.unitsOf Text.pushPoint
      split
      next hsmall =>
        have hunit : (UInt16.ofNat c.toNat).toNat = c.toNat := Text.toNat_ofNat_of_lt hsmall
        refine scanString_plain (by omega) ?_ ?_
        · rw [hunit]
          exact fun h => hquote (Char.ext (UInt32.toNat.inj h))
        · rw [hunit]
          exact fun h => hslash (Char.ext (UInt32.toNat.inj h))
      -- A larger character is two units, neither of which means anything to the scanner.
      next hlarge =>
        have hbound : c.toNat < 0x110000 := by
          rcases hvalid with h | ⟨-, h⟩
          · exact Nat.lt_trans h (by decide)
          · exact h
        have hfirst := Text.toNat_ofNat_of_lt (n := 0xD800 + (c.toNat - 0x10000) / 0x400) (by omega)
        have hsecond := Text.toNat_ofNat_of_lt (n := 0xDC00 + (c.toNat - 0x10000) % 0x400) (by omega)
        refine (scanString_plain (by omega) (by omega) (by omega)).trans ?_
        exact scanString_plain (by omega) (by omega) (by omega)

/-- A written string is read as it was, up to the closing quote. -/
theorem scanString_chars (cs : List Char) (acc : Text) :
    scanString (cs.flatMap (fun c => unitsIn (Document.escapeChar c)) ++ 34 :: rest) acc =
      .ok (cs.foldl (fun t c => t.pushPoint c.toNat) acc, rest) := by
  induction cs generalizing acc with
  | nil => rw [List.flatMap_nil, List.nil_append, scanString.eq_def]; rfl
  | cons c cs ih =>
      rw [List.flatMap_cons, List.append_assoc, unitsIn,
        scanString_char (Document.escapeChar_escaped c), ih, List.foldl_cons]

theorem unitsIn_quote (s : String) : unitsIn (Document.quote s) =
    34 :: (s.toList.flatMap (fun c => unitsIn (Document.escapeChar c)) ++ [34]) := by
  rw [unitsIn, Document.toList_quote, List.flatMap_cons, List.flatMap_append, List.flatMap_assoc]
  rfl

/-! ## Quoting -/

theorem ofString_single {c : Char} (hc : c.toNat < 0x10000) :
    Text.single (UInt16.ofNat c.toNat) = Text.ofString c.toString := by
  apply Text.ext_units
  rw [Text.units_ofString, Char.toString, String.toList_singleton, List.flatMap_singleton,
    unitsOf_low hc]
  rfl

/-- A character of one unit is quoted as the host quotes it. -/
theorem quoteUnit_low {c : Char} (hc : c.toNat < 0x10000) (t : Text) (i : Nat) :
    quoteUnit t i (UInt16.ofNat c.toNat) = txt (Document.escapeChar c) := by
  have hunit : (UInt16.ofNat c.toNat).toNat = c.toNat := Text.toNat_ofNat_of_lt hc
  have hchar : charOf (UInt16.ofNat c.toNat) = c := by rw [charOf, hunit, Char.ofNat_toNat]
  have hvalid : c.toNat < 0xD800 ∨ 0xDFFF < c.toNat ∧ c.toNat < 0x110000 := c.valid
  have hlead : Text.isLead (UInt16.ofNat c.toNat) = false := by
    simp only [Text.isLead, hunit, Bool.and_eq_false_iff, decide_eq_false_iff_not]
    omega
  have htrail : Text.isTrail (UInt16.ofNat c.toNat) = false := by
    simp only [Text.isTrail, hunit, Bool.and_eq_false_iff, decide_eq_false_iff_not]
    omega
  unfold quoteUnit
  rw [hchar]
  split
  -- What is escaped by a letter is written so by both.
  all_goals try rfl
  next hquote hslash hback hfeed hline hreturn htab =>
    have hback' : ¬(c.toNat == 8) = true := fun h => hback (Char.ext (UInt32.toNat.inj (eq_of_beq h)))
    have hfeed' : ¬(c.toNat == 12) = true := fun h => hfeed (Char.ext (UInt32.toNat.inj (eq_of_beq h)))
    have hescape : Document.escapeChar c =
        if c.toNat < 32 then "\\u" ++ Quoted.hexWidth 4 c.toNat else c.toString := by
      unfold Document.escapeChar
      rw [if_neg (by simpa using hquote), if_neg (by simpa using hslash),
        if_neg (by simpa using hline), if_neg (by simpa using hreturn), if_neg (by simpa using htab),
        if_neg hback', if_neg hfeed']
    have hless : (UInt16.ofNat c.toNat < 32) = (c.toNat < 32) := by
      rw [UInt16.lt_iff_toNat_lt, hunit]
      rfl
    rw [hlead, htrail, Bool.false_and, Bool.false_and, Bool.or_false, hescape]
    dsimp only
    rw [Bool.or_false, hunit]
    simp only [decide_eq_true_eq, hless]
    split
    next hlow =>
      rw [Quoted.hexWidth, String.append_assoc, String.ofList_append]
    next => exact ofString_single hc

/-- A surrogate with its partner is quoted as it is. -/
theorem quoteUnit_pair {t : Text} {i : Nat} {lead trail : UInt16} (hlead : Text.isLead lead)
    (htrail : Text.isTrail trail) (hfirst : t.get? i = some lead)
    (hsecond : t.get? (i + 1) = some trail) :
    quoteUnit t i lead = Text.single lead ∧ quoteUnit t (i + 1) trail = Text.single trail := by
  have hrange : 0xD800 ≤ lead.toNat ∧ lead.toNat < 0xDC00 := by simpa [Text.isLead] using hlead
  have hrange' : 0xDC00 ≤ trail.toNat ∧ trail.toNat < 0xE000 := by simpa [Text.isTrail] using htrail
  -- A surrogate is none of the characters that are escaped by a letter or a number.
  have hother : ∀ u : UInt16, 0xD800 ≤ u.toNat → u.toNat < 0xE000 → charOf u = '\x00' ∧ ¬u < 32 := by
    intro u hlow hhigh
    constructor
    · rw [charOf, Char.ofNat, dif_neg (by unfold Nat.isValidChar; omega)]
      rfl
    · rw [UInt16.lt_iff_toNat_lt]
      exact Nat.not_lt.2 (Nat.le_trans (by decide) hlow)
  have hnotTrail : Text.isTrail lead = false := by
    simp only [Text.isTrail, Bool.and_eq_false_iff, decide_eq_false_iff_not]
    omega
  have hnotLead : Text.isLead trail = false := by
    simp only [Text.isLead, Bool.and_eq_false_iff, decide_eq_false_iff_not]
    omega
  constructor
  · obtain ⟨hchar, hlow⟩ := hother lead hrange.1 (by omega)
    unfold quoteUnit
    rw [hchar]
    dsimp only
    rw [hlead, hnotTrail, hsecond]
    simp [hlow, htrail]
  · obtain ⟨hchar, hlow⟩ := hother trail (by omega) hrange'.2
    unfold quoteUnit
    rw [hchar]
    dsimp only
    rw [hnotLead, htrail, Nat.add_sub_cancel, hfirst]
    simp [hlow, hlead]

/-- The units of a text quoted from a position on. -/
def quoteFrom (t : Text) (st : Text × Nat) (us : List UInt16) : Text × Nat :=
  us.foldl (fun st u => (st.1 ++ quoteUnit t st.2 u, st.2 + 1)) st

theorem quoteFrom_append (t : Text) (st : Text × Nat) (us vs : List UInt16) :
    quoteFrom t st (us ++ vs) = quoteFrom t (quoteFrom t st us) vs := List.foldl_append

theorem quoteFrom_char {t : Text} {before after : List UInt16} {c : Char}
    (ht : t.units.toList = before ++ Text.unitsOf c.toNat ++ after) (acc : Text) :
    ∃ acc', quoteFrom t (acc, before.length) (Text.unitsOf c.toNat) =
        (acc', (before ++ Text.unitsOf c.toNat).length) ∧
      acc'.units.toList = acc.units.toList ++ unitsIn (Document.escapeChar c) := by
  have hvalid : c.toNat < 0xD800 ∨ 0xDFFF < c.toNat ∧ c.toNat < 0x110000 := c.valid
  have hunits : ∀ a b : Text, (a ++ b).units.toList = a.units.toList ++ b.units.toList :=
    fun a b => Array.toList_append
  -- A character is one unit, or two that make a pair.
  by_cases hsmall : c.toNat < 0x10000
  · rw [unitsOf_low hsmall]
    refine ⟨acc ++ quoteUnit t before.length (UInt16.ofNat c.toNat), by simp [quoteFrom], ?_⟩
    rw [hunits, quoteUnit_low hsmall, unitsIn_eq]
  · have hfirst := Text.toNat_ofNat_of_lt (n := 0xD800 + (c.toNat - 0x10000) / 0x400) (by omega)
    have hsecond := Text.toNat_ofNat_of_lt (n := 0xDC00 + (c.toNat - 0x10000) % 0x400) (by omega)
    generalize hlead : UInt16.ofNat (0xD800 + (c.toNat - 0x10000) / 0x400) = lead at hfirst
    generalize htrail : UInt16.ofNat (0xDC00 + (c.toNat - 0x10000) % 0x400) = trail at hsecond
    have hpair : Text.unitsOf c.toNat = [lead, trail] := by
      rw [Text.unitsOf, if_neg hsmall, hlead, htrail]
    rw [hpair] at ht ⊢
    have hget : ∀ j, t.get? j = (before ++ [lead, trail] ++ after)[j]? := by
      intro j
      rw [← ht]
      exact (Array.getElem?_toList).symm
    have hislead : Text.isLead lead = true := by
      unfold Text.isLead
      rw [hfirst, Bool.and_eq_true, decide_eq_true_eq, decide_eq_true_eq]
      omega
    have histrail : Text.isTrail trail = true := by
      unfold Text.isTrail
      rw [hsecond, Bool.and_eq_true, decide_eq_true_eq, decide_eq_true_eq]
      omega
    obtain ⟨hquoted, hquoted'⟩ := quoteUnit_pair (t := t) (i := before.length) hislead histrail
      (by simp [hget]) (by simp [hget])
    refine ⟨acc ++ Text.single lead ++ Text.single trail, ?_, ?_⟩
    · rw [List.length_append, ← hquoted, ← hquoted']
      rfl
    · -- Only characters of one unit are escaped.
      have hplain : unitsIn (Document.escapeChar c) = [lead, trail] := by
        rw [← hpair]
        have hescaped := Document.escapeChar_escaped c
        unfold unitsIn
        generalize (Document.escapeChar c).toList = w at hescaped
        cases hescaped with
        | @letter e hmem =>
            simp only [Document.letters, List.mem_cons, Prod.mk.injEq, List.not_mem_nil,
              or_false] at hmem
            obtain ⟨-, rfl⟩ | ⟨-, rfl⟩ | ⟨-, rfl⟩ | ⟨-, rfl⟩ | ⟨-, rfl⟩ | ⟨-, rfl⟩ | ⟨-, rfl⟩ := hmem
            all_goals exact absurd (by decide) hsmall
        | number hlow => omega
        | plain _ _ _ => exact List.flatMap_singleton ..
      rw [hunits, hunits, hplain, List.append_assoc]
      rfl

/-- The engine quotes a text of the host as the host does. -/
theorem quote_ofString (s : String) : quote (txt s) = txt (Document.quote s) := by
  -- The characters before tell at which unit a character begins.
  have hchars : ∀ (cs : List Char) (before : List UInt16) (acc : Text),
      (txt s).units.toList = before ++ cs.flatMap (fun c => Text.unitsOf c.toNat) →
      (quoteFrom (txt s) (acc, before.length)
        (cs.flatMap fun c => Text.unitsOf c.toNat)).1.units.toList =
        acc.units.toList ++ cs.flatMap fun c => unitsIn (Document.escapeChar c) := by
    intro cs
    induction cs with
    | nil => exact fun _ _ _ => (List.append_nil _).symm
    | cons c cs ih =>
        intro before acc ht
        rw [List.flatMap_cons, ← List.append_assoc] at ht
        obtain ⟨acc', hquoted, hacc⟩ := quoteFrom_char ht acc
        rw [List.flatMap_cons, List.flatMap_cons, quoteFrom_append, hquoted, ih _ acc' ht, hacc,
          List.append_assoc]
  have hwhole := hchars s.toList [] (txt "\"") (Text.units_ofString s)
  rw [List.length_nil] at hwhole
  apply Text.ext_units
  have hunits : (txt s).units.toList = s.toList.flatMap fun c => Text.unitsOf c.toNat :=
    Text.units_ofString s
  have hquote : (quote (txt s)).units.toList =
      (quoteFrom (txt s) (txt "\"", 0) (txt s).units.toList).1.units.toList ++ [34] := by
    unfold quote
    rw [← Array.foldl_toList]
    exact Array.toList_push
  rw [hquote, hunits, hwhole, ← unitsIn_eq, ← unitsIn_eq, unitsIn_quote]
  rfl

end Json

end ScriptHost
