import ScriptHost.Document.Schema
import ScriptHost.Proofs.Lexing
import ScriptHost.Proofs.Numerals
import ScriptHost.Proofs.Quotations
import ScriptHost.Proofs.Rearranging
/-!
# Documents that are read as they were written

The reader of documents takes from a text what the printer wrote there and stops behind it, whatever
stands behind, as long as that does not go on with the same numeral.
-/

namespace ScriptHost

namespace Document

/-- The bytes of a host string. -/
def bytesOf (s : String) : List UInt8 := s.toList.flatMap String.utf8EncodeChar

@[simp] theorem bytesOf_append (s t : String) : bytesOf (s ++ t) = bytesOf s ++ bytesOf t := by
  rw [bytesOf, String.toList_append, List.flatMap_append]
  rfl

theorem toList_toUTF8 (s : String) : s.toUTF8.data.toList = bytesOf s := by
  have hencode : s.toUTF8 = s.toList.utf8Encode := by simp [String.toUTF8]
  rw [hencode, List.utf8Encode, List.data_toByteArray]
  rfl

namespace Reader

open Script (reader_bind)

variable {α : Type} {text : ByteArray} {i : Nat} {b : UInt8} {bs rest : List UInt8}

/-! ## Looking at a text -/

/-- The bytes of a text from a position on. -/
def since (text : ByteArray) (i : Nat) : List UInt8 := text.data.toList.drop i

theorem since_add (h : since text i = bs ++ rest) : since text (i + bs.length) = rest := by
  rw [since, ← List.drop_drop, ← since, h, List.drop_left]

theorem since_succ (h : since text i = b :: bs) : since text (i + 1) = bs := by
  have h' : since text i = [b] ++ bs := h
  exact since_add h'

theorem getElem?_since (text : ByteArray) (i : Nat) : (since text i)[0]? = text[i]? := by
  rw [since, List.getElem?_drop, Array.getElem?_toList, Nat.add_zero]
  rfl

theorem length_since (text : ByteArray) (i : Nat) : (since text i).length = text.size - i := by
  rw [since, List.length_drop, Array.length_toList]
  rfl

theorem peek_eq (h : since text i = b :: bs) : peek text i = .ok (b.toNat, i) := by
  have hbyte : text[i]? = some b := by rw [← getElem?_since, h]; rfl
  have hpeek : peek text i = .ok ((text[i]?.getD 0).toNat, i) := rfl
  rw [hpeek, hbyte]
  rfl

theorem peek_end (h : since text i = []) : peek text i = .ok (0, i) := by
  have hbyte : text[i]? = none := by rw [← getElem?_since, h]; rfl
  have hpeek : peek text i = .ok ((text[i]?.getD 0).toNat, i) := rfl
  rw [hpeek, hbyte]
  rfl

theorem atEnd_eq (text : ByteArray) (i : Nat) : atEnd text i = .ok (decide (since text i = []), i) := by
  have hend : atEnd text i = .ok (decide (i ≥ text.size), i) := rfl
  have hiff : i ≥ text.size ↔ since text i = [] := by
    rw [← List.length_eq_zero_iff, length_since]
    omega
  rw [hend, decide_eq_decide.2 hiff]

theorem advance_eq (text : ByteArray) (i : Nat) : advance text i = .ok ((), i + 1) := rfl

/-- Whether a byte is passed over between values. -/
def IsBlank (b : UInt8) : Prop := b = 32 ∨ b = 10 ∨ b = 9 ∨ b = 13

theorem skipBlanks_eq (h : since text i = b :: bs) (hb : ¬IsBlank b) :
    skipBlanks text i = .ok ((), i) := by
  have hbyte : text[i]? = some b := by rw [← getElem?_since, h]; rfl
  have hskip : skipBlanks text i = .ok ((), skipBlanks.go text (text.size - i) i) := rfl
  have hsize : text.size - i = bs.length + 1 := by rw [← length_since, h]; rfl
  have hnot : (b.toNat == 32 || b.toNat == 10 || b.toNat == 9 || b.toNat == 13) = false := by
    simpa [IsBlank, ← UInt8.toNat_inj, and_assoc] using hb
  rw [hskip, hsize, skipBlanks.go, hbyte, Option.getD_some, hnot]
  rfl

theorem skipBlanks_end (h : since text i = []) : skipBlanks text i = .ok ((), i) := by
  have hskip : skipBlanks text i = .ok ((), skipBlanks.go text (text.size - i) i) := rfl
  rw [hskip, ← length_since, h]
  rfl

/-! ## Words -/

/-- The bytes of characters that take one byte each. -/
def ascii (cs : List Char) : List UInt8 := cs.map fun c => UInt8.ofNat c.toNat

theorem flatMap_ascii {cs : List Char} (hcs : ∀ c ∈ cs, c.toNat < 128) :
    cs.flatMap String.utf8EncodeChar = ascii cs := by
  unfold ascii
  rw [List.map_eq_flatMap]
  refine List.flatMap_congr fun c hc => ?_
  have hlow : c.val.toNat ≤ 0x7f := Nat.le_of_lt_succ (hcs c hc)
  unfold String.utf8EncodeChar
  dsimp only
  rw [if_pos hlow]
  rfl

theorem word_eq {w : String} (hascii : ∀ c ∈ w.toList, c.toNat < 128)
    (h : since text i = ascii w.toList ++ rest) :
    word w text i = .ok ((), i + (ascii w.toList).length) := by
  -- The loop over the letters, by induction on those that are still to come.
  have hletters : ∀ (cs : List Char) i, (∀ c ∈ cs, c.toNat < 128) → since text i = ascii cs ++ rest →
      (forIn cs PUnit.unit fun (c : Char) (_ : PUnit) => (do
        if ← atEnd then failHere "EOF while parsing a value"
        if (← peek) != c.toNat then
          advance
          failHere "expected ident"
        advance
        pure (ForInStep.yield PUnit.unit) : Reader (ForInStep PUnit))) text i =
          .ok (PUnit.unit, i + (ascii cs).length) := by
    intro cs
    induction cs with
    | nil => exact fun i _ _ => rfl
    | cons c cs ih =>
        intro i hascii h
        have hc := hascii c List.mem_cons_self
        have hbyte : (UInt8.ofNat c.toNat).toNat = c.toNat := by
          rw [UInt8.toNat_ofNat']
          omega
        rw [List.forIn_cons, reader_bind (a := ForInStep.yield PUnit.unit) (u := i + 1)]
        · have hrest := ih (i + 1) (fun c hc => hascii c (List.mem_cons_of_mem _ hc)) (since_succ h)
          refine hrest.trans ?_
          have hlength : (ascii (c :: cs)).length = (ascii cs).length + 1 := rfl
          rw [hlength, Nat.add_assoc, Nat.add_comm 1]
        · rw [reader_bind (atEnd_eq text i), h]
          rw [if_neg (by simp [ascii])]
          refine (reader_bind (peek_eq h)).trans ?_
          rw [hbyte]
          exact congrArg (fun x : Reader (ForInStep PUnit) => x text i) (if_neg (by simp))
  unfold word
  rw [reader_bind (hletters w.toList i hascii h)]
  rfl

/-! ## Strings -/

/-- The value of a hexadecimal digit; 16 for any other byte. -/
def hexValue (b : UInt8) : Nat :=
  if isDigit b.toNat then b.toNat - 48
  else if 97 ≤ b.toNat && b.toNat ≤ 102 then b.toNat - 87
  else if 65 ≤ b.toNat && b.toNat ≤ 70 then b.toNat - 55 else 16

/-- One hexadecimal digit after what was read so far. -/
def hexStep (n : Nat) : Reader (ForInStep Nat) := do
  if ← atEnd then failHere "EOF while parsing a string"
  let b ← peek
  let v := if isDigit b then b - 48
    else if 97 ≤ b && b ≤ 102 then b - 87
    else if 65 ≤ b && b ≤ 70 then b - 55 else 16
  if v == 16 then
    advance
    failHere "invalid escape"
  advance
  pure (.yield (n * 16 + v))

theorem hexStep_eq {n : Nat} (h : since text i = b :: bs) (hb : hexValue b < 16) :
    hexStep n text i = .ok (.yield (n * 16 + hexValue b), i + 1) := by
  have hvalue : (if isDigit b.toNat then b.toNat - 48
      else if 97 ≤ b.toNat && b.toNat ≤ 102 then b.toNat - 87
      else if 65 ≤ b.toNat && b.toNat ≤ 70 then b.toNat - 55 else 16) = hexValue b := rfl
  unfold hexStep
  rw [reader_bind (atEnd_eq text i), h]
  rw [if_neg (by simp)]
  refine (reader_bind (peek_eq h)).trans ?_
  rw [hvalue]
  dsimp only
  rw [if_neg (by simp; omega)]
  rfl

theorem hexSteps_eq {ds : List UInt8} {l : List Nat} (hl : l.length = ds.length)
    (hds : ∀ b ∈ ds, hexValue b < 16) {n i : Nat} (h : since text i = ds ++ rest) :
    (forIn l n fun _ n => hexStep n) text i =
      .ok (ds.foldl (fun n b => n * 16 + hexValue b) n, i + ds.length) := by
  induction ds generalizing l n i with
  | nil =>
      rw [List.length_eq_zero_iff.1 hl]
      rfl
  | cons d ds ih =>
      obtain ⟨a, l, rfl⟩ := List.exists_cons_of_length_eq_add_one hl
      rw [List.forIn_cons, reader_bind (hexStep_eq h (hds d List.mem_cons_self))]
      refine (ih (by simpa using hl) (fun b hb => hds b (List.mem_cons_of_mem _ hb))
        (since_succ h)).trans ?_
      rw [List.length_cons, Nat.add_assoc, Nat.add_comm 1]
      rfl

/-- Four digits are read as one natural. -/
theorem hex4_eq {ds : List UInt8} (hlength : ds.length = 4) (hds : ∀ b ∈ ds, hexValue b < 16)
    (h : since text i = ds ++ rest) :
    hex4 text i = .ok (ds.foldl (fun n b => n * 16 + hexValue b) 0, i + 4) := by
  have hsteps := hexSteps_eq (l := List.range' 0 4) hlength.symm hds (n := 0) h
  rw [hlength] at hsteps
  have hhex : hex4 = (forIn [0:4] 0 fun _ n => hexStep n) >>= pure := rfl
  rw [hhex, Std.Legacy.Range.forIn_eq_forIn_range']
  exact reader_bind hsteps

/-! ### The rest of a string -/

variable {fuel : Nat} {acc : ByteArray}

/-- The closing quote ends a string. -/
theorem stringBytes_close (h : since text i = 34 :: rest) :
    stringBytes (fuel + 1) acc text i = .ok (acc, i + 1) := by
  rw [stringBytes, reader_bind (atEnd_eq text i), h]
  rw [if_neg (by simp)]
  refine (reader_bind (peek_eq h)).trans ?_
  rfl

/-- A byte that stands for itself. -/
theorem stringBytes_plain (h : since text i = b :: bs) (hb : 32 ≤ b.toNat) (hquote : b ≠ 34)
    (hslash : b ≠ 92) :
    stringBytes (fuel + 1) acc text i = stringBytes fuel (acc.push b) text (i + 1) := by
  rw [stringBytes, reader_bind (atEnd_eq text i), h]
  rw [if_neg (by simp)]
  refine (reader_bind (peek_eq h)).trans ?_
  rw [if_neg (by simpa [← UInt8.toNat_inj] using hquote),
    if_neg (by simpa [← UInt8.toNat_inj] using hslash), if_neg (by omega)]
  refine (reader_bind (advance_eq text i)).trans ?_
  rw [UInt8.ofNat_toNat]

theorem stringBytes_letter {c e : Char} (hmem : (e, c) ∈ letters)
    (h : since text i = 92 :: UInt8.ofNat e.toNat :: bs) :
    stringBytes (fuel + 1) acc text i =
      stringBytes fuel (acc.push (UInt8.ofNat c.toNat)) text (i + 2) := by
  rw [stringBytes, reader_bind (atEnd_eq text i), h]
  rw [if_neg (by simp)]
  refine (reader_bind (peek_eq h)).trans ?_
  have hslash : (92 : UInt8).toNat = 92 := rfl
  have hnext := since_succ h
  rw [hslash]
  refine (reader_bind (advance_eq text i)).trans ?_
  rw [reader_bind (atEnd_eq text (i + 1)), hnext]
  rw [if_neg (by simp)]
  refine (reader_bind (peek_eq hnext)).trans ?_
  refine (reader_bind (advance_eq text (i + 1))).trans ?_
  simp only [letters, List.mem_cons, Prod.mk.injEq, List.not_mem_nil, or_false] at hmem
  obtain ⟨rfl, rfl⟩ | ⟨rfl, rfl⟩ | ⟨rfl, rfl⟩ | ⟨rfl, rfl⟩ | ⟨rfl, rfl⟩ | ⟨rfl, rfl⟩ | ⟨rfl, rfl⟩ := hmem
  all_goals rfl

theorem stringBytes_unicode {c : Char} {ds : List UInt8} (hlength : ds.length = 4)
    (hds : ∀ b ∈ ds, hexValue b < 16) (hvalue : ds.foldl (fun n b => n * 16 + hexValue b) 0 = c.toNat)
    (hc : c.toNat < 0xD800) (h : since text i = 92 :: 117 :: (ds ++ rest)) :
    stringBytes (fuel + 1) acc text i =
      stringBytes fuel (acc ++ (String.utf8EncodeChar c).toByteArray) text (i + 6) := by
  rw [stringBytes, reader_bind (atEnd_eq text i), h]
  rw [if_neg (by simp)]
  refine (reader_bind (peek_eq h)).trans ?_
  have hslash : (92 : UInt8).toNat = 92 := rfl
  have hnext := since_succ h
  rw [hslash]
  refine (reader_bind (advance_eq text i)).trans ?_
  rw [reader_bind (atEnd_eq text (i + 1)), hnext]
  rw [if_neg (by simp)]
  refine (reader_bind (peek_eq hnext)).trans ?_
  refine (reader_bind (advance_eq text (i + 1))).trans ?_
  have hdigits := hex4_eq hlength hds (since_succ hnext)
  -- The number is no surrogate, so no second escape is looked for.
  have hpoint : unicodeEscape text (i + 2) = .ok (c.toNat, i + 6) := by
    rw [unicodeEscape, reader_bind hdigits, hvalue]
    dsimp only
    rw [if_neg (by simp; omega), if_neg (by simp; omega)]
    rfl
  refine (reader_bind hpoint).trans ?_
  have hbytes : (Char.ofNat c.toNat).toString.toUTF8 = (String.utf8EncodeChar c).toByteArray := by
    rw [Char.ofNat_toNat]
    refine ByteArray.ext ?_
    refine Array.ext' ?_
    rw [toList_toUTF8]
    simp [bytesOf, Char.toString]
  rw [hbytes]

/-- The bytes of a character that stands for itself. -/
theorem bytes_plain {c : Char} (hlow : 32 ≤ c.toNat) (hquote : c ≠ '"') (hslash : c ≠ '\\')
    (hb : b ∈ String.utf8EncodeChar c) : 32 ≤ b.toNat ∧ b ≠ 34 ∧ b ≠ 92 := by
  have hquote' : c.val.toNat ≠ 34 := fun h => hquote (Char.ext (UInt32.toNat.inj h))
  have hslash' : c.val.toNat ≠ 92 := fun h => hslash (Char.ext (UInt32.toNat.inj h))
  change 32 ≤ c.val.toNat at hlow
  rw [Ne, Ne, ← UInt8.toNat_inj, ← UInt8.toNat_inj]
  change 32 ≤ b.toNat ∧ b.toNat ≠ 34 ∧ b.toNat ≠ 92
  unfold String.utf8EncodeChar at hb
  dsimp only at hb
  generalize c.val.toNat = v at *
  split at hb
  next =>
    rw [List.mem_singleton.1 hb, UInt8.toNat_ofNat']
    omega
  next =>
    -- All bytes of a longer character are at least 128.
    split at hb
    next =>
      simp only [List.mem_cons, List.not_mem_nil, or_false] at hb
      rcases hb with rfl | rfl <;> (rw [UInt8.toNat_ofNat']; omega)
    next =>
      split at hb
      all_goals
        simp only [List.mem_cons, List.not_mem_nil, or_false] at hb
      · rcases hb with rfl | rfl | rfl <;> (rw [UInt8.toNat_ofNat']; omega)
      · rcases hb with rfl | rfl | rfl | rfl <;> (rw [UInt8.toNat_ofNat']; omega)

theorem stringBytes_plains {ws : List UInt8} (hws : ∀ b ∈ ws, 32 ≤ b.toNat ∧ b ≠ 34 ∧ b ≠ 92) {i : Nat}
    (h : since text i = ws ++ rest) (acc : ByteArray) :
    stringBytes (fuel + ws.length) acc text i =
      stringBytes fuel (acc ++ ws.toByteArray) text (i + ws.length) := by
  induction ws generalizing i acc with
  | nil =>
      congr 1
      exact ByteArray.ext (by simp)
  | cons b ws ih =>
      obtain ⟨hlow, hquote, hslash⟩ := hws b List.mem_cons_self
      have hrest := ih (fun b hb => hws b (List.mem_cons_of_mem _ hb)) (since_succ h) (acc.push b)
      rw [List.length_cons, ← Nat.add_assoc, stringBytes_plain h hlow hquote hslash, hrest]
      have hacc : acc.push b ++ ws.toByteArray = acc ++ (b :: ws).toByteArray :=
        ByteArray.ext (by simp)
      rw [hacc, Nat.add_assoc, Nat.add_comm 1, ← Nat.add_assoc]

theorem hexValue_digitChar :
    ∀ d < 16, hexValue (UInt8.ofNat (Nat.digitChar d).toNat) = d := by decide

/-- The digits of a control character write its number. -/
theorem fourDigits_spec {n : Nat} (hn : n < 32) :
    (ascii (fourDigits n)).length = 4 ∧ (∀ b ∈ ascii (fourDigits n), hexValue b < 16) ∧
      (ascii (fourDigits n)).foldl (fun n b => n * 16 + hexValue b) 0 = n := by
  have hhigh := hexValue_digitChar (n / 16) (by omega)
  have hlow := hexValue_digitChar (n % 16) (by omega)
  have hzero : hexValue (UInt8.ofNat '0'.toNat) = 0 := rfl
  rw [fourDigits_eq hn]
  refine ⟨rfl, ?_, ?_⟩
  · simp only [ascii, List.map_cons, List.map_nil, List.mem_cons, List.not_mem_nil, or_false,
      forall_eq_or_imp, forall_eq, hzero, hhigh, hlow]
    omega
  · simp only [ascii, List.map_cons, List.map_nil, List.foldl_cons, List.foldl_nil, hzero, hhigh, hlow]
    omega

/-- What is written of a character is read as that character. -/
theorem stringBytes_char {c : Char} {w : List Char} (hw : Escaped c w)
    (h : since text i = w.flatMap String.utf8EncodeChar ++ rest) :
    ∃ k ≤ (w.flatMap String.utf8EncodeChar).length, ∀ fuel acc, stringBytes (fuel + k) acc text i =
      stringBytes fuel (acc ++ (String.utf8EncodeChar c).toByteArray) text
        (i + (w.flatMap String.utf8EncodeChar).length) := by
  -- An escape is one step of the reader; a plain character is as many as it has bytes.
  cases hw with
  | @letter e hmem =>
      have hbytes : ['\\', e].flatMap String.utf8EncodeChar = [92, UInt8.ofNat e.toNat] ∧
          String.utf8EncodeChar c = [UInt8.ofNat c.toNat] := by
        simp only [letters, List.mem_cons, Prod.mk.injEq, List.not_mem_nil, or_false] at hmem
        obtain ⟨rfl, rfl⟩ | ⟨rfl, rfl⟩ | ⟨rfl, rfl⟩ | ⟨rfl, rfl⟩ | ⟨rfl, rfl⟩ | ⟨rfl, rfl⟩ |
          ⟨rfl, rfl⟩ := hmem
        all_goals decide
      rw [hbytes.1] at h ⊢
      rw [hbytes.2]
      refine ⟨1, by simp, fun fuel acc => ?_⟩
      have hpush : acc ++ [UInt8.ofNat c.toNat].toByteArray = acc.push (UInt8.ofNat c.toNat) :=
        ByteArray.ext (by simp)
      rw [stringBytes_letter hmem h, hpush]
      rfl
  | number hlow =>
      have hascii := fourDigits_ascii hlow
      obtain ⟨hlength, hhex, hvalue⟩ := fourDigits_spec hlow
      have hbytes : ('\\' :: 'u' :: fourDigits c.toNat).flatMap String.utf8EncodeChar =
          92 :: 117 :: ascii (fourDigits c.toNat) := by
        rw [List.flatMap_cons, List.flatMap_cons, flatMap_ascii hascii]
        rfl
      rw [hbytes] at h ⊢
      refine ⟨1, by simp, fun fuel acc => ?_⟩
      rw [stringBytes_unicode hlength hhex hvalue (by omega) h, List.length_cons, List.length_cons,
        hlength]
  | plain hlow hquote hslash =>
      rw [List.flatMap_singleton] at h ⊢
      exact ⟨_, Nat.le_refl _, fun fuel acc =>
        stringBytes_plains (fun b => bytes_plain hlow hquote hslash) h acc⟩

/-- What is written of characters is read as these, up to the closing quote. -/
theorem stringBytes_chars {cs : List Char} {i fuel : Nat} {acc : ByteArray}
    (h : since text i = cs.flatMap (fun c => bytesOf (escapeChar c)) ++ 34 :: rest)
    (hfuel : (cs.flatMap fun c => bytesOf (escapeChar c)).length < fuel) :
    stringBytes fuel acc text i = .ok (acc ++ (cs.flatMap String.utf8EncodeChar).toByteArray,
      i + (cs.flatMap fun c => bytesOf (escapeChar c)).length + 1) := by
  induction cs generalizing i fuel acc with
  | nil =>
      obtain ⟨fuel, rfl⟩ := Nat.exists_eq_add_of_lt hfuel
      have hacc : acc ++ ([] : List UInt8).toByteArray = acc := ByteArray.ext (by simp)
      rw [List.flatMap_nil, List.flatMap_nil, hacc]
      exact stringBytes_close h
  | cons c cs ih =>
      rw [List.flatMap_cons] at h hfuel
      rw [List.flatMap_cons, List.flatMap_cons]
      rw [List.append_assoc] at h
      obtain ⟨k, hk, hstep⟩ := stringBytes_char (escapeChar_escaped c) h
      rw [← bytesOf] at hk hstep
      rw [List.length_append] at hfuel
      -- The steps for the first character are no more than its bytes, so fuel is left for the
      -- others.
      obtain ⟨fuel, rfl⟩ := Nat.exists_eq_add_of_le (show k ≤ fuel by omega)
      have hacc : acc ++ (String.utf8EncodeChar c).toByteArray ++
          (cs.flatMap String.utf8EncodeChar).toByteArray =
          acc ++ (String.utf8EncodeChar c ++ cs.flatMap String.utf8EncodeChar).toByteArray :=
        ByteArray.ext (by simp)
      rw [Nat.add_comm k fuel, hstep, ih (since_add h) (by omega), hacc, List.length_append,
        ← Nat.add_assoc]

theorem bytesOf_quote (s : String) :
    bytesOf (quote s) = 34 :: ((s.toList.flatMap fun c => bytesOf (escapeChar c)) ++ [34]) := by
  rw [bytesOf, toList_quote, List.flatMap_cons, List.flatMap_append, List.flatMap_assoc]
  rfl

/-- A written string is read as it was. -/
theorem string_eq {s : String} (h : since text i = bytesOf (quote s) ++ rest) :
    string text i = .ok (s, i + (bytesOf (quote s)).length) := by
  have hsize : (bytesOf (quote s)).length ≤ text.size := by
    have hlength := congrArg List.length h
    rw [length_since, List.length_append] at hlength
    omega
  rw [bytesOf_quote] at h hsize ⊢
  rw [List.cons_append, List.append_assoc] at h
  rw [List.length_cons, List.length_append] at hsize
  have hfuel : (s.toList.flatMap fun c => bytesOf (escapeChar c)).length < text.size + 1 := by omega
  have hbytes := @stringBytes_chars text rest _ _ _ ByteArray.empty (since_succ h) hfuel
  have hread : (read : Reader ByteArray) text (i + 1) = .ok (text, i + 1) := rfl
  have hempty : ByteArray.empty ++ (s.toList.flatMap String.utf8EncodeChar).toByteArray = s.toUTF8 := by
    rw [ByteArray.empty_append]
    refine ByteArray.ext (Array.ext' ?_)
    rw [toList_toUTF8, List.data_toByteArray, bytesOf]
  have hutf8 : String.fromUTF8? s.toUTF8 = some s := dif_pos s.isValidUTF8
  rw [string, reader_bind (advance_eq text i), reader_bind hread, reader_bind hbytes, hempty, hutf8]
  rw [List.length_cons, List.length_append]
  exact congrArg (fun j => Except.ok (s, j)) (by simp; omega)

/-! ## Numbers -/

/-- What may stand behind a value: a mark, or nothing more. -/
def Stops (rest : List UInt8) : Prop := ∀ b ∈ rest.head?, b = 44 ∨ b = 93 ∨ b = 125

/-- The byte that is looked at there goes on with no numeral. -/
theorem peek_stops (hstops : Stops rest) (h : since text i = rest) : ∃ b, peek text i = .ok (b, i) ∧
    isDigit b = false ∧ (b == 46) = false ∧ (b == 101 || b == 69) = false := by
  cases rest with
  | nil => exact ⟨0, peek_end h, rfl, rfl, rfl⟩
  | cons b rest =>
      refine ⟨b.toNat, peek_eq h, ?_⟩
      rcases hstops b rfl with rfl | rfl | rfl <;> decide

theorem le_ofDigitChars (cs : List Char) (n : Nat) : n ≤ Nat.ofDigitChars 10 cs n := by
  induction cs generalizing n with
  | nil => exact Nat.le_refl n
  | cons c cs ih =>
      rw [Nat.ofDigitChars_cons]
      exact Nat.le_trans (by omega) (ih _)

/-- Digits are taken while they go on, as long as their number fits into 64 bits. -/
theorem digits_go {cs : List Char} (hcs : ∀ c ∈ cs, c.isDigit) {i n acc used : Nat}
    (hstops : Stops rest) (h : since text i = ascii cs ++ rest)
    (hn : n = (ascii cs ++ rest).length) (hfits : Nat.ofDigitChars 10 cs acc ≤ maxWord) :
    digits.go text n i acc used 0 =
      (i + (ascii cs).length, Nat.ofDigitChars 10 cs acc, used + cs.length, 0) := by
  induction cs generalizing i n acc used with
  | nil =>
      subst hn
      cases rest with
      | nil => rfl
      | cons b rest =>
          obtain ⟨x, hpeek, hdigit, -⟩ := peek_stops hstops h
          obtain rfl : b.toNat = x := congrArg Prod.fst (Except.ok.inj ((peek_eq h).symm.trans hpeek))
          have hbyte : text[i]? = some b := by rw [← getElem?_since, h]; rfl
          have hlength : (ascii [] ++ b :: rest).length = rest.length + 1 := rfl
          rw [hlength, digits.go, hbyte, Option.getD_some, hdigit]
          rfl
  | cons c cs ih =>
      subst hn
      have hc := hcs c List.mem_cons_self
      have hrange := Script.Lex.digit_range hc
      have hcode : (UInt8.ofNat c.toNat).toNat = c.toNat := by
        rw [UInt8.toNat_ofNat']
        omega
      have hbyte : text[i]? = some (UInt8.ofNat c.toNat) := by rw [← getElem?_since, h]; rfl
      have hdigit : isDigit c.toNat = true := by
        rw [isDigit, Bool.and_eq_true, decide_eq_true_eq, decide_eq_true_eq]
        exact hrange
      have hzero : '0'.toNat = 48 := rfl
      rw [Nat.ofDigitChars_cons, hzero, Nat.mul_comm] at hfits ⊢
      -- What was read so far is at most the whole number, which fits.
      have hnext : acc * 10 + (c.toNat - 48) ≤ maxWord := (le_ofDigitChars cs _).trans hfits
      have hlength : (ascii (c :: cs) ++ rest).length = (ascii cs ++ rest).length + 1 := rfl
      rw [hlength, digits.go, hbyte, Option.getD_some, hcode, hdigit, if_pos rfl]
      dsimp only
      rw [if_pos (by simpa using hnext), ih (fun c hc => hcs c (List.mem_cons_of_mem _ hc))
        (since_succ h) rfl hfits]
      simp [ascii, Nat.add_assoc, Nat.add_comm 1]

theorem number_minus (h : since text i = 45 :: bs) : number text i = magnitude true text (i + 1) := by
  unfold number
  exact (reader_bind (peek_eq h)).trans (reader_bind (advance_eq text i))

theorem number_digit (h : since text i = b :: bs) (hb : b ≠ 45) :
    number text i = magnitude false text i := by
  have hsign : (b.toNat == 45) = false := by simpa [← UInt8.toNat_inj] using hb
  unfold number
  refine (reader_bind (peek_eq h)).trans ?_
  rw [hsign]
  rfl

theorem exponent_none (hstops : Stops rest) (h : since text i = rest) :
    exponent text i = .ok (none, i) := by
  obtain ⟨b, hpeek, -, -, hmark⟩ := peek_stops hstops h
  unfold exponent
  rw [reader_bind hpeek]
  dsimp only
  rw [hmark]
  rfl

theorem digits_eq {n : Nat} (hn : n ≤ 9007199254740992) (hstops : Stops rest)
    (h : since text i = ascii (Nat.toDigits 10 n) ++ rest) : digits 0 text i =
      .ok ((n, (Nat.toDigits 10 n).length, 0), i + (ascii (Nat.toDigits 10 n)).length) := by
  have hvalue : Nat.ofDigitChars 10 (Nat.toDigits 10 n) 0 = n :=
    Nat.ofDigitChars_toDigits (by decide) (by decide)
  have hmax : maxWord = 18446744073709551615 := by decide
  have hfits : Nat.ofDigitChars 10 (Nat.toDigits 10 n) 0 ≤ maxWord := by
    rw [hvalue]
    omega
  have hgo : digits.go text _ i 0 0 0 = _ :=
    digits_go (fun c hc => Key.isDigit_toDigits hc) hstops h rfl hfits
  rw [← h, length_since, hvalue, Nat.zero_add] at hgo
  have hread : digits 0 text i = .ok (((digits.go text (text.size - i) i 0 0 0).2.1,
    (digits.go text (text.size - i) i 0 0 0).2.2.1, (digits.go text (text.size - i) i 0 0 0).2.2.2),
      (digits.go text (text.size - i) i 0 0 0).1) := rfl
  rw [hread, hgo]

theorem ending_eq (neg leadingZero : Bool) {n used : Nat} (hn : n ≤ 9007199254740992)
    (hneg : neg = true → n ≠ 0) (hstops : Stops rest) (h : since text i = rest) :
    ending neg leadingZero (n, used, 0) text i = .ok (.integer (if neg then -n else n), i) := by
  obtain ⟨b, hpeek, hdigit, hpoint, -⟩ := peek_stops hstops h
  have hlimit : twoTo 63 = 9223372036854775808 := by decide
  unfold ending
  refine (reader_bind hpeek).trans ?_
  rw [hdigit, Bool.and_false, if_neg Bool.false_ne_true]
  refine (reader_bind hpeek).trans ?_
  rw [hpoint, if_neg Bool.false_ne_true]
  refine (reader_bind (exponent_none hstops h)).trans ?_
  -- Neither a fraction nor an exponent follows, and no digit was dropped.
  dsimp only
  rw [if_neg (by omega)]
  cases neg with
  | false => rfl
  | true =>
      have hsmall : ¬(n == 0 || n > twoTo 63) = true := by
        simp only [hlimit, Bool.or_eq_true, beq_iff_eq, decide_eq_true_eq]
        have hpos := hneg rfl
        omega
      rw [Bool.not_true, if_neg Bool.false_ne_true, if_neg hsmall]
      rfl

theorem magnitude_eq (neg : Bool) {n : Nat} (hn : n ≤ 9007199254740992) (hstops : Stops rest)
    (hneg : neg = true → n ≠ 0) (h : since text i = ascii (Nat.toDigits 10 n) ++ rest) :
    magnitude neg text i = .ok (.integer (if neg then -n else n),
      i + (ascii (Nat.toDigits 10 n)).length) := by
  obtain ⟨c, cs, hdigits⟩ := List.exists_cons_of_ne_nil (Nat.toDigits_ne_nil (n := n) (b := 10))
  have hc : c.isDigit := Key.isDigit_toDigits (hdigits ▸ List.mem_cons_self)
  have hrange := Script.Lex.digit_range hc
  have hcode : (UInt8.ofNat c.toNat).toNat = c.toNat := by
    rw [UInt8.toNat_ofNat']
    omega
  have hdigit : isDigit c.toNat = true := by
    rw [isDigit, Bool.and_eq_true, decide_eq_true_eq, decide_eq_true_eq]
    exact hrange
  have hhead : since text i = UInt8.ofNat c.toNat :: (ascii cs ++ rest) := by
    rw [h, hdigits]
    rfl
  have hfirst := peek_eq hhead
  rw [hcode] at hfirst
  unfold magnitude
  rw [reader_bind (atEnd_eq text i), hhead]
  rw [if_neg (by simp)]
  refine (reader_bind hfirst).trans ?_
  rw [hdigit, if_neg (by simp)]
  refine (reader_bind hfirst).trans ?_
  -- Only the numeral of zero begins with it.
  by_cases h0 : n = 0
  · subst h0
    obtain ⟨rfl, rfl⟩ := List.cons.inj hdigits
    exact (reader_bind (advance_eq text i)).trans
      (ending_eq neg true hn hneg hstops (since_add h))
  · have hnoZero : ¬(c.toNat == 48) = true := by
      intro hzero
      obtain rfl : c = '0' := Char.ext (UInt32.toNat.inj (eq_of_beq hzero))
      exact Key.head_toDigits (Nat.pos_of_ne_zero h0) (by rw [hdigits]; rfl)
    rw [if_neg hnoZero]
    exact (reader_bind (digits_eq hn hstops h)).trans
      (ending_eq neg false hn hneg hstops (since_add h))

/-- A written integer is read as it was. -/
theorem number_eq {n : Int} (hn : n.natAbs ≤ 9007199254740992) (hstops : Stops rest)
    (h : since text i = bytesOf (toString n) ++ rest) :
    number text i = .ok (.integer n, i + (bytesOf (toString n)).length) := by
  have hdigits : (Nat.toDigits 10 n.natAbs).flatMap String.utf8EncodeChar =
      ascii (Nat.toDigits 10 n.natAbs) := flatMap_ascii fun c hc => by
    have hrange := Script.Lex.digit_range (Key.isDigit_toDigits hc)
    omega
  have hbytes : bytesOf (toString n) =
      (if n < 0 then [45] else []) ++ ascii (Nat.toDigits 10 n.natAbs) := by
    rw [bytesOf, Numeral.toList_toString, List.flatMap_append, hdigits]
    split <;> rfl
  rw [hbytes] at h ⊢
  -- Below zero a sign is read first; otherwise the first byte is a digit and no sign.
  split at h
  next hneg =>
    have hvalue : (if true = true then -(n.natAbs : Int) else n.natAbs) = n := by
      rw [if_pos rfl]
      omega
    rw [number_minus h, magnitude_eq true hn hstops (fun _ => by omega) (since_succ h), hvalue]
    exact congrArg (fun j => Except.ok (integer n, j)) (by simp [hneg]; omega)
  next hpos =>
    have hvalue : (if false = true then -(n.natAbs : Int) else n.natAbs) = n := by
      rw [if_neg Bool.false_ne_true]
      omega
    obtain ⟨c, cs, hcons⟩ :=
      List.exists_cons_of_ne_nil (Nat.toDigits_ne_nil (n := n.natAbs) (b := 10))
    have hc := Script.Lex.digit_range (Key.isDigit_toDigits (hcons ▸ List.mem_cons_self))
    have hsign : UInt8.ofNat c.toNat ≠ 45 := fun heq => by
      have hcode := congrArg UInt8.toNat heq
      rw [UInt8.toNat_ofNat', Nat.mod_eq_of_lt (by omega)] at hcode
      simp at hcode
      omega
    have hhead : since text i = UInt8.ofNat c.toNat :: (ascii cs ++ rest) := by
      rw [h, hcons]
      rfl
    rw [number_digit hhead hsign, magnitude_eq false hn hstops (by simp) h, hvalue, if_neg hpos]
    rfl

/-! ## Documents -/

/-- A byte with which a written document begins. -/
def Begins (b : UInt8) : Prop :=
  b = 110 ∨ b = 116 ∨ b = 102 ∨ b = 34 ∨ b = 45 ∨ isDigit b.toNat = true ∨ b = 91 ∨ b = 123

instance (b : UInt8) : Decidable (Begins b) := inferInstanceAs (Decidable (_ ∨ _))

theorem Begins.not_blank (h : Begins b) : ¬IsBlank b := by
  unfold Begins at h
  unfold IsBlank
  rintro (rfl | rfl | rfl | rfl) <;> revert h <;> decide

theorem Begins.ne_mark (h : Begins b) : b ≠ 93 ∧ b ≠ 125 := by
  unfold Begins at h
  refine ⟨?_, ?_⟩ <;> rintro rfl <;> revert h <;> decide

theorem Stops.not_blank (h : Stops (b :: bs)) : ¬IsBlank b := by
  have hmark := h b rfl
  unfold IsBlank
  rintro (rfl | rfl | rfl | rfl) <;> revert hmark <;> decide

theorem begins_quote (s : String) : ∃ bs, bytesOf (quote s) = 34 :: bs := ⟨_, bytesOf_quote s⟩

/-- An integer is written with a sign or a digit in front. -/
theorem begins_toString (n : Int) :
    ∃ b bs, bytesOf (toString n) = b :: bs ∧ (b = 45 ∨ isDigit b.toNat = true) := by
  obtain ⟨c, cs, hdigits⟩ :=
    List.exists_cons_of_ne_nil (Nat.toDigits_ne_nil (n := n.natAbs) (b := 10))
  have hc := Script.Lex.digit_range (Key.isDigit_toDigits (hdigits ▸ List.mem_cons_self))
  have hascii : [c].flatMap String.utf8EncodeChar = ascii [c] := flatMap_ascii (by simp; omega)
  have hbyte : String.utf8EncodeChar c = [UInt8.ofNat c.toNat] := by
    rwa [List.flatMap_singleton] at hascii
  rw [bytesOf, Numeral.toList_toString, hdigits]
  split
  next => exact ⟨45, _, rfl, .inl rfl⟩
  next =>
    refine ⟨UInt8.ofNat c.toNat, cs.flatMap String.utf8EncodeChar, ?_, .inr ?_⟩
    · rw [List.nil_append, List.flatMap_cons, hbyte]
      rfl
    · rw [UInt8.toNat_ofNat', Nat.mod_eq_of_lt (by omega), isDigit, Bool.and_eq_true,
        decide_eq_true_eq, decide_eq_true_eq]
      exact hc

theorem begins_render {d : Document} (hd : d.Portable) :
    ∃ b bs, bytesOf d.render = b :: bs ∧ Begins b := by
  cases hd with
  | null => exact ⟨110, _, rfl, by decide⟩
  | bool b =>
      cases b with
      | true => exact ⟨116, _, rfl, by decide⟩
      | false => exact ⟨102, _, rfl, by decide⟩
  | integer hn =>
      obtain ⟨b, bs, hbytes, hb⟩ := begins_toString _
      refine ⟨b, bs, hbytes, ?_⟩
      unfold Begins
      tauto
  | string s => exact ⟨34, _, bytesOf_quote s, by decide⟩
  | array hitems => exact ⟨91, _, by rw [render, bytesOf_append, bytesOf_append]; rfl, by decide⟩
  | object hkeys hmembers =>
      exact ⟨123, _, by rw [render, bytesOf_append, bytesOf_append]; rfl, by decide⟩

/-! ### Items and members -/

/-- A reader takes a document as it is written, whatever follows. -/
def Takes (x : Reader Document) (d : Document) : Prop :=
  ∀ text i rest, Stops rest → since text i = bytesOf d.render ++ rest →
    x text i = .ok (d, i + (bytesOf d.render).length)

/-- A closing byte after an item is taken. -/
theorem another_close {close : Nat} (what : String) (hb : b = 93 ∨ b = 125) (hclose : close = b.toNat)
    (h : since text i = b :: rest) : another close what text i = .ok (false, i + 1) := by
  have hblank : ¬IsBlank b := by
    unfold IsBlank
    rcases hb with rfl | rfl <;> decide
  unfold another
  rw [reader_bind (skipBlanks_eq h hblank), reader_bind (atEnd_eq text i), h]
  rw [if_neg (by simp)]
  refine (reader_bind (peek_eq h)).trans ?_
  rw [hclose, beq_self_eq_true, if_pos rfl]
  rfl

/-- After a comma there is another item. -/
theorem another_comma {close : Nat} (what : String) (hcomma : close ≠ 44) (hblank : ¬IsBlank b)
    (hclose : close ≠ b.toNat) (h : since text i = 44 :: b :: rest) :
    another close what text i = .ok (true, i + 1) := by
  have hnext := since_succ h
  have hno : ((44 : UInt8).toNat == close) = false := by simpa using Ne.symm hcomma
  have hno' : (b.toNat == close) = false := by simpa using Ne.symm hclose
  unfold another
  rw [reader_bind (skipBlanks_eq h (by unfold IsBlank; decide)), reader_bind (atEnd_eq text i), h]
  rw [if_neg (by simp)]
  refine (reader_bind (peek_eq h)).trans ?_
  rw [hno, if_neg Bool.false_ne_true]
  dsimp only
  rw [if_pos (by decide)]
  refine (reader_bind (advance_eq text i)).trans ?_
  rw [reader_bind (skipBlanks_eq hnext hblank)]
  refine (reader_bind (peek_eq hnext)).trans ?_
  rw [hno', if_neg Bool.false_ne_true]
  rfl

theorem bytesOf_renderItems (d : Document) {ds : List Document} (hds : ds ≠ []) :
    bytesOf (renderItems (d :: ds)) = bytesOf d.render ++ 44 :: bytesOf (renderItems ds) := by
  have hitems : renderItems (d :: ds) = d.render ++ "," ++ renderItems ds := by
    cases ds with
    | nil => exact absurd rfl hds
    | cons e ds => rfl
  rw [hitems, bytesOf_append, bytesOf_append, List.append_assoc]
  rfl

/-- Items begin like their first one. -/
theorem begins_items {ds : List Document} (hds : ds ≠ []) (hportable : ∀ d ∈ ds, d.Portable) :
    ∃ b bs, bytesOf (renderItems ds) = b :: bs ∧ Begins b := by
  obtain ⟨d, ds, rfl⟩ := List.exists_cons_of_ne_nil hds
  obtain ⟨b, bs, hbytes, hb⟩ := begins_render (hportable d List.mem_cons_self)
  by_cases hlast : ds = []
  · subst hlast
    exact ⟨b, bs, hbytes, hb⟩
  · rw [bytesOf_renderItems d hlast, hbytes]
    exact ⟨b, _, rfl, hb⟩

/-- Items are read up to the closing bracket. -/
theorem itemsUntil_eq {item : Reader Document} {ds : List Document} (hds : ds ≠ [])
    (hportable : ∀ d ∈ ds, d.Portable) (hitem : ∀ d ∈ ds, Takes item d) {fuel i : Nat}
    {acc : List Document} (h : since text i = bytesOf (renderItems ds) ++ 93 :: rest)
    (hfuel : (bytesOf (renderItems ds)).length ≤ fuel) :
    itemsUntil item (fuel + 1) acc text i =
      .ok (acc.reverse ++ ds, i + (bytesOf (renderItems ds)).length + 1) := by
  induction ds generalizing fuel i acc with
  | nil => exact absurd rfl hds
  | cons d ds ih =>
      have hd := hitem d List.mem_cons_self
      have hrest := fun e he => hitem e (List.mem_cons_of_mem d he)
      by_cases hlast : ds = []
      · subst hlast
        have hone : renderItems [d] = d.render := rfl
        rw [hone] at h ⊢
        have hstops : Stops (93 :: rest) := by simp [Stops]
        rw [itemsUntil, reader_bind (hd _ _ _ hstops h)]
        refine (reader_bind (another_close "a list" (.inl rfl) rfl (since_add h))).trans ?_
        simp only [Bool.false_eq_true, if_false, List.reverse_cons]
        rfl
      · rw [bytesOf_renderItems d hlast] at h hfuel ⊢
        rw [List.append_assoc, List.cons_append] at h
        have hstops : Stops (44 :: (bytesOf (renderItems ds) ++ 93 :: rest)) := by simp [Stops]
        -- What follows the comma is another item, which begins like any document.
        obtain ⟨b, bs, hbytes, hb⟩ :=
          begins_items hlast fun d hd => hportable d (List.mem_cons_of_mem _ hd)
        have hafter := since_add h
        have hcomma : since text (i + (bytesOf d.render).length) = 44 :: b :: (bs ++ 93 :: rest) := by
          rw [hafter, hbytes]
          rfl
        obtain ⟨fuel, rfl⟩ : ∃ n, fuel = n + 1 := by
          rw [List.length_append, List.length_cons] at hfuel
          exact ⟨fuel - 1, by omega⟩
        rw [List.length_append, List.length_cons] at hfuel ⊢
        rw [itemsUntil, reader_bind (hd _ _ _ hstops h)]
        refine (reader_bind (another_comma "a list" (by decide) hb.not_blank ?_ hcomma)).trans ?_
        · intro heq
          exact hb.ne_mark.1 (UInt8.toNat_inj.1 heq.symm)
        · rw [if_pos rfl]
          refine (ih hlast (fun d hd => hportable d (List.mem_cons_of_mem _ hd)) hrest
            (since_succ hafter) (by omega)).trans ?_
          rw [List.reverse_cons, List.append_assoc]
          exact congrArg (fun j => Except.ok (_, j)) (by omega)

theorem key_eq {k : String} (h : since text i = bytesOf (quote k) ++ 58 :: rest) :
    key text i = .ok (k, i + (bytesOf (quote k)).length + 1) := by
  obtain ⟨bs, hbytes⟩ := begins_quote k
  have hhead : since text i = 34 :: (bs ++ 58 :: rest) := by
    rw [h, hbytes]
    rfl
  have hcolon := since_add h
  unfold key
  rw [reader_bind (skipBlanks_eq hhead (by unfold IsBlank; decide))]
  refine (reader_bind (peek_eq hhead)).trans ?_
  rw [if_neg (by decide)]
  refine (reader_bind (string_eq h)).trans ?_
  rw [reader_bind (skipBlanks_eq hcolon (by unfold IsBlank; decide))]
  refine (reader_bind (peek_eq hcolon)).trans ?_
  rw [if_neg (by decide)]
  rfl

/-- The bytes of a member. -/
def memberBytes (k : String) (d : Document) : List UInt8 :=
  bytesOf (quote k) ++ 58 :: bytesOf d.render

theorem length_memberBytes (k : String) (d : Document) : (memberBytes k d).length =
    (bytesOf (quote k)).length + (bytesOf d.render).length + 1 := by
  rw [memberBytes, List.length_append, List.length_cons, Nat.add_assoc]

theorem bytesOf_renderMember (k : String) (d : Document) :
    bytesOf (renderMembers [(k, d)]) = memberBytes k d := by
  have hone : renderMembers [(k, d)] = quote k ++ ":" ++ d.render := rfl
  rw [hone, bytesOf_append, bytesOf_append, List.append_assoc]
  rfl

theorem bytesOf_renderMembers (k : String) (d : Document) {ms : List (String × Document)}
    (hms : ms ≠ []) : bytesOf (renderMembers ((k, d) :: ms)) =
      memberBytes k d ++ 44 :: bytesOf (renderMembers ms) := by
  have hmembers : renderMembers ((k, d) :: ms) =
      renderMembers [(k, d)] ++ "," ++ renderMembers ms := by
    cases ms with
    | nil => exact absurd rfl hms
    | cons n ms => rfl
  rw [hmembers, bytesOf_append, bytesOf_append, bytesOf_renderMember, List.append_assoc]
  rfl

/-- Members begin with a key. -/
theorem begins_members {ms : List (String × Document)} (hms : ms ≠ []) :
    ∃ bs, bytesOf (renderMembers ms) = 34 :: bs := by
  obtain ⟨⟨k, d⟩, ms, rfl⟩ := List.exists_cons_of_ne_nil hms
  obtain ⟨bs, hbytes⟩ := begins_quote k
  by_cases hlast : ms = []
  · subst hlast
    rw [bytesOf_renderMember, memberBytes, hbytes]
    exact ⟨_, rfl⟩
  · rw [bytesOf_renderMembers _ _ hlast, memberBytes, hbytes]
    exact ⟨_, rfl⟩

/-- Members are read up to the closing brace. -/
theorem membersUntil_eq {item : Reader Document} {ms : List (String × Document)} (hms : ms ≠ [])
    (hitem : ∀ m ∈ ms, Takes item m.2) {fuel i : Nat} {acc : List (String × Document)}
    (h : since text i = bytesOf (renderMembers ms) ++ 125 :: rest)
    (hfuel : (bytesOf (renderMembers ms)).length ≤ fuel) :
    membersUntil item (fuel + 1) acc text i =
      .ok (acc.reverse ++ ms, i + (bytesOf (renderMembers ms)).length + 1) := by
  induction ms generalizing fuel i acc with
  | nil => exact absurd rfl hms
  | cons m ms ih =>
      obtain ⟨k, d⟩ := m
      have hd : Takes item d := hitem (k, d) List.mem_cons_self
      have hrest := fun e he => hitem e (List.mem_cons_of_mem (k, d) he)
      by_cases hlast : ms = []
      · subst hlast
        rw [bytesOf_renderMember] at h ⊢
        rw [length_memberBytes]
        rw [memberBytes, List.append_assoc, List.cons_append] at h
        have hstops : Stops (125 :: rest) := by simp [Stops]
        have hvalue := since_succ (since_add h)
        rw [membersUntil, reader_bind (key_eq h), reader_bind (hd _ _ _ hstops hvalue)]
        refine (reader_bind (another_close "an object" (.inr rfl) rfl (since_add hvalue))).trans ?_
        rw [if_neg Bool.false_ne_true, List.reverse_cons]
        exact congrArg (fun j => Except.ok (_, j)) (by omega)
      · rw [bytesOf_renderMembers _ _ hlast] at h hfuel ⊢
        rw [List.length_append, List.length_cons, length_memberBytes] at hfuel ⊢
        rw [memberBytes, List.append_assoc, List.append_assoc, List.cons_append,
          List.cons_append] at h
        have hstops : Stops (44 :: (bytesOf (renderMembers ms) ++ 125 :: rest)) := by
          simp [Stops]
        -- What follows the comma is another key.
        obtain ⟨bs, hbytes⟩ := begins_members hlast
        have hvalue := since_succ (since_add h)
        have hafter := since_add hvalue
        have hcomma : since text (i + (bytesOf (quote k)).length + 1 + (bytesOf d.render).length) =
            44 :: 34 :: (bs ++ 125 :: rest) := by
          rw [hafter, hbytes]
          rfl
        obtain ⟨fuel, rfl⟩ : ∃ n, fuel = n + 1 := ⟨fuel - 1, by omega⟩
        rw [membersUntil, reader_bind (key_eq h), reader_bind (hd _ _ _ hstops hvalue)]
        refine (reader_bind (another_comma "an object" (by decide) (by unfold IsBlank; decide)
          (by decide) hcomma)).trans ?_
        rw [if_pos rfl]
        refine (ih hlast hrest (since_succ hafter) (by omega)).trans ?_
        rw [List.reverse_cons, List.append_assoc]
        exact congrArg (fun j => Except.ok (_, j)) (by omega)

/-! ### Values -/

/-- What a reader does that looks at the first byte of a document. -/
theorem start_eq {f : ByteArray → Nat → Reader α} (hb : Begins b) (h : since text i = b :: bs) :
    (do
      skipBlanks
      if ← atEnd then failHere "EOF while parsing a value"
      let text ← read
      let b ← peek
      f text b) text i = f text b.toNat text i := by
  have hread : (read : Reader ByteArray) text i = .ok (text, i) := rfl
  rw [reader_bind (skipBlanks_eq h hb.not_blank), reader_bind (atEnd_eq text i), h]
  rw [if_neg (by simp)]
  exact (reader_bind hread).trans (reader_bind (peek_eq h))

theorem value_word {depth : Nat} {w : String} {cs : List Char} {d : Document}
    (hw : (w, cs, d) = ("null", ['n', 'u', 'l', 'l'], .null) ∨
      (w, cs, d) = ("true", ['t', 'r', 'u', 'e'], .bool true) ∨
      (w, cs, d) = ("false", ['f', 'a', 'l', 's', 'e'], .bool false))
    (h : since text i = ascii cs ++ rest) :
    value (depth + 1) text i = .ok (d, i + (ascii cs).length) := by
  have hword : ∀ e : Document, w.toList = cs → (∀ c ∈ cs, c.toNat < 128) →
      (do word w; pure e : Reader Document) text i = .ok (e, i + (ascii cs).length) := by
    rintro e rfl hascii
    exact reader_bind (word_eq hascii h)
  unfold value
  simp only [Prod.mk.injEq] at hw
  rcases hw with ⟨rfl, rfl, rfl⟩ | ⟨rfl, rfl, rfl⟩ | ⟨rfl, rfl, rfl⟩
  all_goals
    exact (start_eq (by decide) h).trans (hword _ (by simp) (by simp))

/-- An integer is told by its sign or its first digit, which is neither a letter nor a quote. -/
theorem value_integer {n : Int} (hn : n.natAbs ≤ 9007199254740992) (depth : Nat) :
    Takes (value (depth + 1)) (.integer n) := by
  intro text i rest hstops h
  obtain ⟨b, bs, hbytes, hb⟩ := begins_toString n
  have hhead : since text i = b :: (bs ++ rest) := by
    rw [h, render, hbytes]
    rfl
  have hcode : (b.toNat = 45 ∨ (48 ≤ b.toNat ∧ b.toNat ≤ 57)) := by
    rcases hb with rfl | hdigit
    · exact .inl rfl
    · rw [isDigit, Bool.and_eq_true, decide_eq_true_eq, decide_eq_true_eq] at hdigit
      exact .inr hdigit
  have hbegins : (b.toNat == 45 || isDigit b.toNat) = true := by
    simpa [isDigit] using hcode
  unfold value
  refine (start_eq (by unfold Begins; tauto) hhead).trans ?_
  rw [if_neg (by simp; omega), if_neg (by simp; omega), if_neg (by simp; omega),
    if_neg (by simp; omega), if_pos hbegins]
  exact number_eq hn hstops h

theorem value_string (s : String) (depth : Nat) : Takes (value (depth + 1)) (.string s) := by
  intro text i rest _ h
  obtain ⟨bs, hbytes⟩ := begins_quote s
  have hhead : since text i = 34 :: (bs ++ rest) := by
    rw [h, render, hbytes]
    rfl
  unfold value
  exact (start_eq (by decide) hhead).trans (reader_bind (string_eq h))

/-- What a text has ahead is no longer than the text. -/
theorem length_ahead {front back : List UInt8} (h : since text i = front ++ back) :
    front.length ≤ text.size := by
  have hlength := congrArg List.length h
  rw [length_since, List.length_append] at hlength
  omega

/-- A list is read by a reader of its items. -/
theorem value_array {items : List Document} {depth : Nat} (hportable : ∀ d ∈ items, d.Portable)
    (hitems : ∀ d ∈ items, Takes (value (depth + 1)) d) :
    Takes (value (depth + 2)) (.array items) := by
  intro text i rest _ h
  have hbytes : bytesOf (render (.array items)) =
      91 :: (bytesOf (renderItems items) ++ [93]) := by
    rw [render, bytesOf_append, bytesOf_append]
    rfl
  rw [hbytes] at h ⊢
  rw [List.cons_append, List.append_assoc] at h
  have hinside := since_succ h
  rw [List.length_cons, List.length_append]
  unfold value
  refine (start_eq (by decide) h).trans ?_
  refine (reader_bind (advance_eq text i)).trans ?_
  -- An empty list is told by its closing bracket, which begins no item.
  by_cases hempty : items = []
  · subst hempty
    rw [reader_bind (skipBlanks_eq hinside (by unfold IsBlank; decide))]
    exact reader_bind (peek_eq hinside)
  · obtain ⟨b, bs, hfirst, hb⟩ := begins_items hempty hportable
    have hhead : since text (i + 1) = b :: (bs ++ [93] ++ rest) := by
      rw [hinside, hfirst]
      simp
    have hclose : (b.toNat == 93) = false := by
      simpa [← UInt8.toNat_inj] using hb.ne_mark.1
    rw [reader_bind (skipBlanks_eq hhead hb.not_blank)]
    refine (reader_bind (peek_eq hhead)).trans ?_
    rw [hclose, if_neg Bool.false_ne_true]
    refine (reader_bind
      (itemsUntil_eq hempty hportable hitems hinside (length_ahead hinside))).trans ?_
    exact congrArg (fun j => Except.ok (_, j)) (by simp; omega)

/-- An object is read by a reader of the values of its members. -/
theorem value_object {members : List (String × Document)} {depth : Nat}
    (hmembers : ∀ m ∈ members, Takes (value (depth + 1)) m.2) :
    Takes (value (depth + 2)) (.object members) := by
  intro text i rest _ h
  have hbytes : bytesOf (render (.object members)) =
      123 :: (bytesOf (renderMembers members) ++ [125]) := by
    rw [render, bytesOf_append, bytesOf_append]
    rfl
  rw [hbytes] at h ⊢
  rw [List.cons_append, List.append_assoc] at h
  have hinside := since_succ h
  rw [List.length_cons, List.length_append]
  unfold value
  refine (start_eq (by decide) h).trans ?_
  refine (reader_bind (advance_eq text i)).trans ?_
  -- Every member begins with the quote of its key.
  by_cases hempty : members = []
  · subst hempty
    rw [reader_bind (skipBlanks_eq hinside (by unfold IsBlank; decide))]
    exact reader_bind (peek_eq hinside)
  · obtain ⟨bs, hfirst⟩ := begins_members hempty
    have hhead : since text (i + 1) = 34 :: (bs ++ [125] ++ rest) := by
      rw [hinside, hfirst]
      simp
    rw [reader_bind (skipBlanks_eq hhead (by unfold IsBlank; decide))]
    refine (reader_bind (peek_eq hhead)).trans ?_
    rw [if_neg (by decide)]
    refine (reader_bind (membersUntil_eq hempty hmembers hinside (length_ahead hinside))).trans ?_
    exact congrArg (fun j => Except.ok (_, j)) (by simp; omega)

/-- A written document is read as it was. -/
theorem value_eq {d : Document} (hd : d.Portable) {depth : Nat} (hdepth : d.nesting < depth) :
    Takes (value depth) d := by
  obtain ⟨depth, rfl⟩ := Nat.exists_eq_add_one_of_ne_zero (Nat.ne_zero_of_lt hdepth)
  induction hd generalizing depth with
  | null =>
      intro text i rest _ h
      exact value_word (.inl rfl) h
  | bool b =>
      intro text i rest _ h
      cases b with
      | true => exact value_word (.inr (.inl rfl)) h
      | false => exact value_word (.inr (.inr rfl)) h
  | integer hn => exact value_integer hn depth
  | string s => exact value_string s depth
  | array hitems ih =>
      obtain ⟨n, rfl⟩ : ∃ n, depth = n + 1 :=
        Nat.exists_eq_add_one_of_ne_zero (by rw [nesting] at hdepth; omega)
      exact value_array hitems fun d hd => ih d hd n (nesting_item hdepth hd)
  | object hkeys hmembers ih =>
      obtain ⟨n, rfl⟩ : ∃ n, depth = n + 1 :=
        Nat.exists_eq_add_one_of_ne_zero (by rw [nesting] at hdepth; omega)
      exact value_object fun m hm => ih m hm n (nesting_member hdepth hm)

end Reader

/-- The text of a portable document that is not nested too deep is decoded as that document, with
members in order. -/
theorem decode_render {d : Document} (hd : d.Portable) (hdepth : d.nesting < Reader.depthLimit) :
    Schema.decode .value d.render = .ok d.sorted := by
  have hwhole : Reader.since d.render.toUTF8 0 = bytesOf d.render ++ [] := by
    rw [Reader.since, toList_toUTF8, List.drop_zero, List.append_nil]
  have hvalue := Reader.value_eq hd hdepth _ _ _ (by simp [Reader.Stops]) hwhole
  -- Behind the document nothing is left, as the decoder demands.
  have hend := Reader.since_add hwhole
  have hreader : Schema.reader .value d.render.toUTF8 0 =
      .ok (d.sorted, 0 + (bytesOf d.render).length) := Script.reader_bind hvalue
  have hfinish : Reader.finish d.render.toUTF8 (0 + (bytesOf d.render).length) =
      .ok ((), 0 + (bytesOf d.render).length) := by
    unfold Reader.finish
    rw [Script.reader_bind (Reader.skipBlanks_end hend), Script.reader_bind (Reader.atEnd_eq _ _),
      hend]
    rfl
  have hall : (do
      let a ← Schema.reader .value
      Reader.finish
      pure a : Reader Document) d.render.toUTF8 0 =
        .ok (d.sorted, 0 + (bytesOf d.render).length) :=
    (Script.reader_bind hreader).trans (Script.reader_bind hfinish)
  unfold Schema.decode Reader.run
  dsimp only
  rw [hall]
  rfl

end Document

end ScriptHost
