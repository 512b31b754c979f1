import ScriptHost.Proofs.DocumentReading
/-!
# Documents that the engine reads

The reader of scripts goes one token ahead.  From the first token of a written document on it takes
that document, and then it reads the next token.
-/

namespace ScriptHost

namespace Document

mutual

/-- The document as a script sees it. -/
def scripted : Document → Json
  | null => .null
  | bool b => .bool b
  | integer n => .number (Binary.ofInt n)
  | real d => .number d
  | string s => .string (.ofString s)
  | array items => .array (scriptedItems items)
  | object members => .object (scriptedMembers members)

/-- Items as a script sees them. -/
def scriptedItems : List Document → List Json
  | [] => []
  | d :: ds => scripted d :: scriptedItems ds

/-- Members as a script sees them. -/
def scriptedMembers : List (String × Document) → List (Text × Json)
  | [] => []
  | (k, d) :: ms => (.ofString k, scripted d) :: scriptedMembers ms

end

end Document

namespace Json

variable {us rest : List UInt16}

/-! ## Tokens -/

theorem next_quote (s : String) : next (unitsIn (Document.quote s) ++ rest) =
    .ok ⟨.string (.ofString s), unitsIn (Document.quote s) ++ rest, rest⟩ := by
  have hscan : scanString (s.toList.flatMap (fun c => unitsIn (Document.escapeChar c)) ++
      ([34] ++ rest)) .empty = .ok (.ofString s, rest) := scanString_chars s.toList .empty
  have hnext : ∀ us, next (34 :: us) = (do
      let scanned ← scanString us .empty
      pure ⟨.string scanned.1, 34 :: us, scanned.2⟩) := fun us => rfl
  rw [unitsIn_quote, List.cons_append, hnext, List.append_assoc, hscan]
  rfl

/-- A mark between values. -/
theorem next_mark {u : UInt16} (hu : u ∈ ([91, 93, 123, 125, 44, 58] : List UInt16)) :
    next (u :: us) = .ok ⟨.mark (charOf u), u :: us, us⟩ := by
  simp only [List.mem_cons, List.not_mem_nil, or_false] at hu
  rcases hu with rfl | rfl | rfl | rfl | rfl | rfl <;> rfl

/-- What may stand behind a value: a mark, or nothing more. -/
def Stops (rest : List UInt16) : Prop := ∀ u ∈ rest.head?, u = 44 ∨ u = 93 ∨ u = 125

theorem takeWhile_stops {p : UInt16 → Bool} (hus : ∀ u ∈ us, p u = true)
    (hp : p 44 = false ∧ p 93 = false ∧ p 125 = false) (hstops : Stops rest) :
    (us ++ rest).takeWhile p = us ∧ (us ++ rest).dropWhile p = rest := by
  have hrest : rest.takeWhile p = [] ∧ rest.dropWhile p = rest := by
    cases rest with
    | nil => exact ⟨rfl, rfl⟩
    | cons u rest =>
        have hu : p u = false := by
          rcases hstops u rfl with rfl | rfl | rfl
          · exact hp.1
          · exact hp.2.1
          · exact hp.2.2
        rw [List.takeWhile_cons, List.dropWhile_cons, hu]
        exact ⟨rfl, rfl⟩
  rw [List.takeWhile_append_of_pos hus, List.dropWhile_append_of_pos hus, hrest.1, hrest.2,
    List.append_nil]
  exact ⟨rfl, rfl⟩

/-- A word that is a value. -/
theorem next_word {w : String} (hw : w = "null" ∨ w = "true" ∨ w = "false") (hstops : Stops rest) :
    next (unitsIn w ++ rest) = .ok ⟨.word (txt w), unitsIn w ++ rest, rest⟩ := by
  have hnext : ∀ u ∈ ([110, 116, 102] : List UInt16), ∀ us, next (u :: us) =
      .ok ⟨.word ⟨((u :: us).takeWhile fun v => startsWord v || isDigit v).toArray⟩, u :: us,
        (u :: us).dropWhile fun v => startsWord v || isDigit v⟩ := by
    intro u hu us
    simp only [List.mem_cons, List.not_mem_nil, or_false] at hu
    rcases hu with rfl | rfl | rfl <;> rfl
  have hwhole : ∃ u ∈ ([110, 116, 102] : List UInt16), ∃ us, unitsIn w = u :: us ∧
      ((u :: us).all fun v => startsWord v || isDigit v) = true ∧ ⟨(u :: us).toArray⟩ = txt w := by
    rcases hw with rfl | rfl | rfl
    · exact ⟨110, by simp, [117, 108, 108], rfl, by decide, rfl⟩
    · exact ⟨116, by simp, [114, 117, 101], rfl, by decide, rfl⟩
    · exact ⟨102, by simp, [97, 108, 115, 101], rfl, by decide, rfl⟩
  obtain ⟨u, hu, us, hunits, hletters, htext⟩ := hwhole
  obtain ⟨htake, hdrop⟩ := takeWhile_stops (List.all_eq_true.1 hletters) (by decide) hstops
  rw [hunits, List.cons_append, hnext u hu]
  rw [← List.cons_append, htake, hdrop, htext]

/-! ### Numbers -/

theorem isDigit_of_digit {c : Char} (hc : c.isDigit) : isDigit (UInt16.ofNat c.toNat) = true := by
  have hrange := Script.Lex.digit_range hc
  rw [isDigit, charOf_ofNat (by omega), Char.ofNat_toNat, Numeral.isDigit_eq]
  exact hc

/-- Digits that neither a fraction nor an exponent follows, with a sign in front or without one. -/
theorem scanNumber_whole {input ds : List UInt16} {neg : Bool} {d : Float} {cs : List Char}
    (hinput : input = (if neg then [45] else []) ++ (ds ++ rest)) (hall : ∀ u ∈ ds, isDigit u = true)
    (hds : ds ≠ []) (hzero : ds.head? = some 48 → ds.length = 1) (hstops : Stops rest)
    (hd : Numeral.scanDecimal? neg (ds.map charOf) = some (d, cs)) :
    scanNumber input = .ok (d, rest) := by
  obtain ⟨htake, hdrop⟩ := takeWhile_stops hall (by decide) hstops
  have hempty : ds.isEmpty = false := by simpa using hds
  have hlead : (ds.head? == some 48 && decide (ds.length > 1)) = false := by
    by_cases h : ds.head? = some 48
    · simp [hzero h]
    · simp [h]
  have hnumber : Numeral.scanDecimal? neg ((ds ++ [] ++ []).map charOf) = some (d, cs) := by
    rw [List.append_nil, List.append_nil, hd]
  unfold scanNumber
  split
  next neg' body heq =>
    have hparts : neg' = neg ∧ body = ds ++ rest := by
      cases neg with
      | true =>
          rw [hinput] at heq
          cases heq
          exact ⟨rfl, rfl⟩
      | false =>
          -- A digit is no sign.
          split at heq
          next us =>
            obtain ⟨u, ds, rfl⟩ := List.exists_cons_of_ne_nil hds
            obtain rfl : 45 = u := (List.cons.inj hinput).1
            exact absurd (hall 45 List.mem_cons_self) (by decide)
          next =>
            rw [hinput] at heq
            cases heq
            exact ⟨rfl, rfl⟩
    obtain ⟨rfl, rfl⟩ := hparts
    rw [htake, hdrop]
    dsimp only
    rw [hempty, if_neg Bool.false_ne_true, hlead, if_neg Bool.false_ne_true]
    cases rest with
    | nil =>
        dsimp only [bind, Except.bind, pure, Except.pure]
        rw [hnumber]
    | cons u rest =>
        rcases hstops u rfl with rfl | rfl | rfl
        all_goals
          dsimp only [bind, Except.bind, pure, Except.pure]
          rw [hnumber]
          rfl

/-- An integer is written with a sign or a digit in front. -/
theorem begins_toString (n : Int) : ∃ u us, unitsIn (toString n) = u :: us ∧
    (u = 45 ∨ 48 ≤ u.toNat ∧ u.toNat ≤ 57) := by
  obtain ⟨c, cs, hcons⟩ :=
    List.exists_cons_of_ne_nil (Nat.toDigits_ne_nil (n := n.natAbs) (b := 10))
  have hrange := Script.Lex.digit_range (Key.isDigit_toDigits (hcons ▸ List.mem_cons_self))
  have hunit := Text.toNat_ofNat_of_lt (n := c.toNat) (by omega)
  rw [unitsIn, Numeral.toList_toString, hcons]
  split
  next => exact ⟨45, _, rfl, .inl rfl⟩
  next =>
    refine ⟨UInt16.ofNat c.toNat, cs.flatMap fun c => Text.unitsOf c.toNat, ?_, .inr ?_⟩
    · rw [List.nil_append, List.flatMap_cons, unitsOf_low (by omega)]
      rfl
    · rwa [hunit]

/-- A written integer is read as the number that holds it. -/
theorem scanNumber_eq {n : Int} (hn : n.natAbs ≤ 2 ^ 53) (hstops : Stops rest) :
    scanNumber (unitsIn (toString n) ++ rest) = .ok (Binary.ofInt n, rest) := by
  have hdigits : ∀ c ∈ Nat.toDigits 10 n.natAbs, c.isDigit := fun c hc => Key.isDigit_toDigits hc
  have hunits : unitsIn (toString n) =
      (if n < 0 then [45] else []) ++ lowUnits (Nat.toDigits 10 n.natAbs) := by
    have hlow : (Nat.toDigits 10 n.natAbs).flatMap (fun c => Text.unitsOf c.toNat) =
        lowUnits (Nat.toDigits 10 n.natAbs) := flatMap_low fun c hc => by
      have hrange := Script.Lex.digit_range (hdigits c hc)
      omega
    rw [unitsIn, Numeral.toList_toString, List.flatMap_append, hlow]
    split <;> rfl
  have hall : ∀ u ∈ lowUnits (Nat.toDigits 10 n.natAbs), isDigit u = true := by
    intro u hu
    obtain ⟨c, hc, rfl⟩ := List.mem_map.1 hu
    exact isDigit_of_digit (hdigits c hc)
  have hchars : (lowUnits (Nat.toDigits 10 n.natAbs)).map charOf = Nat.toDigits 10 n.natAbs := by
    rw [lowUnits, List.map_map]
    refine (List.map_congr_left fun c hc => ?_).trans (List.map_id _)
    have hrange := Script.Lex.digit_range (hdigits c hc)
    exact (charOf_ofNat (by omega)).trans (Char.ofNat_toNat c)
  obtain ⟨c, cs, hcons⟩ :=
    List.exists_cons_of_ne_nil (Nat.toDigits_ne_nil (n := n.natAbs) (b := 10))
  have hne : lowUnits (Nat.toDigits 10 n.natAbs) ≠ [] := by simp [lowUnits]
  -- Only the numeral of zero begins with a zero.
  have hzero : (lowUnits (Nat.toDigits 10 n.natAbs)).head? = some 48 →
      (lowUnits (Nat.toDigits 10 n.natAbs)).length = 1 := by
    intro hhead
    by_cases h0 : n.natAbs = 0
    · rw [h0]
      rfl
    · exfalso
      have hrange := Script.Lex.digit_range (hdigits c (by simp [hcons]))
      rw [hcons] at hhead
      have hcode := congrArg UInt16.toNat (Option.some.inj hhead)
      rw [Text.toNat_ofNat_of_lt (by omega)] at hcode
      obtain rfl : c = '0' := Char.ext (UInt32.toNat.inj hcode)
      exact Key.head_toDigits (Nat.pos_of_ne_zero h0) (by rw [hcons]; rfl)
  have hscan : ∀ neg, Numeral.scanDecimal? neg ((lowUnits (Nat.toDigits 10 n.natAbs)).map charOf) =
      some (Binary.ofScaled neg n.natAbs 0, []) := by
    intro neg
    rw [hchars]
    exact Numeral.scanDecimal_toDigits hn
  have hsigned : ∀ neg, neg = decide (n < 0) → scanNumber (unitsIn (toString n) ++ rest) =
      .ok (Binary.ofScaled neg n.natAbs 0, rest) := by
    rintro neg rfl
    refine scanNumber_whole ?_ hall hne hzero hstops (hscan _)
    rw [hunits, List.append_assoc]
    simp only [decide_eq_true_eq]
  exact hsigned _ rfl

/-- A number begins with a sign or a digit. -/
theorem next_sign {u : UInt16} (hu : u = 45 ∨ 48 ≤ u.toNat ∧ u.toNat ≤ 57) :
    next (u :: us) = (do
      let (d, rest) ← scanNumber (u :: us)
      pure ⟨.number d, u :: us, rest⟩) := by
  have hcode : u.toNat = 45 ∨ 48 ≤ u.toNat ∧ u.toNat ≤ 57 := hu.imp_left (congrArg UInt16.toNat)
  -- It is no blank and no quote, which are asked for first.
  have hblank : isBlank u = false := by
    simp only [isBlank, Bool.or_eq_false_iff, beq_eq_false_iff_ne, ne_eq, ← UInt16.toNat_inj]
    refine ⟨⟨⟨?_, ?_⟩, ?_⟩, ?_⟩ <;> simp <;> omega
  have hquote : (u == 34) = false := by
    simp only [beq_eq_false_iff_ne, ne_eq, ← UInt16.toNat_inj]
    simp
    omega
  have hsign : (u == 45 || isDigit u) = true := by
    rcases hu with rfl | hu
    · rfl
    · have hchar : (Char.ofNat u.toNat).toNat = u.toNat := by
        rw [Char.toNat_ofNat, if_pos (.inl (by omega))]
      have hdigit := @isDigit_of_digit (Char.ofNat u.toNat) (by
        rw [Char.isDigit_iff_toNat, hchar]
        exact hu)
      rw [hchar, UInt16.ofNat_toNat] at hdigit
      rw [hdigit, Bool.or_true]
  have hstart : (u :: us).dropWhile isBlank = u :: us := by
    rw [List.dropWhile_cons, hblank]
    rfl
  unfold next
  rw [hstart]
  dsimp only
  rw [hquote, if_neg Bool.false_ne_true, hsign, if_pos rfl]

theorem next_number {n : Int} (hn : n.natAbs ≤ 2 ^ 53) (hstops : Stops rest) :
    next (unitsIn (toString n) ++ rest) =
      .ok ⟨.number (Binary.ofInt n), unitsIn (toString n) ++ rest, rest⟩ := by
  have hscan := scanNumber_eq hn hstops
  obtain ⟨u, us, hunits, hu⟩ := begins_toString n
  rw [hunits, List.cons_append] at hscan ⊢
  rw [next_sign hu, hscan]
  rfl

/-! ## Values -/

theorem ok_bind {α β : Type} {x : Except Fault α} {f : α → Except Fault β} {a : α} (h : x = .ok a) :
    (x >>= f) = f a := by
  rw [h]
  rfl

/-- A token with which a document begins. -/
inductive Opens : Token → Prop
  | string (t : Text) : Opens (.string t)
  | number (d : Float) : Opens (.number d)
  | word (t : Text) : Opens (.word t)
  | array : Opens (.mark '[')
  | object : Opens (.mark '\x7b')

/-- From its first token on a written document is read, and one token more, whatever follows. -/
def Reads (d : Document) : Prop :=
  ∀ rest, Stops rest → ∃ l, next (unitsIn d.render ++ rest) = .ok l ∧ Opens l.token ∧
    ∀ fuel, (unitsIn d.render).length ≤ fuel →
      value (fuel + 1) l = (do pure (d.scripted, ← next rest))

theorem unitsIn_renderItems (d : Document) {ds : List Document} (hds : ds ≠ []) :
    unitsIn (Document.renderItems (d :: ds)) =
      unitsIn d.render ++ 44 :: unitsIn (Document.renderItems ds) := by
  have hcons : Document.renderItems (d :: ds) = d.render ++ "," ++ Document.renderItems ds := by
    cases ds with
    | nil => exact absurd rfl hds
    | cons e ds => rfl
  rw [hcons, unitsIn_append, unitsIn_append, List.append_assoc]
  rfl

/-- Items are read up to the closing bracket. -/
theorem itemsFrom_eq (rest : List UInt16) {ds : List Document} (hds : ds ≠ [])
    (hreads : ∀ d ∈ ds, Reads d) :
    ∃ l, next (unitsIn (Document.renderItems ds) ++ 93 :: rest) = .ok l ∧ Opens l.token ∧
      ∀ fuel count acc, (unitsIn (Document.renderItems ds)).length ≤ fuel →
        (unitsIn (Document.renderItems ds)).length ≤ count →
        itemsFrom (value (fuel + 1)) (count + 1) l acc =
          (do pure (acc.reverse ++ ds.map Document.scripted, ← next rest)) := by
  induction ds with
  | nil => exact absurd rfl hds
  | cons d ds ih =>
      by_cases hlast : ds = []
      · subst hlast
        have hone : Document.renderItems [d] = d.render := rfl
        rw [hone]
        obtain ⟨l, hl, hopens, hvalue⟩ := hreads d List.mem_cons_self (93 :: rest) (by simp [Stops])
        refine ⟨l, hl, hopens, fun fuel count acc hfuel hcount => ?_⟩
        rw [itemsFrom, hvalue fuel hfuel, next_mark (by simp)]
        have hlist : (d.scripted :: acc).reverse = acc.reverse ++ [d].map Document.scripted := by simp
        rw [← hlist]
        rfl
      · -- Behind a comma the other items are read like a list of their own.
        obtain ⟨l', hl', hopens', hitems⟩ := ih hlast fun e he => hreads e (List.mem_cons_of_mem d he)
        obtain ⟨l, hl, hopens, hvalue⟩ := hreads d List.mem_cons_self
          (44 :: (unitsIn (Document.renderItems ds) ++ 93 :: rest)) (by simp [Stops])
        rw [unitsIn_renderItems d hlast, List.append_assoc, List.cons_append]
        refine ⟨l, hl, hopens, fun fuel count acc hfuel hcount => ?_⟩
        rw [List.length_append, List.length_cons] at hfuel hcount
        obtain ⟨count, rfl⟩ : ∃ n, count = n + 1 := ⟨count - 1, by omega⟩
        have hrest := hitems fuel count (d.scripted :: acc) (by omega) (by omega)
        have hlist : (d.scripted :: acc).reverse ++ ds.map Document.scripted =
            acc.reverse ++ (d :: ds).map Document.scripted := by simp
        rw [hlist] at hrest
        rw [← hrest, itemsFrom, hvalue fuel (by omega), next_mark (by simp)]
        have hnext : (next (unitsIn (Document.renderItems ds) ++ 93 :: rest) >>= fun l =>
            itemsFrom (value (fuel + 1)) (count + 1) l (d.scripted :: acc)) =
            itemsFrom (value (fuel + 1)) (count + 1) l' (d.scripted :: acc) := ok_bind hl'
        exact hnext

/-- A member as it is written. -/
def memberText (m : String × Document) : String := Document.quote m.1 ++ ":" ++ m.2.render

theorem unitsIn_renderMembers (m : String × Document) {ms : List (String × Document)} (hms : ms ≠ []) :
    unitsIn (Document.renderMembers (m :: ms)) =
      unitsIn (memberText m) ++ 44 :: unitsIn (Document.renderMembers ms) := by
  have hcons : Document.renderMembers (m :: ms) =
      memberText m ++ "," ++ Document.renderMembers ms := by
    cases ms with
    | nil => exact absurd rfl hms
    | cons n ms => rfl
  rw [hcons, unitsIn_append, unitsIn_append, List.append_assoc]
  rfl

/-- A member is longer than its value. -/
theorem value_size (m : String × Document) :
    (unitsIn m.2.render).length ≤ (unitsIn (memberText m)).length := by
  rw [memberText, unitsIn_append, List.length_append]
  omega

/-- A member is read from its key on, up to what follows its value. -/
theorem member_eq {m : String × Document} (hreads : Reads m.2) (hstops : Stops rest) :
    ∃ l, next (unitsIn (memberText m) ++ rest) = .ok l ∧ l.token = .string (.ofString m.1) ∧
      ∃ l', next (unitsIn m.2.render ++ rest) = .ok l' ∧
        next l.rest = .ok ⟨.mark ':', l.rest, unitsIn m.2.render ++ rest⟩ ∧
        ∀ fuel, (unitsIn m.2.render).length ≤ fuel →
          value (fuel + 1) l' = (do pure (m.2.scripted, ← next rest)) := by
  obtain ⟨l', hl', -, hvalue⟩ := hreads rest hstops
  have hunits : unitsIn (memberText m) ++ rest =
      unitsIn (Document.quote m.1) ++ 58 :: (unitsIn m.2.render ++ rest) := by
    rw [memberText, unitsIn_append, unitsIn_append, List.append_assoc, List.append_assoc]
    rfl
  rw [hunits]
  exact ⟨_, next_quote m.1, rfl, l', hl', next_mark (by simp), hvalue⟩

/-- Members are read up to the closing brace. -/
theorem membersFrom_eq (rest : List UInt16) {ms : List (String × Document)} (hms : ms ≠ [])
    (hreads : ∀ m ∈ ms, Reads m.2) :
    ∃ l t, next (unitsIn (Document.renderMembers ms) ++ 125 :: rest) = .ok l ∧ l.token = .string t ∧
      ∀ fuel count acc, (unitsIn (Document.renderMembers ms)).length ≤ fuel →
        (unitsIn (Document.renderMembers ms)).length ≤ count →
        membersFrom (value (fuel + 1)) (count + 1) l acc =
          (do pure (acc.reverse ++ ms.map fun m => (.ofString m.1, m.2.scripted), ← next rest)) := by
  induction ms with
  | nil => exact absurd rfl hms
  | cons m ms ih =>
      by_cases hlast : ms = []
      · subst hlast
        have hone : Document.renderMembers [m] = memberText m := rfl
        have hstops : Stops (125 :: rest) := by simp [Stops]
        obtain ⟨l, hl, htoken, l', hl', hcolon, hvalue⟩ :=
          member_eq (hreads m List.mem_cons_self) hstops
        rw [hone]
        refine ⟨l, _, hl, htoken, fun fuel count acc hfuel hcount => ?_⟩
        have hlist : ((Text.ofString m.1, m.2.scripted) :: acc).reverse =
            acc.reverse ++ [m].map fun m => (Text.ofString m.1, m.2.scripted) := by simp
        rw [membersFrom, htoken]
        dsimp only
        rw [ok_bind hcolon]
        dsimp only
        rw [ok_bind hl', hvalue fuel ((value_size m).trans hfuel), next_mark (by simp), ← hlist]
        rfl
      · -- Behind a comma the other members are read like an object of their own.
        obtain ⟨l₁, t, hl₁, htoken₁, hmembers⟩ :=
          ih hlast fun e he => hreads e (List.mem_cons_of_mem m he)
        have hstops : Stops (44 :: (unitsIn (Document.renderMembers ms) ++ 125 :: rest)) := by
          simp [Stops]
        obtain ⟨l, hl, htoken, l', hl', hcolon, hvalue⟩ :=
          member_eq (hreads m List.mem_cons_self) hstops
        rw [unitsIn_renderMembers m hlast, List.append_assoc, List.cons_append]
        refine ⟨l, _, hl, htoken, fun fuel count acc hfuel hcount => ?_⟩
        rw [List.length_append, List.length_cons] at hfuel hcount
        have hinner := value_size m
        obtain ⟨count, rfl⟩ : ∃ n, count = n + 1 := ⟨count - 1, by omega⟩
        have hrest := hmembers fuel count ((Text.ofString m.1, m.2.scripted) :: acc) (by omega)
          (by omega)
        have hlist : ((Text.ofString m.1, m.2.scripted) :: acc).reverse ++
            ms.map (fun m => (Text.ofString m.1, m.2.scripted)) =
            acc.reverse ++ (m :: ms).map fun m => (Text.ofString m.1, m.2.scripted) := by simp
        rw [hlist] at hrest
        rw [← hrest, membersFrom, htoken]
        dsimp only
        rw [ok_bind hcolon]
        dsimp only
        rw [ok_bind hl', hvalue fuel (by omega), next_mark (by simp)]
        have hnext : (next (unitsIn (Document.renderMembers ms) ++ 125 :: rest) >>= fun l =>
            membersFrom (value (fuel + 1)) (count + 1) l
              ((Text.ofString m.1, m.2.scripted) :: acc)) =
            membersFrom (value (fuel + 1)) (count + 1) l₁
              ((Text.ofString m.1, m.2.scripted) :: acc) := ok_bind hl₁
        exact hnext

/-! ### Documents -/

theorem scriptedItems_eq (ds : List Document) :
    Document.scriptedItems ds = ds.map Document.scripted := by
  induction ds with
  | nil => rfl
  | cons d ds ih => rw [Document.scriptedItems, ih, List.map_cons]

theorem scriptedMembers_eq (ms : List (String × Document)) :
    Document.scriptedMembers ms = ms.map fun m => (.ofString m.1, m.2.scripted) := by
  induction ms with
  | nil => rfl
  | cons m ms ih =>
      obtain ⟨k, d⟩ := m
      rw [Document.scriptedMembers, ih, List.map_cons]

/-- A word that is a value is read as that value. -/
theorem value_word {fuel : Nat} {w : String} {d : Document} {l : Lexeme}
    (hw : (w, d) = ("null", .null) ∨ (w, d) = ("true", .bool true) ∨ (w, d) = ("false", .bool false))
    (hl : l.token = .word (txt w)) :
    value (fuel + 1) l = (do pure (d.scripted, ← next l.rest)) := by
  simp only [Prod.mk.injEq] at hw
  rw [value, hl]
  rcases hw with ⟨rfl, rfl⟩ | ⟨rfl, rfl⟩ | ⟨rfl, rfl⟩
  all_goals rfl

theorem unitsIn_array (ds : List Document) : unitsIn (Document.render (.array ds)) =
    91 :: (unitsIn (Document.renderItems ds) ++ [93]) := by
  rw [Document.render, unitsIn_append, unitsIn_append, List.append_assoc]
  rfl

theorem length_array (ds : List Document) : (unitsIn (Document.render (.array ds))).length =
    (unitsIn (Document.renderItems ds)).length + 2 := by
  rw [unitsIn_array, List.length_cons, List.length_append]
  rfl

theorem unitsIn_object (ms : List (String × Document)) : unitsIn (Document.render (.object ms)) =
    123 :: (unitsIn (Document.renderMembers ms) ++ [125]) := by
  rw [Document.render, unitsIn_append, unitsIn_append, List.append_assoc]
  rfl

theorem length_object (ms : List (String × Document)) :
    (unitsIn (Document.render (.object ms))).length =
      (unitsIn (Document.renderMembers ms)).length + 2 := by
  rw [unitsIn_object, List.length_cons, List.length_append]
  rfl

/-- A written array is read if its items are. -/
theorem reads_array {ds : List Document} (h : ∀ d ∈ ds, Reads d) : Reads (.array ds) := by
  intro rest hstops
  rw [length_array, unitsIn_array, List.cons_append, List.append_assoc]
  refine ⟨_, next_mark (by simp), .array, fun fuel hfuel => ?_⟩
  rw [Document.scripted, scriptedItems_eq, value]
  by_cases hds : ds = []
  · subst hds
    exact ok_bind (next_mark (by simp))
  · obtain ⟨l, hl, hopens, hread⟩ := itemsFrom_eq rest hds h
    obtain ⟨fuel, rfl⟩ : ∃ n, fuel = n + 1 := ⟨fuel - 1, by omega⟩
    have hitems : (do
        let p ← itemsFrom (value (fuel + 1)) (fuel + 1 + 1) l []
        pure (Json.array p.1, p.2)) =
        (do pure (.array (ds.map Document.scripted), ← next rest)) := by
      rw [hread fuel (fuel + 1) [] (by omega) (by omega)]
      cases next rest <;> rfl
    rw [← hitems]
    refine (ok_bind hl).trans ?_
    -- What the list begins with is no closing bracket.
    obtain ⟨token, start, r⟩ := l
    cases hopens <;> rfl

/-- A written object is read if the values of its members are. -/
theorem reads_object {ms : List (String × Document)} (h : ∀ m ∈ ms, Reads m.2) :
    Reads (.object ms) := by
  intro rest hstops
  rw [length_object, unitsIn_object, List.cons_append, List.append_assoc]
  refine ⟨_, next_mark (by simp), .object, fun fuel hfuel => ?_⟩
  rw [Document.scripted, scriptedMembers_eq, value]
  by_cases hms : ms = []
  · subst hms
    exact ok_bind (next_mark (by simp))
  · obtain ⟨l, t, hl, htoken, hread⟩ := membersFrom_eq rest hms h
    obtain ⟨fuel, rfl⟩ : ∃ n, fuel = n + 1 := ⟨fuel - 1, by omega⟩
    -- What the object comes to is told of any tokens behind it, be they ill-formed.
    have hmembers : (do
        let p ← membersFrom (value (fuel + 1)) (fuel + 1 + 1) l []
        pure (Json.object p.1, p.2)) = (do
        pure (.object (ms.map fun m => (.ofString m.1, m.2.scripted)), ← next rest)) := by
      rw [hread fuel (fuel + 1) [] (by omega) (by omega)]
      cases next rest <;> rfl
    rw [← hmembers]
    refine (ok_bind hl).trans ?_
    obtain ⟨token, start, r⟩ := l
    obtain rfl : token = .string t := htoken
    rfl

/-- A written document is read as a script sees it. -/
theorem reads_portable {d : Document} (hd : d.Portable) : Reads d := by
  induction hd with
  | null =>
      intro rest hstops
      exact ⟨_, next_word (.inl rfl) hstops, .word _, fun fuel _ => value_word (.inl rfl) rfl⟩
  | bool b =>
      intro rest hstops
      cases b with
      | true =>
          exact ⟨_, next_word (.inr (.inl rfl)) hstops, .word _,
            fun fuel _ => value_word (.inr (.inl rfl)) rfl⟩
      | false =>
          exact ⟨_, next_word (.inr (.inr rfl)) hstops, .word _,
            fun fuel _ => value_word (.inr (.inr rfl)) rfl⟩
  | integer hn =>
      intro rest hstops
      refine ⟨_, next_number (hn.trans (by decide)) hstops, .number _, fun fuel _ => ?_⟩
      rw [value]
      rfl
  | string s =>
      intro rest hstops
      refine ⟨_, next_quote s, .string _, fun fuel _ => ?_⟩
      rw [value]
      rfl
  | array _ ih => exact reads_array ih
  | object _ _ ih => exact reads_object ih

/-- A portable document is read from its text as a script sees it. -/
theorem read_render {d : Document} (hd : d.Portable) : read (unitsIn d.render) = .ok d.scripted := by
  obtain ⟨l, hl, -, hvalue⟩ := reads_portable hd [] (by simp [Stops])
  rw [List.append_nil] at hl
  unfold read
  rw [ok_bind hl, hvalue _ (Nat.le_refl _)]
  rfl

end Json

end ScriptHost
