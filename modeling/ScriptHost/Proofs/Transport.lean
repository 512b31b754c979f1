import ScriptHost.Client.Transport
import ScriptHost.Proofs.Texts
/-!
# Texts reach the host as they are

What the host reads of a text are the characters that its units stand for, and three replacement
characters for each unpaired surrogate.  That is what a decoder makes of the bytes in which the text
leaves the engine.
-/

namespace ScriptHost

namespace Text

/-! ## Code points, one unit after the other -/

/-- Whether a second half of a pair comes first. -/
def trailsFirst (us : List UInt16) : Bool := us.head?.any isTrail

/-- The code points of units that come after a first half of a pair, or do not. -/
def pointsAfter : Bool → List UInt16 → List Nat
  | _, [] => []
  | after, u :: us =>
    (if after ∧ isTrail u then []
      else if isLead u ∧ trailsFirst us then [pairValue u (us.head?.getD 0)]
      else [u.toNat]) ++ pointsAfter (isLead u) us

theorem not_isTrail_of_isLead {u : UInt16} (h : isLead u) : isTrail u = false := by
  simp only [isLead, isTrail, Bool.and_eq_true, decide_eq_true_eq, Bool.and_eq_false_iff,
    decide_eq_false_iff_not] at h ⊢
  omega

theorem pointsAfter_not_trail (after : Bool) {us : List UInt16} (h : trailsFirst us = false) :
    pointsAfter after us = pointsAfter false us := by
  cases us with
  | nil => rfl
  | cons u us =>
      have hu : isTrail u = false := by simpa [trailsFirst] using h
      simp [pointsAfter, hu]

theorem filterMap_range_succ (f : Nat → Option Nat) (n : Nat) :
    (List.range (n + 1)).filterMap f =
      (f 0).toList ++ (List.range n).filterMap fun i => f (i + 1) := by
  rw [List.range_succ_eq_map, List.filterMap_cons, List.filterMap_map]
  cases f 0 <;> rfl

/-- What is found unit by unit stands at the positions of the text. -/
theorem filterMap_pointAt (pre us : List UInt16) :
    (List.range us.length).filterMap (fun i => pointAt? ⟨(pre ++ us).toArray⟩ (pre.length + i)) =
      pointsAfter (pre.getLast?.any isLead) us := by
  induction us generalizing pre with
  | nil => rfl
  | cons u us ih =>
      have hhere : (pre ++ u :: us)[pre.length]? = some u := by simp
      have hnext : (pre ++ u :: us)[pre.length + 1]? = us.head? := by
        rw [List.getElem?_append_right (by omega)]
        simp [List.head?_eq_getElem?]
      -- Of what stands in front, only its last unit decides whether this one ends a pair.
      have hafter : (pre.length ≠ 0 ∧ ((pre ++ u :: us)[pre.length - 1]?.any isLead) = true) ↔
          pre.getLast?.any isLead = true := by
        cases pre with
        | nil => simp
        | cons v pre =>
            rw [List.getElem?_append_left (by simp), List.getLast?_eq_getElem?]
            simp
      have hpoint : (pointAt? ⟨(pre ++ u :: us).toArray⟩ (pre.length + 0)).toList =
          if pre.getLast?.any isLead ∧ isTrail u then []
          else if isLead u ∧ trailsFirst us then [pairValue u (us.head?.getD 0)]
          else [u.toNat] := by
        simp only [pointAt?, leadsAt, trailsAt, trailsFirst, Nat.add_zero, List.getElem?_toArray, hhere,
          hnext, ← and_assoc, hafter, Option.any_some, Option.getD_some, Option.map_some]
        split
        next => rfl
        next =>
          split
          next hpair => exact (if_pos hpair).symm
          next hpair => exact (if_neg hpair).symm
      have hshift : ∀ i, pre.length + (i + 1) = (pre ++ [u]).length + i := by
        intro i
        rw [List.length_append, List.length_singleton]
        omega
      have hwhole : pre ++ u :: us = pre ++ [u] ++ us := by simp
      have hlast : (pre ++ [u]).getLast?.any isLead = isLead u := by simp
      rw [List.length_cons, filterMap_range_succ, hpoint, pointsAfter, ← hlast, ← ih (pre ++ [u])]
      simp only [hshift, hwhole]

theorem codePoints_eq (t : Text) : t.codePoints = pointsAfter false t.units.toList := by
  have hpoints := filterMap_pointAt [] t.units.toList
  simp only [List.nil_append, List.length_nil, Nat.zero_add, Array.toArray_toList,
    Array.length_toList] at hpoints
  exact hpoints

/-! ## What the host reads -/

/-- What is read once no more units come. -/
def finish (st : String × Option UInt16) : String :=
  match st.2 with
  | some _ => st.1 ++ replacement
  | none => st.1

theorem isSurrogate_of_isLead {u : UInt16} (h : isLead u) : IsSurrogate u.toNat := by
  simp only [isLead, Bool.and_eq_true, decide_eq_true_eq] at h
  exact ⟨h.1, by omega⟩

theorem isSurrogate_of_isTrail {u : UInt16} (h : isTrail u) : IsSurrogate u.toNat := by
  simp only [isTrail, Bool.and_eq_true, decide_eq_true_eq] at h
  exact ⟨by omega, h.2⟩

theorem not_isSurrogate {u : UInt16} (hlead : isLead u = false) (htrail : isTrail u = false) :
    ¬IsSurrogate u.toNat := by
  simp only [isLead, isTrail, Bool.and_eq_false_iff, decide_eq_false_iff_not] at hlead htrail
  rintro ⟨hlow, hhigh⟩
  omega

theorem not_isSurrogate_pair {lead trail : UInt16} : ¬IsSurrogate (pairValue lead trail) := by
  rintro ⟨-, hhigh⟩
  unfold pairValue at hhigh
  omega

theorem replacement_eq {lead : UInt16} (h : IsSurrogate lead.toNat) :
    replacement = String.ofList (shownPoint lead.toNat) := by
  rw [shownPoint, if_pos h]
  rfl

section Steps

variable {u v lead : UInt16} {us : List UInt16}

theorem pointsAfter_other (hu : isLead u = false) :
    pointsAfter false (u :: us) = u.toNat :: pointsAfter false us := by
  simp [pointsAfter, hu]

theorem pointsAfter_pair (hu : isLead u) (hv : isTrail v) :
    pointsAfter false (u :: v :: us) = pairValue u v :: pointsAfter false us := by
  have hv' : isLead v = false := by
    rw [Bool.eq_false_iff]
    intro hlead
    rw [not_isTrail_of_isLead hlead] at hv
    cases hv
  simp [pointsAfter, trailsFirst, hu, hv, hv']

theorem pointsAfter_lone (hu : isLead u) (h : trailsFirst us = false) :
    pointsAfter false (u :: us) = u.toNat :: pointsAfter false us := by
  have hrest := pointsAfter_not_trail true h
  simp [pointsAfter, hu, h, hrest]

/-- A unit that is no first half is read at once. -/
theorem decodeStep_other (hu : isLead u = false) (s : String) :
    decodeStep (s, none) u = (s ++ String.ofList (shownPoint u.toNat), none) := by
  cases hv : isTrail u with
  | true => simp [decodeStep, hu, hv, replacement_eq (isSurrogate_of_isTrail hv)]
  | false =>
      have hshown : shownPoint u.toNat = [Char.ofNat u.toNat] := if_neg (not_isSurrogate hu hv)
      have hpush : s.push (Char.ofNat u.toNat) = s ++ String.ofList [Char.ofNat u.toNat] :=
        String.toList_inj.1 (by simp)
      have hstep : decodeStep (s, none) u = (s.push (Char.ofNat u.toNat), none) := by
        simp [decodeStep, hu, hv]
      rw [hstep, hshown, hpush]

theorem ofList_shown (s : String) (n : Nat) (ns : List Nat) :
    s ++ String.ofList ((n :: ns).flatMap shownPoint) =
      s ++ String.ofList (shownPoint n) ++ String.ofList (ns.flatMap shownPoint) := by
  rw [List.flatMap_cons, String.ofList_append, String.append_assoc]

end Steps

/-- Reading goes on where no first half of a pair waits, or one does. -/
theorem finish_foldl (us : List UInt16) :
    (∀ s, finish (us.foldl decodeStep (s, none)) =
      s ++ String.ofList ((pointsAfter false us).flatMap shownPoint)) ∧
    ∀ s lead, isLead lead → finish (us.foldl decodeStep (s, some lead)) =
      s ++ String.ofList ((pointsAfter false (lead :: us)).flatMap shownPoint) := by
  -- By induction for both at once: a first half makes the next unit one of a pair.
  induction us with
  | nil =>
      refine ⟨fun s => ?_, fun s lead hlead => ?_⟩
      · simp [finish, pointsAfter]
      · rw [pointsAfter_lone hlead rfl, ofList_shown, ← replacement_eq (isSurrogate_of_isLead hlead)]
        simp [finish, pointsAfter]
  | cons u us ih =>
      have hother : ∀ s, isLead u = false → finish ((u :: us).foldl decodeStep (s, none)) =
          s ++ String.ofList ((pointsAfter false (u :: us)).flatMap shownPoint) := by
        intro s hu
        rw [List.foldl_cons, decodeStep_other hu, ih.1, pointsAfter_other hu, ofList_shown]
      refine ⟨fun s => ?_, fun s lead hlead => ?_⟩
      · cases hu : isLead u with
        | true =>
            have hstep : decodeStep (s, none) u = (s, some u) := by simp [decodeStep, hu]
            rw [List.foldl_cons, hstep]
            exact ih.2 s u hu
        | false => exact hother s hu
      · cases hv : isTrail u with
        | true =>
            have hstep : decodeStep (s, some lead) u =
                (s ++ String.ofList (shownPoint (pairValue lead u)), none) := by
              have hshown : shownPoint (pairValue lead u) = [Char.ofNat (pairValue lead u)] :=
                if_neg not_isSurrogate_pair
              have hpush : s.push (Char.ofNat (pairValue lead u)) =
                  s ++ String.ofList [Char.ofNat (pairValue lead u)] :=
                String.toList_inj.1 (by simp)
              rw [hshown, ← hpush]
              simp [decodeStep, hv]
            rw [List.foldl_cons, hstep, ih.1, pointsAfter_pair hlead hv, ofList_shown]
        | false =>
            have hfirst : trailsFirst (u :: us) = false := by simpa [trailsFirst] using hv
            rw [pointsAfter_lone hlead hfirst, ofList_shown,
              ← replacement_eq (isSurrogate_of_isLead hlead)]
            cases hu : isLead u with
            | true =>
                have hstep : decodeStep (s, some lead) u = (s ++ replacement, some u) := by
                  simp [decodeStep, hv, hu]
                rw [List.foldl_cons, hstep]
                exact ih.2 _ u hu
            | false =>
                have hstep : decodeStep (s, some lead) u = decodeStep (s ++ replacement, none) u := by
                  simp [decodeStep, hv, hu]
                rw [List.foldl_cons, hstep, ← List.foldl_cons]
                exact hother _ hu

/-- What the host reads of a text. -/
theorem toList_toHostString (t : Text) :
    t.toHostString.toList = t.codePoints.flatMap shownPoint := by
  have hread : t.toHostString = finish (t.units.toList.foldl decodeStep ("", none)) := by
    rw [Array.foldl_toList]
    rfl
  rw [hread, (finish_foldl _).1, ← codePoints_eq]
  simp

end Text

/-! ## What a decoder reads -/

namespace Utf8

variable {b : UInt8} {rest : List UInt8} {cs : List Char}

/-- The bytes of a character tell which one it is, whatever follows them. -/
theorem encode_inj {c c' : Char} {rest' : List UInt8}
    (h : String.utf8EncodeChar c ++ rest = String.utf8EncodeChar c' ++ rest') :
    c = c' ∧ rest = rest' := by
  have hdecode : ∀ (c : Char) (rest : List UInt8),
      (String.utf8EncodeChar c ++ rest).toByteArray.utf8DecodeChar? 0 = some c := by
    intro c rest
    rw [List.toByteArray_append]
    exact ByteArray.utf8DecodeChar?_utf8EncodeChar_append
  have hchar := hdecode c rest
  rw [h, hdecode c' rest'] at hchar
  obtain rfl := Option.some.inj hchar
  exact ⟨rfl, List.append_cancel_left h⟩

/-- Of two beginnings of characters the longer one is replaced. -/
theorem not_longer {bs bs' rest' : List UInt8} (h : bs ++ rest = bs' ++ rest')
    (hmost : ∀ b' ∈ rest.head?, ¬Begins (b :: bs ++ [b'])) (hbegins : bs' ≠ [] → Begins (b :: bs')) :
    bs'.length ≤ bs.length := by
  refine Nat.le_of_not_lt fun hlt => ?_
  obtain ⟨more, hmore⟩ : ∃ more, bs' = bs ++ more :=
    (List.prefix_of_prefix_length_le (List.prefix_append bs rest) (h ▸ List.prefix_append bs' rest')
      (Nat.le_of_lt hlt)).imp fun _ => Eq.symm
  subst hmore
  cases more with
  | nil => simp at hlt
  | cons b' more =>
      rw [List.append_assoc] at h
      have hrest := List.append_cancel_left h
      obtain ⟨c, hc⟩ := hbegins (by simp)
      refine hmost b' (by rw [hrest]; rfl) ⟨c, List.IsPrefix.trans ⟨more, ?_⟩ hc⟩
      simp

/-- There is only one thing to read. -/
theorem Lossy.unique {bs : List UInt8} (h : Lossy bs cs) : ∀ {cs' : List Char}, Lossy bs cs' → cs' = cs := by
  induction h with
  | nil =>
      intro cs' h'
      generalize hbs : ([] : List UInt8) = bs at h'
      cases h' with
      | nil => rfl
      | char c _ =>
          have hempty := List.append_eq_nil_iff.1 hbs.symm
          exact absurd hempty.1 String.utf8EncodeChar_ne_nil
      | replaced => cases hbs
  | @char c rest cs _ ih =>
      intro cs' h'
      generalize hbs : String.utf8EncodeChar c ++ rest = bs at h'
      cases h' with
      | nil => exact absurd (List.append_eq_nil_iff.1 hbs).1 String.utf8EncodeChar_ne_nil
      | char c' hrest =>
          obtain ⟨rfl, rfl⟩ := encode_inj hbs
          rw [ih hrest]
      | replaced hnone => exact absurd ⟨rest, hbs⟩ (hnone c)
  | @replaced b bs rest cs hnone hbegins hmost _ ih =>
      intro cs' h'
      generalize hall : b :: (bs ++ rest) = all at h'
      cases h' with
      | nil => cases hall
      | char c' _ => exact absurd ⟨_, hall.symm⟩ (hnone c')
      | @replaced b' bs' rest' cs' hnone' hbegins' hmost' hrest =>
          obtain ⟨rfl, hsplit⟩ := List.cons.inj hall
          -- Either takes as many bytes as begin a character, so neither takes more than the other.
          have hlength : bs.length = bs'.length :=
            Nat.le_antisymm (not_longer hsplit.symm hmost' hbegins) (not_longer hsplit hmost hbegins')
          obtain ⟨rfl, rfl⟩ := List.append_inj hsplit hlength
          rw [ih hrest]

/-- The bytes that follow the first one begin no character. -/
theorem first_byte {c : Char} {bs : List UInt8} (h : String.utf8EncodeChar c = b :: bs) :
    b.toNat < 0x80 ∨ 0xC0 ≤ b.toNat := by
  unfold String.utf8EncodeChar at h
  dsimp only at h
  split at h
  next => 
    rw [← (List.cons.inj h).1, UInt8.toNat_ofNat']
    omega
  next =>
    split at h
    next =>
      rw [← (List.cons.inj h).1, UInt8.toNat_ofNat']
      omega
    next =>
      split at h
      next =>
        rw [← (List.cons.inj h).1, UInt8.toNat_ofNat']
        omega
      next =>
        rw [← (List.cons.inj h).1, UInt8.toNat_ofNat']
        omega

/-- No character begins as a surrogate would. -/
theorem second_byte {c : Char} {bs : List UInt8} (h : String.utf8EncodeChar c = 0xED :: bs) :
    ∃ b' ∈ bs.head?, b'.toNat < 0xA0 := by
  have hvalid : c.val.toNat < 0xD800 ∨ 0xDFFF < c.val.toNat ∧ c.val.toNat < 0x110000 := c.valid
  unfold String.utf8EncodeChar at h
  dsimp only at h
  generalize c.val.toNat = v at h hvalid
  -- Characters of other lengths begin with another byte.
  split at h
  next =>
    have hfirst := congrArg UInt8.toNat (List.cons.inj h).1
    simp at hfirst
    omega
  next =>
    split at h
    next =>
      have hfirst := congrArg UInt8.toNat (List.cons.inj h).1
      simp at hfirst
      omega
    next =>
      split at h
      next =>
        have hfirst := congrArg UInt8.toNat (List.cons.inj h).1
        refine ⟨_, by rw [← (List.cons.inj h).2]; rfl, ?_⟩
        simp at hfirst ⊢
        omega
      next =>
        have hfirst := congrArg UInt8.toNat (List.cons.inj h).1
        simp at hfirst
        omega

/-- A byte is replaced alone if what follows it does not go on as a character would. -/
theorem Lossy.skip (h : ∀ (c : Char) (bs : List UInt8), String.utf8EncodeChar c = b :: bs →
    ∃ b' ∈ bs.head?, b' ∉ rest.head?) (hrest : Lossy rest cs) : Lossy (b :: rest) ('\uFFFD' :: cs) := by
  -- A character that began here would go on with what follows.
  have hnext : ∀ (c : Char) (bs more : List UInt8), String.utf8EncodeChar c = b :: bs →
      rest.head? = (bs ++ more).head? → False := by
    intro c bs more hc heq
    obtain ⟨b', hb', hnot⟩ := h c bs hc
    rw [heq, List.head?_append, Option.mem_def.1 hb'] at hnot
    exact hnot rfl
  refine @Lossy.replaced b [] rest cs ?_ (fun hne => absurd rfl hne) ?_ hrest
  · rintro c ⟨more, hmore⟩
    cases hc : String.utf8EncodeChar c with
    | nil => exact String.utf8EncodeChar_ne_nil hc
    | cons b₀ bs =>
        rw [hc, List.cons_append, List.nil_append] at hmore
        obtain ⟨rfl, hrest'⟩ := List.cons.inj hmore
        exact hnext c bs more hc (congrArg List.head? hrest'.symm)
  · rintro b' hb' ⟨c, more, hmore⟩
    refine hnext c (b' :: more) [] hmore.symm ?_
    rw [Option.mem_def.1 hb']
    rfl

/-- A surrogate is three bytes, each of which is replaced. -/
theorem lossy_surrogate {n : Nat} (hn : IsSurrogate n) (hrest : Lossy rest cs) :
    Lossy (pointBytes n ++ rest) (shownPoint n ++ cs) := by
  have hlow := hn.1
  have hhigh := hn.2
  have hfirst : UInt8.ofNat (0xE0 + n / 0x1000) = 0xED := by
    have hdigit : n / 0x1000 = 13 := by omega
    rw [hdigit]
    rfl
  have hfollows : ∀ {b : UInt8} {rest : List UInt8} {cs : List Char},
      0x80 ≤ b.toNat → b.toNat < 0xC0 → Lossy rest cs → Lossy (b :: rest) ('\uFFFD' :: cs) := by
    intro b rest cs hle hlt
    refine Lossy.skip fun c bs hc => ?_
    have := first_byte hc
    omega
  rw [pointBytes, if_pos hn, shownPoint, if_pos hn, hfirst]
  -- The first byte could begin a character, but not with the second behind it.
  refine Lossy.skip (fun c bs hc => ?_) (hfollows ?_ ?_ (hfollows ?_ ?_ hrest))
  · obtain ⟨b', hb', hlt⟩ := second_byte hc
    refine ⟨b', hb', fun heq => ?_⟩
    rw [← Option.some.inj heq, UInt8.toNat_ofNat'] at hlt
    omega
  all_goals
    rw [UInt8.toNat_ofNat']
    omega

/-- A decoder reads of the bytes of code points what is shown of each. -/
theorem lossy_points (ns : List Nat) : Lossy (ns.flatMap pointBytes) (ns.flatMap shownPoint) := by
  induction ns with
  | nil => exact Lossy.nil
  | cons n ns ih =>
      rw [List.flatMap_cons, List.flatMap_cons]
      by_cases hn : IsSurrogate n
      · exact lossy_surrogate hn ih
      · rw [pointBytes, if_neg hn, shownPoint, if_neg hn]
        exact Lossy.char _ ih

end Utf8

end ScriptHost
