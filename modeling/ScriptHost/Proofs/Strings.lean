import ScriptHost.Proofs.Conversions
import ScriptHost.Proofs.Reserving
import ScriptHost.Proofs.Transport
/-!
# Strings that are made and read back

A string that the host makes is read back as it was, and its length is the number of its 16-bit units.
What the host reads of any string of a script is shown unit by unit.
-/

namespace ScriptHost

open Accounting (bind_ok live_ok ask_eq)

/-! ## Lengths -/

theorem length_unitsOf (n : Nat) :
    (Text.unitsOf n).length = if n < 0x10000 then 1 else 2 := by
  unfold Text.unitsOf
  split <;> rfl

theorem size_ofString (s : String) : (Text.ofString s).size = utf16Length s := by
  rw [Text.size, ← Array.length_toList, Text.units_ofString, List.length_flatMap, utf16Length]
  simp only [length_unitsOf]

example : (Text.ofString "𝄞 clef").size = 7 := by decide

/-! ## Making a string -/

namespace Eval

variable {m : Machine} {n : Nat} {I : Interp}

theorem reserveText_room (hroom : m.HasTextRoom n) : ∃ m', reserveText n I m = .ok () m' := by
  rcases reserve_room (I := I) hroom.1 with ⟨c, hreserve⟩
  unfold reserveText
  rw [bind_of_ok hreserve, get_bind]
  cases hlimit : m.limits.memory with
  | none => exact ⟨_, rfl⟩
  | some limit =>
      dsimp only
      have hmore : (modify fun m => { m with textBytes := m.textBytes + n } : Eval Unit) I
          { m with propertyBytes := c } =
            .ok () { m with propertyBytes := c, textBytes := m.textBytes + n } := rfl
      rw [bind_of_ok hmore, get_bind]
      -- Where the count of texts runs over the limit, they are counted anew.
      by_cases hfull : m.textBytes + n > limit
      · have hcounted := (hroom.2 limit hlimit).resolve_left (Nat.not_le.2 hfull)
        have hcount : (modify countTexts : Eval Unit) I
            { m with propertyBytes := c, textBytes := m.textBytes + n } =
              .ok () { m with propertyBytes := c, textBytes := (countTexts m).textBytes } := rfl
        have hroom' : Machine.HasRoom
            { m with propertyBytes := c, textBytes := (countTexts m).textBytes }
            ((countTexts m).textBytes + n) := by
          intro limit' hlimit'
          obtain rfl := Option.some.inj (hlimit.symm.trans hlimit')
          exact .inr ((Nat.add_assoc _ _ _).symm.trans_le hcounted)
        rcases reserve_room (I := I) hroom' with ⟨c', hreserve'⟩
        rw [if_pos hfull, bind_of_ok hcount, get_bind]
        exact ⟨_, hreserve'⟩
      · rw [if_neg hfull]
        exact ⟨_, rfl⟩

theorem checkedText_room (hroom : m.HasTextRoom n) (hfits : n ≤ textLimit) (t : Unit → Text) :
    ∃ m', checkedText n t I m = .ok (.string (t ())) m' := by
  rcases reserveText_room (I := I) hroom with ⟨m', hreserve⟩
  unfold checkedText
  rw [if_neg (Nat.not_lt.2 hfits)]
  exact ⟨m', bind_of_ok hreserve⟩

end Eval

namespace Host

variable {c : ContextId}

/-- A string within the limits is made. -/
theorem newString_eq {s : Host ScriptEngine} {str : String}
    (hlive : (Contexts.entry s.contexts c).realm.isSome) (hfits : utf16Length str ≤ Eval.textLimit)
    (hroom : s.engine.machine.HasTextRoom (utf16Length str)) :
    ∃ s', newString c str s = (.ok ⟨c, .string (.ofString str)⟩, s') ∧ s'.contexts = s.contexts := by
  obtain ⟨r, hr⟩ := Option.isSome_iff_exists.1 hlive
  have hroom' : (s.engine.machine.started r).HasTextRoom (utf16Length str) := hroom
  rcases Eval.checkedText_room (I := Eval.interp Builtin.supply ScriptEngine.depthLimit) hroom' hfits
    (fun _ => Text.ofString str) with ⟨m', hmade⟩
  rcases ask_eq (.newText r str) s with ⟨s', hrun, hcontexts, -⟩
  have hcore : (ScriptEngine.core (.newText r str) s.engine).1 = .string (.ofString str) := by
    rw [← size_ofString] at hmade
    exact congrArg Prod.fst (ScriptEngine.runValue_ok hmade)
  refine ⟨s', ?_, hcontexts⟩
  unfold newString
  rw [bind_ok (live_ok hr), bind_ok hrun]
  exact congrArg (fun v : Value => (Except.ok (Handle.mk c v), s')) hcore

/-! ## Reading a string -/

theorem toText_delivers (t : Text) : Delivers c (toText ⟨c, .string t⟩) t.toHostString :=
  .asked fun r e => by
    have hread : ∀ I m, (do pure (← Eval.toText (.string t)).toHostString : Eval String) I m =
        .ok t.toHostString m := fun _ _ => rfl
    exact congrArg (orThrow c) (ScriptEngine.run_fst hread r e)

/-- The length of a string is a property of it that takes no object to be read. -/
theorem get_length_delivers (t : Text) :
    Delivers c (get ⟨c, .string t⟩ (.text "length")) ⟨c, .ofNat t.size⟩ := by
  have hname : Key.ofText (Text.ofString "length") = .name (txt "length") :=
    Key.ofText_eq_name (by decide)
  have hkey : Delivers c (newKey c "length" : Action ScriptEngine KeyHandle)
      ⟨c, .name (txt "length")⟩ :=
    .asked (q := (.keyOfText · "length")) (f := fun _ k => Pure.pure (KeyHandle.mk c k)) fun _ _ =>
      congrArg (fun k => Pure.pure (KeyHandle.mk c k)) hname
  -- A string tells its length without its prototype.
  have hread : Delivers c (getKey ⟨c, .string t⟩ (.name (txt "length"))) ⟨c, .ofNat t.size⟩ :=
    .asked fun r e => by
      have hget : ∀ I m, Eval.getOf (.string t) (.name (txt "length")) I m = .ok (.ofNat t.size) m :=
        fun I m => by
          unfold Eval.getOf
          dsimp only
          rw [if_pos (by simp)]
          rfl
      have hcore : ScriptEngine.core (.get r (.string t) (.name (txt "length"))) e =
          ScriptEngine.runValue r (Eval.getOf (.string t) (.name (txt "length"))) e := rfl
      have hreply : (ScriptEngine.core (.get r (.string t) (.name (txt "length"))) e).1 =
          .ofNat t.size := by rw [hcore, ScriptEngine.runValue_ok (hget _ _)]
      refine (congrArg (check c) hreply).trans ?_
      unfold check
      exact if_neg fun h => Value.ofInt_ne_exception t.size (eq_of_beq h)
  have hdrop : Delivers c (dropKey ⟨c, .name (txt "length")⟩) () :=
    .asked (f := fun _ _ => Pure.pure ()) fun _ _ => rfl
  exact hkey.bind (hread.ensuring hdrop)

/-- What the host reads of a string of a script are its characters, and three replacement characters
for each unpaired surrogate, as a decoder reads them that never fails.  A string that the host makes is
read back as it was, and its length is the number of its 16-bit units. -/
theorem strings_read_back {s : Host ScriptEngine} {c : ContextId}
    (hlive : (Contexts.entry s.contexts c).realm.isSome) :
    (∀ t : Text, ∃ read, Delivers c (toText ⟨c, .string t⟩) read ∧
      read.toList = t.codePoints.flatMap shownPoint ∧
      ∀ cs, Utf8.Lossy t.bytes cs ↔ cs = read.toList) ∧
    ∀ str : String, utf16Length str ≤ Eval.textLimit →
      s.engine.machine.HasTextRoom (utf16Length str) →
      ∃ h s', newString c str s = (.ok h, s') ∧ s'.contexts = s.contexts ∧
        Delivers c (toText h) str ∧
        ∃ length n, Delivers c (get h (.text "length")) length ∧
          Delivers c (toInt64 length) n ∧ n.toInt = utf16Length str := by
  refine ⟨fun t => ?_, fun str hfits hroom => ?_⟩
  · have hread := Text.toList_toHostString t
    have hlossy : Utf8.Lossy t.bytes t.toHostString.toList :=
      hread ▸ Utf8.lossy_points t.codePoints
    exact ⟨_, toText_delivers t, hread, fun cs => ⟨fun h => hlossy.unique h, fun h => h ▸ hlossy⟩⟩
  · rcases newString_eq hlive hfits hroom with ⟨s', hmade, hcontexts⟩
    have hread := toText_delivers (c := c) (.ofString str)
    have hnumber := Value.ofInt_isNumber (Text.ofString str).size
    rw [Text.toHostString_ofString] at hread
    have hlimit : Eval.textLimit < 2 ^ 30 := by decide
    -- The length fits into 53 bits, so the number that holds it is the length.
    have hpart : Binary.integerPart (Binary.ofInt (Text.ofString str).size).toBits =
        utf16Length str := by
      rw [size_ofString, Binary.integerPart_ofInt (by omega), Binary.nearest_small (by omega)]
    refine ⟨_, s', hmade, hcontexts, hread, _, _, get_length_delivers _, toInt64_delivers hnumber, ?_⟩
    rw [hpart]
    exact Binary.toInt64_of_range (by omega) (by omega)

/-- A string with a character beyond 16 bits and one that is zero. -/
theorem strings_read_back_astral : (Contexts.entry smallHost.contexts 0).realm.isSome ∧
    utf16Length "\x00𝄞" ≤ Eval.textLimit ∧ smallHost.engine.machine.HasTextRoom (utf16Length "\x00𝄞") ∧
    ∃ h s', newString 0 "\x00𝄞" smallHost = (.ok h, s') ∧ Delivers 0 (toText h) "\x00𝄞" ∧
      ∃ length n, Delivers 0 (get h (.text "length")) length ∧ Delivers 0 (toInt64 length) n ∧
        n.toInt = 3 := by
  have hlive : (Contexts.entry smallHost.contexts 0).realm.isSome := rfl
  have hlength : utf16Length "\x00𝄞" = 3 := rfl
  have hfits : utf16Length "\x00𝄞" ≤ Eval.textLimit := by decide
  have hunlimited : smallHost.engine.machine.limits.memory = none := rfl
  have hroom : smallHost.engine.machine.HasTextRoom (utf16Length "\x00𝄞") := by
    refine ⟨fun limit hlimit => ?_, fun limit hlimit => ?_⟩ <;> cases hunlimited ▸ hlimit
  rcases (strings_read_back hlive).2 _ hfits hroom with
    ⟨h, s', hmade, -, hread, length, n, hget, hn, hsize⟩
  exact ⟨hlive, hfits, hroom, h, s', hmade, hread, length, n, hget, hn, by rw [hsize, hlength]; rfl⟩

end Host

end ScriptHost
