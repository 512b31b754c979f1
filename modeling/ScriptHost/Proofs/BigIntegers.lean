import ScriptHost.Proofs.Conversions
import ScriptHost.Proofs.Scripts
import ScriptHost.Proofs.SpareKeys
/-!
# Big integers that are made and read back

A big integer is made of 64 bits, or by running its literal as a script.  Running it takes a realm that
evaluates scripts and room for a call, and where it takes more than there is no big integer is made.
However it was made, a big integer is read back as it was; of any other value none is read.
-/

namespace ScriptHost

open Accounting (bind_ok bind_error live_ok ask_eq)

/-! ## Decimal numerals -/

namespace Host

variable {σ : Type} [Engine σ] {c : ContextId} {v : Value} {n : ℤ}

theorem natural_toDigits (n : ℕ) : ofDecimal?.natural? (Nat.toDigits 10 n) = some n := by
  have hdigits : (Nat.toDigits 10 n).all Char.isDigit = true :=
    List.all_eq_true.2 fun c hc => Key.isDigit_toDigits hc
  have hvalue : (Nat.toDigits 10 n).foldl (fun n c => n * 10 + (c.toNat - 48)) 0 = n := by
    refine Eq.trans ?_ (Numeral.ofDigits_toDigits n)
    refine List.foldl_ext _ _ _ fun v c hc => ?_
    rw [Numeral.digitValue_digit (Key.isDigit_toDigits hc)]
  unfold ofDecimal?.natural?
  rw [hdigits, hvalue, if_pos (by simp)]

/-- An integer is read off its decimal numeral. -/
theorem ofDecimal_toString (n : ℤ) : ofDecimal? (toString n) = some n := by
  unfold ofDecimal?
  rw [Numeral.toList_toString]
  by_cases hneg : n < 0
  · rw [if_pos hneg]
    simp only [List.singleton_append, natural_toDigits]
    have hvalue : -(n.natAbs : ℤ) = n := by rw [Int.ofNat_natAbs_of_nonpos hneg.le, neg_neg]
    exact congrArg some hvalue
  · rw [if_neg hneg, List.nil_append]
    split
    next ds hminus =>
      have hdigit : ('-').isDigit := Key.isDigit_toDigits (hminus ▸ List.mem_cons_self)
      exact absurd hdigit (by decide)
    next =>
      rw [natural_toDigits]
      exact congrArg some (Int.natAbs_of_nonneg (Int.not_lt.1 hneg))

example : ofDecimal? "-18446744073709551617" = some (-(2 ^ 64 + 1)) := by decide

/-! ## Reading a big integer -/

/-- What a handle says of the big integer that it stands for. -/
structure HoldsBig (c : ContextId) (h : Handle) (n : ℤ) : Prop where
  isBig : isBigInt h
  whole : Delivers c (toBigInt h) n
  text : Delivers c (toText h) (toString n)
  low : ∃ w : Int64, Delivers c (toBigInt64 h) w ∧ w.toInt = n.bmod (2 ^ 64)

theorem bigint_holdsBig (n : ℤ) : HoldsBig c ⟨c, .bigint n⟩ n := by
  have htext : Delivers c (toText ⟨c, .bigint n⟩) (toString n) :=
    .asked fun r e => by
      have hread : ∀ I m, (do pure (← Eval.toText (.bigint n)).toHostString : Eval String) I m =
          .ok (Text.ofString (toString n)).toHostString m := fun _ _ => rfl
      have hreply := ScriptEngine.run_fst hread r e
      rw [Text.toHostString_ofString] at hreply
      exact congrArg (orThrow c) hreply
  have hlow : Delivers c (toBigInt64 ⟨c, .bigint n⟩) (Int64.ofInt (Int.bmod n (twoTo 64))) :=
    .asked fun r e => by
      have hread : ∀ I m, (do
          pure (Int64.ofInt (Int.bmod (← Eval.toBigInt (.bigint n)) (twoTo 64))) : Eval Int64) I m =
          .ok (Int64.ofInt (Int.bmod n (twoTo 64))) m := fun _ _ => rfl
      exact congrArg (orThrow c) (ScriptEngine.run_fst hread r e)
  refine ⟨rfl, ?_, htext, _, hlow, ?_⟩
  · refine htext.bind ?_
    rw [readDecimal, ofDecimal_toString]
    exact .pure
  · rw [Int64.toInt_ofInt]
    exact Int.bmod_bmod

/-! ## Making a big integer -/

/-- A context in which scripts can be evaluated: its realm has what evaluates them, the stack has room
for a call, and no zero byte stands in the name of the file that they are run under. -/
structure CanEvaluate (s : Host ScriptEngine) (c : ContextId) : Prop where
  supported : ∃ r, (Contexts.entry s.contexts c).realm = some r ∧
    (s.engine.machine.realms[r]?.getD {}).hasEval
  room : ∀ limit ∈ s.engine.machine.limits.stack, Eval.stackBytes ⟨.undefined, none, {}⟩ ≤ limit
  file : zeroByte? s.settings.evalFilename = none

/-- With room for a call, a request that needs it goes on. -/
theorem needsRoom_ok {m : Machine} {I : Interp}
    (hroom : ∀ limit ∈ m.limits.stack, Eval.stackBytes ⟨.undefined, none, {}⟩ ≤ limit) :
    ScriptEngine.needsRoom I m = .ok () m := by
  rw [ScriptEngine.needsRoom, Eval.get_bind]
  cases hlimit : m.limits.stack with
  | none => rfl
  | some limit =>
      exact congrArg (fun x : Eval Unit => x I m) (if_neg (Nat.not_lt.2 (hroom limit hlimit)))

theorem needsRoom_error {m : Machine} {I : Interp} {limit : ℕ} (hlimit : m.limits.stack = some limit)
    (htight : limit < Eval.stackBytes ⟨.undefined, none, {}⟩) :
    ScriptEngine.needsRoom I m = .error (.object m.heap.size)
      (Eval.raised m .range (txt "Maximum call stack size exceeded")) := by
  rw [ScriptEngine.needsRoom, Eval.get_bind, hlimit]
  exact (congrArg (fun x : Eval Unit => x I m) (if_pos htight)).trans (Eval.raise_eq ..)

/-- A realm that evaluates no scripts throws. -/
theorem evaluateSource_refused {m : Machine} {I : Interp} (file : String) (text : Text)
    (heval : m.currentRealm.hasEval = false) :
    Eval.evaluateSource file .script text I m =
      .error (.object m.heap.size) (Eval.raised m .type (txt "eval is not supported")) := by
  rw [Eval.evaluateSource, Eval.get_bind, heval]
  exact Eval.bind_of_error (Eval.raise_eq ..)

/-- What is thrown is what the script would need: room for a call, or else the evaluator. -/
theorem evaluation_throws {m : Machine} {I : Interp} {file : String} {text : Text}
    (h : (∀ limit ∈ m.limits.stack, Eval.stackBytes ⟨.undefined, none, {}⟩ ≤ limit) →
      m.currentRealm.hasEval = false) :
    ∃ v m₁, (do
      ScriptEngine.needsRoom
      Eval.evaluateSource file .script text) I m = .error v m₁ := by
  by_cases hroom : ∀ limit ∈ m.limits.stack, Eval.stackBytes ⟨.undefined, none, {}⟩ ≤ limit
  · exact ⟨_, _, (Eval.bind_of_ok (needsRoom_ok hroom)).trans (evaluateSource_refused _ _ (h hroom))⟩
  · push Not at hroom
    obtain ⟨limit, hlimit, htight⟩ := hroom
    exact ⟨_, _, Eval.bind_of_error (needsRoom_error hlimit htight)⟩

omit [Engine σ] in
theorem realmToRun_ok {s : Host σ} {r : RealmId} (hr : (Contexts.entry s.contexts c).realm = some r) :
    realmToRun c s = (.ok r, s) := by
  rw [realmToRun, bind_ok (Accounting.context_ok c s), hr]
  rfl

/-- A big integer is what the engine makes of its literal. -/
theorem newBigInt_eq {s : Host σ} {r : RealmId} (hr : (Contexts.entry s.contexts c).realm = some r)
    (hfile : zeroByte? s.settings.evalFilename = none) (n : ℤ) :
    ∃ s', s'.contexts = s.contexts ∧ newBigInt c n s =
      check c (Engine.answer (.evaluate r (toString n ++ "n") s.settings.evalFilename .script)
        s.engine).reply s' := by
  rcases ask_eq (.evaluate r (toString n ++ "n") s.settings.evalFilename .script) s with
    ⟨s', hask, hcontexts, -⟩
  have hsettings : (getThe (Host σ) : Action σ (Host σ)) s = (.ok s, s) := rfl
  refine ⟨s', hcontexts, ?_⟩
  unfold newBigInt eval
  rw [bind_ok hsettings, evalWith, bind_ok (realmToRun_ok hr), hfile]
  dsimp only
  rw [bind_ok hask]

/-- A literal is evaluated to its integer. -/
theorem newBigInt_ok {s : Host ScriptEngine} (h : s.CanEvaluate c) (n : ℤ) :
    ∃ s', newBigInt c n s = (.ok ⟨c, .bigint n⟩, s') ∧ s'.contexts = s.contexts := by
  obtain ⟨r, hr, heval⟩ := h.supported
  have hroom : Eval.RoomToCall (s.engine.machine.started r) := fun limit hlimit =>
    (Nat.zero_add _).trans_le (h.room limit hlimit)
  have hliteral : (do
        ScriptEngine.needsRoom
        Eval.evaluateSource s.settings.evalFilename .script (Text.ofString (toString n ++ "n")))
      (Eval.interp Builtin.supply ScriptEngine.depthLimit) (s.engine.machine.started r) =
        .ok (.bigint n) (s.engine.machine.started r) :=
    (Eval.bind_of_ok (needsRoom_ok (m := s.engine.machine.started r) h.room)).trans
      (Eval.evaluateSource_literal (m := s.engine.machine.started r) _ n heval hroom 9999)
  have hreply : (Engine.answer (.evaluate r (toString n ++ "n") s.settings.evalFilename .script)
      s.engine).reply = .bigint n := congrArg Prod.fst (ScriptEngine.runValue_ok hliteral)
  rcases newBigInt_eq hr h.file n with ⟨s', hcontexts, hnew⟩
  refine ⟨s', hnew.trans ?_, hcontexts⟩
  rw [hreply]
  rfl

/-- Where scripts cannot be evaluated no big integer is made of a literal. -/
theorem newBigInt_fails {s : Host ScriptEngine} (hlive : (Contexts.entry s.contexts c).realm.isSome)
    (h : ¬s.CanEvaluate c) (n : ℤ) : ∀ a, (newBigInt c n s).1 ≠ .ok a := by
  obtain ⟨r, hr⟩ := Option.isSome_iff_exists.1 hlive
  intro a hok
  cases hfile : zeroByte? s.settings.evalFilename with
  | some i =>
      have hsettings : (getThe (Host ScriptEngine) : Action ScriptEngine _) s = (.ok s, s) := rfl
      unfold newBigInt eval at hok
      rw [bind_ok hsettings, evalWith, bind_ok (realmToRun_ok hr), hfile] at hok
      cases hok
  | none =>
      have hscript := @evaluation_throws (s.engine.machine.started r)
        (Eval.interp Builtin.supply ScriptEngine.depthLimit) s.settings.evalFilename
        (Text.ofString (toString n ++ "n")) fun hroom => eq_false_of_ne_true fun heval =>
          h ⟨⟨r, hr, heval⟩, hroom, hfile⟩
      obtain ⟨v, m, hthrown⟩ := hscript
      rcases newBigInt_eq hr hfile n with ⟨s', -, hnew⟩
      have hreply : (Engine.answer (.evaluate r (toString n ++ "n") s.settings.evalFilename .script)
          s.engine).reply = .exception :=
        congrArg Prod.fst (ScriptEngine.runValue_error hthrown)
      rw [hnew, hreply] at hok
      obtain ⟨_, _, -, hfail⟩ := Accounting.bind_inv hok
      cases hfail

/-- A big integer is made of 64 bits without a script. -/
theorem newBig_ok {s : Host ScriptEngine} (hlive : (Contexts.entry s.contexts c).realm.isSome) (n : ℤ) :
    ∃ s', (do pure ⟨c, ← ask (.newBig (← live c) n)⟩ : Action ScriptEngine Handle) s =
      (.ok ⟨c, .bigint n⟩, s') ∧ s'.contexts = s.contexts := by
  obtain ⟨r, hr⟩ := Option.isSome_iff_exists.1 hlive
  rcases ask_eq (.newBig r n) s with ⟨s', hask, hcontexts, -⟩
  exact ⟨s', (bind_ok (live_ok hr)).trans (bind_ok hask), hcontexts⟩

/-! ## Values that are no big integers -/

/-- From an engine to another no script is run: the engine was asked nothing, or only whether a value
can be called, and what it can do is as before. -/
structure RunsNothing (v : Value) (e e' : ScriptEngine) : Prop where
  asked : e' = e ∨ ∃ r, e' = (Engine.answer (.isFunction r v) e).state
  rested : e' = e ∨ e' = e.rested

theorem RunsNothing.refl (e : ScriptEngine) : RunsNothing v e e := ⟨.inl rfl, .inl rfl⟩

theorem RunsNothing.isFunction (r : RealmId) (e : ScriptEngine) :
    RunsNothing v e (Engine.answer (.isFunction r v) e).state := by
  have hidle : ScriptEngine.tidy (.isFunction r v) (e.machine.callable v) e = e :=
    ScriptEngine.tidy_idle (q := .isFunction r v) ⟨nofun, nofun⟩ rfl
  exact ⟨.inr ⟨r, rfl⟩, .inr (congrArg ScriptEngine.rested hidle)⟩

/-- The word for the type of a value is found without a script. -/
theorem typeName_quiet {s : Host ScriptEngine} (hlive : (Contexts.entry s.contexts c).realm.isSome)
    (v : Value) : ∃ name s', typeName ⟨c, v⟩ s = (.ok name, s') ∧ RunsNothing v s.engine s'.engine := by
  cases v with
  | object id =>
      obtain ⟨r, hr⟩ := Option.isSome_iff_exists.1 hlive
      rcases ask_eq (.isFunction r (.object id)) s with ⟨s', hask, -, hengine, -⟩
      have hfunction : isFunction ⟨c, .object id⟩ s =
          (.ok (s.engine.machine.callable (.object id)), s') := (bind_ok (live_ok hr)).trans hask
      exact ⟨_, s', bind_ok hfunction, hengine ▸ .isFunction r s.engine⟩
  | _ => exact ⟨_, s, rfl, .refl _⟩

/-- Of what is no big integer none is read, and the failure names its type. -/
theorem toBigInt_refused {s : Host ScriptEngine} (hlive : (Contexts.entry s.contexts c).realm.isSome)
    (hv : isBigInt ⟨c, v⟩ = false) : ∃ name s', typeName ⟨c, v⟩ s = (.ok name, s') ∧
      toBigInt ⟨c, v⟩ s = (.error (.failed (.wrongType "bigint" name)), s') ∧
      RunsNothing v s.engine s'.engine := by
  rcases typeName_quiet hlive v with ⟨name, s', hname, hruns⟩
  refine ⟨name, s', hname, ?_, hruns⟩
  unfold toBigInt
  rw [hv]
  exact bind_ok hname

/-! ## Making and reading -/

/-- A big integer of any size, made where scripts can be evaluated, is read back as it was: as an
integer, as its decimal numeral, and modulo `2 ^ 64`.  So is one that is made of 64 bits, wherever it is
made.  Of what is no big integer none is read, and no script is run to tell. -/
theorem big_integers_read_back {s : Host ScriptEngine} {c : ContextId}
    (hlive : (Contexts.entry s.contexts c).realm.isSome) :
    (s.CanEvaluate c → ∀ n : ℤ, ∃ h s', newBigInt c n s = (.ok h, s') ∧
      s'.contexts = s.contexts ∧ HoldsBig c h n) ∧
    (∀ w : Int64, ∃ h s', newBigInt64 c w s = (.ok h, s') ∧
      s'.contexts = s.contexts ∧ HoldsBig c h w.toInt) ∧
    (∀ w : UInt64, ∃ h s', newBigUInt64 c w s = (.ok h, s') ∧
      s'.contexts = s.contexts ∧ HoldsBig c h w.toNat) ∧
    ∀ v, isBigInt ⟨c, v⟩ = false → ∃ name s', typeName ⟨c, v⟩ s = (.ok name, s') ∧
      toBigInt ⟨c, v⟩ s = (.error (.failed (.wrongType "bigint" name)), s') ∧
      RunsNothing v s.engine s'.engine := by
  refine ⟨fun h n => ?_, fun w => ?_, fun w => ?_, fun v => toBigInt_refused hlive⟩
  · rcases newBigInt_ok h n with ⟨s', hnew, hcontexts⟩
    exact ⟨_, s', hnew, hcontexts, bigint_holdsBig n⟩
  · rcases newBig_ok hlive w.toInt with ⟨s', hnew, hcontexts⟩
    exact ⟨_, s', hnew, hcontexts, bigint_holdsBig _⟩
  · rcases newBig_ok hlive w.toNat with ⟨s', hnew, hcontexts⟩
    exact ⟨_, s', hnew, hcontexts, bigint_holdsBig _⟩

/-- The small host with a realm that evaluates scripts. -/
def evaluatingHost : Host ScriptEngine :=
  { smallHost with engine :=
    { smallHost.engine with machine :=
      { smallHost.engine.machine with realms := #[{ hasEval := true }] } } }

/-- A negative integer beyond 64 bits is read back as it was. -/
theorem big_integers_read_back_negative :
    (Contexts.entry evaluatingHost.contexts 0).realm.isSome ∧ evaluatingHost.CanEvaluate 0 ∧
      isBigInt ⟨0, .null⟩ = false ∧
      ∃ h s', newBigInt 0 (-(2 ^ 64 + 1)) evaluatingHost = (.ok h, s') ∧
        Delivers 0 (toBigInt h) (-(2 ^ 64 + 1)) := by
  have hlive : (Contexts.entry evaluatingHost.contexts 0).realm.isSome := rfl
  have hroom : ∀ limit ∈ evaluatingHost.engine.machine.limits.stack,
      Eval.stackBytes ⟨.undefined, none, {}⟩ ≤ limit := by decide
  have hcan : evaluatingHost.CanEvaluate 0 := ⟨⟨0, rfl, rfl⟩, hroom, rfl⟩
  rcases (big_integers_read_back hlive).1 hcan (-(2 ^ 64 + 1)) with ⟨h, s', hnew, -, hbig⟩
  exact ⟨hlive, hcan, rfl, h, s', hnew, hbig.whole⟩

/-- The same host with next to no stack. -/
def shallowHost : Host ScriptEngine :=
  { evaluatingHost with engine :=
    { evaluatingHost.engine with machine :=
      { evaluatingHost.engine.machine with limits := { stack := some 1 } } } }

/-- No big integer is made of a literal where the realm evaluates no scripts, nor where the stack has no
room for a call. -/
theorem literals_not_evaluated :
    (Contexts.entry smallHost.contexts 0).realm.isSome ∧
      zeroByte? smallHost.settings.evalFilename = none ∧
      (∀ a, (newBigInt 0 5 smallHost).1 ≠ .ok a) ∧
    (Contexts.entry shallowHost.contexts 0).realm.isSome ∧
      zeroByte? shallowHost.settings.evalFilename = none ∧
      ∀ a, (newBigInt 0 5 shallowHost).1 ≠ .ok a := by
  have hsmall : ¬smallHost.CanEvaluate 0 := by
    rintro ⟨⟨r, hr, heval⟩, -, -⟩
    cases hr
    exact absurd heval (by decide)
  have htight : ¬shallowHost.CanEvaluate 0 := fun h => absurd (h.room 1 rfl) (by decide)
  exact ⟨rfl, rfl, newBigInt_fails rfl hsmall 5, rfl, rfl, newBigInt_fails rfl htight 5⟩

end Host

end ScriptHost
