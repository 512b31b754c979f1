import ScriptHost.Proofs.Lexing
import ScriptHost.Script.Statement
/-!
# Scripts that are the literal of a big integer

How the grammar takes a script that is nothing but the literal of a big integer, with a minus sign in
front of it or without one.
-/

namespace ScriptHost

namespace Script

variable {t : Text} {s s' : ParseState} {k : Token}

namespace Parse

/-- The next token is a certain one, and reading it changes nothing else that rules go by. -/
structure Reads (t : Text) (s : ParseState) (k : Token) (s' : ParseState) : Prop where
  next : next t s = .ok ((), s')
  tok : s'.cur.tok = k
  scope : s'.scope = s.scope
  topAwait : s'.topAwait = s.topAwait

theorem get_eq : (get : Parse ParseState) t s = .ok (s, s) := rfl

theorem read_eq : (read : Parse Text) t s = .ok (t, s) := rfl

/-- What the lexer reads next is the next token. -/
theorem reads_of_token {lf : Bool} {start : Nat} {lex : LexState}
    (h : Lex.token s.scope.strict (!s.scope.isModule) t s.lex = .ok ((k, lf, start), lex)) :
    ∃ s', Reads t s k s' ∧ s'.lex = lex := by
  have hread : lexing (Lex.token s.scope.strict !s.scope.isModule) t s =
      .ok ((k, lf, start), { s with lex := lex }) := by
    rw [lexing, reader_bind get_eq, reader_bind read_eq, h]
    rfl
  refine ⟨{ s with
    lex := lex, prev := s.cur, prevStop := s.lex.pos
    cur := ⟨k, lf, start, lex.line, lex.mark, lex.lineStart⟩ }, ⟨?_, rfl, rfl, rfl⟩, rfl⟩
  rw [next, reader_bind get_eq, reader_bind hread]
  rfl

/-- The numeral of a big integer is the last token. -/
theorem reads_big {n : Nat} (h : t.since s.lex.pos = Lex.bigUnits n) :
    ∃ s₁ s₂, Reads t s (.number (.bigint n)) s₁ ∧ Reads t s₁ .eof s₂ := by
  obtain ⟨s₁, hnumber, hlex⟩ := reads_of_token (Lex.token_big _ _ h)
  have hend : t.since s₁.lex.pos = [] := by
    rw [hlex]
    exact Text.size_le_iff.1 (Nat.le_refl _)
  obtain ⟨s₂, heof, -⟩ := reads_of_token (Lex.token_end s₁.scope.strict (!s₁.scope.isModule) hend)
  exact ⟨s₁, s₂, hnumber, heof⟩

/-- A minus sign may stand in front of it. -/
theorem reads_minus {n : Nat} (h : t.since s.lex.pos = 45 :: Lex.bigUnits n) :
    ∃ s₁, Reads t s (.punct "-") s₁ ∧ t.since s₁.lex.pos = Lex.bigUnits n := by
  obtain ⟨s₁, hminus, hlex⟩ := reads_of_token (Lex.token_minus _ _ h)
  refine ⟨s₁, hminus, ?_⟩
  rw [hlex]
  exact Text.since_succ h

/-! ## At the end of the text -/

section End

variable (hend : s.cur.tok = .eof)
include hend

theorem tok_end : tok t s = .ok (.eof, s) := by
  rw [tok, reader_bind get_eq, hend]
  rfl

theorem isMark_end (m : String) : isMark m t s = .ok (false, s) := by
  rw [isMark, reader_bind (tok_end hend)]
  rfl

theorem takeMark_end (m : String) : takeMark m t s = .ok (false, s) := by
  rw [takeMark, reader_bind (isMark_end hend m)]
  rfl

theorem endStatement_end : endStatement t s = .ok ((), s) := by
  rw [endStatement, reader_bind get_eq, hend]
  rfl

end End

end Parse

namespace Grammar

open Parse

/-! ## Loops -/

section Loops

variable {σ ρ : Type} {step : σ → Parse (σ ⊕ ρ)} {a a' : σ} {r : ρ} {s₁ : ParseState}

/-- A loop whose first step gives a result. -/
theorem looping_done (h : step a t s = .ok (.inr r, s')) : looping a step t s = .ok (r, s') := by
  have hbound : bound t s = .ok (t.size + 2, s) := rfl
  rw [looping, reader_bind hbound, repeatUntil, reader_bind h]
  rfl

/-- A loop whose second step gives a result. -/
theorem looping_twice (h : step a t s = .ok (.inl a', s₁)) (h' : step a' t s₁ = .ok (.inr r, s')) :
    looping a step t s = .ok (r, s') := by
  have hbound : bound t s = .ok (t.size + 2, s) := rfl
  rw [looping, reader_bind hbound, repeatUntil, reader_bind h]
  dsimp only
  rw [repeatUntil, reader_bind h']
  rfl

end Loops

/-! ## An operand and nothing else -/

section Operand

variable {R : Rules} {e : Expr}

theorem primary_number {v : Value} (htok : s.cur.tok = .number v) (h : Reads t s k s') :
    primary R t s = .ok (.value v, s') := by
  rw [primary, reader_bind get_eq]
  dsimp only
  rw [htok]
  dsimp only
  rw [reader_bind h.next]
  rfl

variable (hend : s.cur.tok = .eof)
include hend

/-- Nothing follows an expression at the end of the text. -/
theorem postfixRest_end (calls : Bool) : postfixRest R calls e t s = .ok (e, s) := by
  rw [postfixRest, reader_bind (a := (e, false)) (u := s) (looping_done ?_)]
  · rfl
  · dsimp only
    rw [reader_bind (tok_end hend)]
    rfl

theorem exponent_end (power : PowerRule) : unaryRule.exponent R power e t s = .ok (e, s) := by
  unfold unaryRule.exponent
  split
  next => rfl
  next =>
    rw [reader_bind (isMark_end hend "**")]
    rfl

end Operand

section Number

variable {R : Rules} {v : Value} (htok : s.cur.tok = .number v) (h : Reads t s .eof s')
include htok h

theorem postfixed_number : postfixed R t s = .ok (.value v, s') := by
  rw [postfixed, reader_bind (primary_number htok h), reader_bind (postfixRest_end h.tok true),
    reader_bind get_eq, h.tok]
  rfl

theorem unaryRule_number (power : PowerRule) : unaryRule R power t s = .ok (.value v, s') := by
  have htok' : tok t s = .ok (.number v, s) := by
    rw [tok, reader_bind get_eq, htok]
    rfl
  have hop : unaryOp? (.number v) = none := rfl
  rw [unaryRule, reader_bind htok', hop]
  dsimp only
  rw [reader_bind (postfixed_number htok h)]
  exact exponent_end h.tok power

end Number

/-- A minus sign in front of a number. -/
theorem unaryRule_minus {s₁ : ParseState} {v : Value} {depth : Nat} (htok : s.cur.tok = .punct "-")
    (h : Reads t s (.number v) s₁) (h₁ : Reads t s₁ .eof s') (power : PowerRule) :
    unaryRule (rules (depth + 1)) power t s = .ok (.unary .minus (.value v), s') := by
  have htok' : tok t s = .ok (.punct "-", s) := by
    rw [tok, reader_bind get_eq, htok]
    rfl
  have hoperand : (rules (depth + 1)).unary .forbidden t s₁ = .ok (.value v, s') :=
    unaryRule_number h.tok h₁ .forbidden
  have hop : unaryOp? (.punct "-") = some .minus := rfl
  rw [unaryRule, reader_bind htok', hop]
  dsimp only
  rw [reader_bind h.next, reader_bind hoperand]
  rfl

/-- Tokens with which the literal of a big integer begins. -/
inductive StartsLiteral : Token → Prop
  | number (v : Value) : StartsLiteral (.number v)
  | minus : StartsLiteral (.punct "-")

/-! ## An expression and nothing else -/

section Alone

variable {R : Rules} {e : Expr} {allowIn : Bool} (hend : s'.cur.tok = .eof)
  (h : unaryRule R .allowed t s = .ok (e, s'))
include hend h

theorem binaryLevel_alone (levels : List (List (String × BinaryOp))) :
    binaryLevel R allowIn levels t s = .ok (e, s') := by
  induction levels with
  | nil => exact h
  | cons level tighter ih =>
      rw [binaryLevel, reader_bind ih]
      refine looping_done ?_
      rw [reader_bind (tok_end hend)]
      rfl

theorem andLevel_alone : andLevel R allowIn t s = .ok (e, s') := by
  rw [andLevel, reader_bind (binaryLevel_alone hend h levels)]
  refine looping_done ?_
  rw [reader_bind (takeMark_end hend "&&")]
  rfl

theorem orLevel_alone : orLevel R allowIn t s = .ok (e, s') := by
  rw [orLevel, reader_bind (andLevel_alone hend h)]
  refine looping_done ?_
  rw [reader_bind (takeMark_end hend "||")]
  rfl

theorem coalesceLevel_alone : coalesceLevel R allowIn t s = .ok (e, s') := by
  rw [coalesceLevel, reader_bind (orLevel_alone hend h), reader_bind (isMark_end hend "??")]
  refine looping_done ?_
  rw [reader_bind (takeMark_end hend "??")]
  rfl

theorem condLevel_alone : condLevel R allowIn t s = .ok (e, s') := by
  rw [condLevel, reader_bind (coalesceLevel_alone hend h), reader_bind (takeMark_end hend "?")]
  rfl

variable (hstart : StartsLiteral s.cur.tok)
include hstart

theorem assignRule_alone : assignRule R allowIn t s = .ok (e, s') := by
  have hcond : condLevel R allowIn t s = .ok (e, s') := condLevel_alone hend h
  rw [assignRule, reader_bind get_eq]
  generalize s.cur.tok = k at hstart
  cases hstart
  all_goals
    change (condLevel R allowIn >>= _) t s = _
    rw [reader_bind hcond, reader_bind (tok_end hend)]
    rfl

end Alone

/-! ## A script and nothing else -/

section Script

variable {e : Expr} {depth : Nat} (hend : s'.cur.tok = .eof)
  (h : unaryRule (rules depth) .allowed t s = .ok (e, s')) (hstart : StartsLiteral s.cur.tok)
include hend h hstart

theorem expression_alone (allowIn : Bool) :
    expression (rules (depth + 1)) allowIn t s = .ok (e, s') := by
  have hassign : (rules (depth + 1)).assign allowIn t s = .ok (e, s') :=
    assignRule_alone hend h hstart
  rw [expression, reader_bind hassign]
  refine looping_done ?_
  rw [reader_bind (takeMark_end hend ",")]
  rfl

/-- The statement that is an expression and nothing else. -/
theorem stmtRule_alone (declaration : Bool) :
    stmtRule (rules (depth + 1)) declaration t s = .ok (.expr e, s') := by
  have hstatement : expressionStatement (rules (depth + 1)) t s = .ok (.expr e, s') := by
    rw [expressionStatement, reader_bind (expression_alone hend h hstart true),
      reader_bind (endStatement_end hend)]
    rfl
  rw [stmtRule, reader_bind get_eq]
  generalize s.cur.tok = k at hstart
  cases hstart
  all_goals exact hstatement

omit hend h in
/-- A script that begins with a literal asks for no strict rules. -/
theorem strictDirective_literal : strictDirective t s = .ok (false, s) := by
  rw [strictDirective, lookahead, reader_bind get_eq]
  rw [reader_bind (a := false) (u := s)]
  · rfl
  · rw [reader_bind read_eq]
    refine looping_done ?_
    rw [reader_bind get_eq]
    generalize s.cur.tok = k at hstart
    cases hstart <;> rfl

end Script

section Program

variable {scope : Scope} {s₁ : ParseState} {e : Expr} {depth : Nat}

/-- A script that is an expression and nothing else. -/
theorem program_literal (hdepth : depthLimit = depth + 2) (hscript : scope.isModule = false)
    (hfirst : t.at' 0 ≠ 35)
    (hnext : Reads t { scope := scope } k s₁) (hstart : StartsLiteral k)
    (h : unaryRule (rules depth) .allowed t s₁ = .ok (e, s')) (hend : s'.cur.tok = .eof)
    (hscope : s'.scope = s₁.scope) (hwait : s'.topAwait = s₁.topAwait) :
    program scope t {} =
      .ok ({ body := [.expr e], strict := scope.strict, isModule := false }, s') := by
  have hstart₁ : StartsLiteral s₁.cur.tok := hnext.tok ▸ hstart
  have hbegin : (t.at' 0 == 35 && t.at' 1 == 33) = false := by simp [hfirst]
  have hset : (modify fun s => { s with scope := scope } : Parse Unit) t {} =
      .ok ((), { scope := scope }) := rfl
  have htok : tok t s₁ = .ok (k, s₁) := by
    rw [tok, reader_bind get_eq, hnext.tok]
    rfl
  have hstatement : outerStatement (rules (depth + 2)) false t s₁ = .ok (.expr e, s') :=
    stmtRule_alone hend h hstart₁ true
  rw [program, reader_bind hset, reader_bind read_eq, hbegin, if_neg Bool.false_ne_true]
  dsimp only
  -- The first statement is the literal, and the end of the text is met before a second one.
  rw [reader_bind hnext.next, reader_bind (strictDirective_literal hstart₁), hscript, hdepth]
  rw [if_neg Bool.false_ne_true,
    reader_bind (@looping_twice t s₁ s' _ _ _ [] [.expr e] [.expr e] s' ?_ ?_), reader_bind get_eq,
    hscope, hwait, hnext.scope, hnext.topAwait]
  · rfl
  · rw [reader_bind htok]
    cases hstart
    all_goals
      change (outerStatement (rules (depth + 2)) false >>= _) t s₁ = _
      rw [reader_bind hstatement]
      rfl
  · rw [reader_bind (tok_end hend)]
    rfl

/-- The literal of an integer: that of its amount, with a minus sign in front of it if it is negative. -/
def literal : Int → Expr
  | .ofNat n => .value (.bigint n)
  | .negSucc m => .unary .minus (.value (.bigint (m + 1 : Nat)))

/-- The units of the literal of a natural number. -/
theorem units_literal (n : Nat) :
    (toString n ++ "n").toList.flatMap (fun c => Text.unitsOf c.toNat) = Lex.bigUnits n := by
  rw [String.toList_append, List.flatMap_append, Nat.toString_eq_repr, Nat.toList_repr,
    Key.flatMap_unitsOf fun c => Key.isDigit_toDigits]
  rfl

theorem parseProgram_ok {p : Program} (h : program scope t {} = .ok (p, s')) :
    parseProgram scope t = .ok p := by
  rw [parseProgram, h]

/-- A script that is the literal of an integer is taken as that. -/
theorem parseProgram_literal (hscript : scope.isModule = false) (n : Int) :
    parseProgram scope (Text.ofString (toString n ++ "n")) =
      .ok { body := [.expr (literal n)], strict := scope.strict, isModule := false } := by
  have hdepth : depthLimit = 398 + 2 := rfl
  cases n with
  | ofNat n =>
      have hunits : (Text.ofString (toString (Int.ofNat n) ++ "n")).since 0 = Lex.bigUnits n :=
        (Text.units_ofString _).trans (units_literal n)
      generalize Text.ofString (toString (Int.ofNat n) ++ "n") = t at hunits
      have hhead := (Lex.bigUnits_head hunits).1
      rcases reads_big (s := { scope := scope }) hunits with ⟨s₁, s₂, hnumber, hend⟩
      exact parseProgram_ok (program_literal hdepth hscript (by omega) hnumber (.number _)
        (unaryRule_number hnumber.tok hend .allowed) hend.tok hend.scope hend.topAwait)
  | negSucc m =>
      -- A negative integer is a minus before the literal of its size, never a literal of its own.
      have hunits : (Text.ofString (toString (Int.negSucc m) ++ "n")).since 0 =
          45 :: Lex.bigUnits (m + 1) := by
        refine (Text.units_ofString _).trans ?_
        have htext : toString (Int.negSucc m) ++ "n" = "-" ++ (toString (m + 1) ++ "n") :=
          String.append_assoc
        rw [htext, String.toList_append, List.flatMap_append, units_literal]
        rfl
      generalize Text.ofString (toString (Int.negSucc m) ++ "n") = t at hunits
      have hhead : t.at' 0 = 45 := by
        have hat := Text.at_since t 0 0
        rwa [hunits] at hat
      rcases reads_minus (s := { scope := scope }) hunits with ⟨s₁, hminus, hrest⟩
      rcases reads_big hrest with ⟨s₂, s₃, hnumber, hend⟩
      refine parseProgram_ok (program_literal hdepth hscript (by omega) hminus .minus
        (unaryRule_minus hminus.tok hnumber hend .allowed) hend.tok ?_ ?_)
      · rw [hend.scope, hnumber.scope]
      · rw [hend.topAwait, hnumber.topAwait]

end Program

end Grammar

end Script

end ScriptHost
