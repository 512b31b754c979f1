import ScriptHost.Proofs.Instances
import ScriptHost.Proofs.Literals
/-!
# Running scripts without names

Code without jumps goes through its instructions one after the other.  A script that is nothing but an
expression leaves the value of that on the operand stack, keeps it and gives it; one that is the literal
of an integer gives that integer.
-/

namespace ScriptHost

open Script Compile

namespace Eval

/-! ## Code without jumps -/

section Straight

variable {I : Interp} {m : Machine} {f f' : Frame} {i : Instr} {v : Value} {is : List Instr}

/-- An activation goes through instructions one after the other and leaves the machine alone. -/
inductive Straight (I : Interp) (m : Machine) : List Instr → Frame → Frame → Prop
  | nil (f : Frame) : Straight I m [] f f
  | cons {i : Instr} {is : List Instr} {f g h : Frame} :
      stepFlow { f with pc := f.pc + 1 } i I m = .ok (.next g) m → g.code = f.code →
      g.pc = f.pc + 1 → Straight I m is g h → Straight I m (i :: is) f h

theorem Straight.append {is' : List Instr} {g : Frame} (h : Straight I m is f g)
    (h' : Straight I m is' g f') : Straight I m (is ++ is') f f' := by
  induction h with
  | nil => exact h'
  | cons hstep hcode hpc _ ih => exact .cons hstep hcode hpc (ih h')

theorem Straight.one {g : Frame} (hstep : stepFlow { f with pc := f.pc + 1 } i I m = .ok (.next g) m)
    (hcode : g.code = f.code) (hpc : g.pc = f.pc + 1) : Straight I m [i] f g :=
  .cons hstep hcode hpc (.nil g)

theorem Straight.code (h : Straight I m is f f') : f'.code = f.code ∧ f'.pc = f.pc + is.length := by
  induction h with
  | nil => exact ⟨rfl, rfl⟩
  | cons _ hcode hpc _ ih =>
      refine ⟨ih.1.trans hcode, ?_⟩
      rw [ih.2, hpc, List.length_cons]
      omega

theorem watchMemory_idle {time : Nat} (h : time % 64 ≠ 0) : watchMemory time I m = .ok () m := by
  have hidle : (m.limits.memory.isSome && time % 64 == 0) = false := by simp [h]
  rw [watchMemory, get_bind, hidle]
  rfl

/-- Memory is not counted at each instruction. -/
theorem watched_step {time : Nat} {r : Step} (htime : time % 64 ≠ 0)
    (hstep : stepFlow { f with pc := f.pc + 1 } i I m = .ok r m) :
    (do watchMemory time; stepFlow { f with pc := f.pc + 1 } i : Eval Step) I m = .ok r m :=
  (bind_of_ok (watchMemory_idle htime)).trans hstep

theorem loop_next {fuel : Nat} (hi : f.code.instrs[f.pc]? = some i) (htime : fuel % 64 ≠ 0)
    (hstep : stepFlow { f with pc := f.pc + 1 } i I m = .ok (.next f') m) :
    loop I (fuel + 1) f m = loop I fuel f' m := by
  simp only [loop, hi, watched_step htime hstep]

theorem loop_done {fuel : Nat} (hi : f.code.instrs[f.pc]? = some i) (htime : fuel % 64 ≠ 0)
    (hstep : stepFlow { f with pc := f.pc + 1 } i I m = .ok (.done v) m) :
    loop I (fuel + 1) f m = .ok (.returned v) m := by
  simp only [loop, hi, watched_step htime hstep]

/-- Memory is not counted while few instructions are run. -/
theorem loop_straight {fuel : Nat} {rest : List Instr} (h : Straight I m is f f')
    (hcode : f.code.instrs.toList.drop f.pc = is ++ rest)
    (htime : ∀ k < is.length, (fuel + k) % 64 ≠ 0) :
    loop I (fuel + is.length) f m = loop I fuel f' m := by
  induction h with
  | nil => rfl
  | @cons i is f g _ hstep hkept hpc _ ih =>
      have hi : f.code.instrs[f.pc]? = some i := by
        rw [← Array.getElem?_toList, ← Nat.add_zero f.pc, ← List.getElem?_drop, hcode]
        rfl
      have hrest : g.code.instrs.toList.drop g.pc = is ++ rest := by
        rw [hkept, hpc, ← List.drop_drop, hcode]
        rfl
      rw [List.length_cons, ← Nat.add_assoc, loop_next hi (htime is.length (by simp)) hstep]
      exact ih hrest fun k hk => htime k (Nat.lt_succ_of_lt hk)

end Straight

/-! ## Scripts without names -/

section Scripts

variable {code : FunctionCode} {is : List Instr} {v this : Value} {m : Machine}

/-- The code of a script that is nothing but an expression. -/
structure IsScriptOf (is : List Instr) (code : FunctionCode) : Prop where
  instrs : code.instrs.toList = .push .undefined :: .setReg 0 :: .declareGlobals [] [] [] false ::
    (is ++ [.setReg 0, .getReg 0, .ret])
  slots : code.slots = 0
  regs : code.regs = 1
  implicit : code.implicit = []

/-- The activation of a script without variables. -/
def scriptFrame (code : FunctionCode) (this : Value) : Frame :=
  { code := code, this := this, regs := #[.undefined], place := code.place }

theorem topFrame_script (h : IsScriptOf is code) (I : Interp) (m : Machine) :
    topFrame code this #[] I m = .ok (scriptFrame code this) m := by
  unfold topFrame
  rw [h.slots, h.implicit, h.regs, Std.Legacy.Range.forIn_eq_forIn_range']
  rfl

/-- Code puts a value on the operand stack and does nothing else. -/
def Pushes (is : List Instr) (v : Value) : Prop :=
  ∀ I m f, Straight I m is f { f with pc := f.pc + is.length, stack := v :: f.stack }

theorem pushes_value (v : Value) : Pushes [.push v] v := fun _ _ _ => .one rfl rfl rfl

theorem pushes_minus (n : Int) : Pushes [.push (.bigint n), .unary .minus] (.bigint (-n)) :=
  fun _ _ f => .cons (g := { f with pc := f.pc + 1, stack := .bigint n :: f.stack }) rfl rfl rfl
    (.one rfl rfl rfl)

/-- The instructions of a script are run one after the other. -/
theorem loop_script (h : IsScriptOf is code) (hshort : is.length ≤ 50) (hpushes : Pushes is v)
    (I : Interp) (m : Machine) :
    loop I instructionLimit (scriptFrame code this) m = .ok (.returned v) m := by
  have hbegin : Straight I m [.push .undefined, .setReg 0, .declareGlobals [] [] [] false]
      (scriptFrame code this) { scriptFrame code this with pc := 3 } :=
    .cons rfl rfl rfl (.cons rfl rfl rfl (.one rfl rfl rfl))
  have hvalue := hpushes I m { scriptFrame code this with pc := 3 }
  have hkept : Straight I m [.setReg 0, .getReg 0]
      { scriptFrame code this with pc := 3 + is.length, stack := [v] }
      { scriptFrame code this with pc := 3 + is.length + 2, stack := [v], regs := #[v] } :=
    .cons (g := { scriptFrame code this with pc := 3 + is.length + 1, regs := #[v] }) rfl rfl rfl
      (.one rfl rfl rfl)
  have hall := (hbegin.append hvalue).append hkept
  -- All but the last instruction run straight through; only their number matters from here on.
  generalize hfirst : [Instr.push .undefined, .setReg 0, .declareGlobals [] [] [] false] ++ is ++
    [.setReg 0, .getReg 0] = all at hall
  have hlength : all.length = 3 + is.length + 2 := by
    rw [← hfirst, List.length_append, List.length_append]
    rfl
  have hinstrs : code.instrs.toList = all ++ [.ret] := by
    rw [h.instrs, ← hfirst]
    simp
  have hret : code.instrs[3 + is.length + 2]? = some .ret := by
    rw [← Array.getElem?_toList, hinstrs, ← hlength, List.getElem?_concat_length]
  have hlimit : instructionLimit = 2 ^ 50 - 1 - all.length + 1 + all.length := by
    have htop : instructionLimit = 2 ^ 50 := rfl
    omega
  rw [hlimit, loop_straight hall hinstrs fun k hk => by omega]
  exact loop_done hret (by omega) rfl

/-- A script that is nothing but an expression gives its value and leaves the machine as it was. -/
theorem runToEnd_script (h : IsScriptOf is code) (hshort : is.length ≤ 50) (hpushes : Pushes is v)
    (hroom : RoomToCall m) (depth : Nat) :
    (do runToEnd (← topFrame code this #[]) : Eval Value) (interp Builtin.supply (depth + 1)) m =
      .ok v m := by
  have hsmall : stackBytes ⟨.undefined, some code, code.place⟩ ≤ stackBytes ⟨.undefined, none, {}⟩ :=
    (by decide : 600 ≤ 1100)
  have hfits : ∀ limit ∈ m.limits.stack,
      m.stackUsed + stackBytes ⟨.undefined, some code, code.place⟩ ≤ limit := fun limit hlimit =>
    le_trans (Nat.add_le_add_left hsmall _) (hroom limit hlimit)
  have hloop := @loop_script code is v this h hshort hpushes (interp Builtin.supply depth)
    (entered m ⟨.undefined, some code, code.place⟩)
  have hrun : runFrame (scriptFrame code this) (interp Builtin.supply depth) m =
      .ok (.returned v) (left m (entered m ⟨.undefined, some code, code.place⟩)) :=
    withSite_ok hfits hloop
  refine (bind_of_ok (topFrame_script h _ m)).trans ?_
  have hread : (do (← read).run (scriptFrame code this) : Eval Outcome)
      (interp Builtin.supply (depth + 1)) m = .ok (.returned v) m := hrun
  unfold runToEnd
  exact bind_of_ok hread

/-- The code of a script that is the literal of an integer. -/
theorem compileScript_literal (file : String) (strict : Bool) (n : Int) :
    ∃ code is, compileScript .script file
      { body := [.expr (Grammar.literal n)], strict := strict, isModule := false } = .ok code ∧
      IsScriptOf is code ∧ is.length ≤ 50 ∧ Pushes is (.bigint n) := by
  cases n with
  | ofNat n =>
      exact ⟨_, [.push (.bigint n)], rfl, ⟨rfl, rfl, rfl, rfl⟩, by simp, pushes_value _⟩
  | negSucc n =>
      exact ⟨_, [.push (.bigint (n + 1 : Nat)), .unary .minus], rfl, ⟨rfl, rfl, rfl, rfl⟩, by simp,
        pushes_minus _⟩

/-- A script that is the literal of an integer gives that integer. -/
theorem evaluateSource_literal (file : String) (n : Int) (heval : m.currentRealm.hasEval)
    (hroom : RoomToCall m) (depth : Nat) :
    evaluateSource file .script (Text.ofString (toString n ++ "n"))
      (interp Builtin.supply (depth + 1)) m = .ok (.bigint n) m := by
  have hscope : (scopeOf .script (m.currentRealm.intrinsic? .regexpPrototype).isSome).isModule =
      false := rfl
  rcases compileScript_literal file
    (scopeOf .script (m.currentRealm.intrinsic? .regexpPrototype).isSome).strict n with
    ⟨code, is, hcompile, hcode, hshort, hpushes⟩
  have htext : compileText .script file (Text.ofString (toString n ++ "n"))
      (interp Builtin.supply (depth + 1)) m = .ok code m := by
    have hregexps : hasRegexps (interp Builtin.supply (depth + 1)) m =
        .ok (m.currentRealm.intrinsic? .regexpPrototype).isSome m := rfl
    rw [compileText, bind_of_ok hregexps, Grammar.parseProgram_literal hscope]
    dsimp only
    rw [hcompile]
    rfl
  rw [evaluateSource, get_bind, heval]
  rw [if_neg (by decide)]
  exact (bind_of_ok htext).trans (runToEnd_script hcode hshort hpushes hroom depth)

end Scripts

end Eval

end ScriptHost
