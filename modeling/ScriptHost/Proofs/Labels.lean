import ScriptHost.Proofs.Accounting
import ScriptHost.Proofs.PlainObjects
/-!
# Keys that are made

A key stands for what a property is called: for the text that it was made of, for the number whose
text that is, or for what a value is made into.  Whichever way a key is made, there is but one for
each label.
-/

namespace ScriptHost

/-! ## Numbers below zero -/

/-- A number below zero writes no index. -/
theorem Key.ofText_negative {n : Int} (hn : n < 0) :
    Key.ofText (.ofString (toString n)) = .name (.ofString (toString n)) := by
  -- Its text has a sign, which is no digit.
  obtain ⟨k, rfl⟩ := Int.eq_negSucc_of_lt_zero hn
  have hsign : (45 : UInt16) ∈ (Text.ofString (toString (Int.negSucc k))).units.toList := by
    rw [Text.units_ofString]
    refine List.mem_flatMap.2 ⟨'-', ?_, by decide⟩
    have htext : toString (Int.negSucc k) = "-" ++ Nat.repr (k + 1) := rfl
    rw [htext, String.toList_append]
    exact List.mem_append_left _ (by decide)
  exact Key.ofText_eq_name ⟨45, hsign, .inl (by decide)⟩

/-- There is a key for every text. -/
theorem Key.isNull_ofText (t : Text) : (Key.ofText t).isNull = false := by
  rcases Key.ofText_cases t with ⟨n, -, -, hkey⟩ | ⟨-, hkey⟩
  · rw [hkey]
    rfl
  · rw [hkey]
    rfl

/-! ## Values as keys -/

namespace Eval

variable {interp : Interp} {m m' : Machine} {v : Value} {l : Label} {k : Key}

/-- The key for a number. -/
theorem toKey_int (n : Int32) : toKey (.int n) interp m =
    .ok (Key.ofText (.ofString (toString n.toInt))) m := by
  have hkey : toKey (.int n) = if n ≥ 0 then pure (Key.ofNat n.toInt.toNat)
      else pure (.name (.ofString (toString n.toInt))) := rfl
  rw [hkey]
  split
  next hn =>
    have hnat : (n.toInt.toNat : Int) = n.toInt := Int.toNat_of_nonneg (Int32.le_iff_toInt_le.1 hn)
    have htext : Key.natText n.toInt.toNat = .ofString (toString n.toInt) := by
      rw [← hnat]
      rfl
    rw [Key.ofNat_eq_ofText, htext]
    rfl
  next hn =>
    have hneg : n.toInt < 0 := by
      have hlt := Int32.lt_iff_toInt_lt.1 (Int32.not_le.1 hn)
      simpa using hlt
    rw [Key.ofText_negative hneg]
    rfl

/-- A value that takes no script has the key of its label. -/
theorem toKey_ofValue (hv : Label.ofValue? v = some l) :
    (do
      ScriptEngine.sound v
      toKey v) interp m = .ok l.key m := by
  cases v with
  | int n =>
      cases hv
      exact toKey_int n
  | bool b =>
      cases hv
      cases b <;> rfl
  | object _ | uninitialized | exception => cases hv
  | _ =>
      cases hv
      rfl

/-- A value that has no label is made primitive first. -/
theorem toKey_unlabelled (hv : Label.ofValue? v = none) : toKey v = (do
    match ← toPrimitive v .text with
    | .symbol id => pure (.symbol id)
    | p => pure (Key.ofText (← textOfPrimitive p))) := by
  cases v <;> first | rfl | cases hv

/-- The key that a value is made into stands for the label of the value, or for its own. -/
theorem key_of_toKey (hk : (do
      ScriptEngine.sound v
      toKey v) interp m = .ok k m') :
    k = ((Label.ofValue? v).getD (.ofKey k)).key := by
  cases hv : Label.ofValue? v with
  | some l =>
      rw [toKey_ofValue hv] at hk
      cases hk
      rfl
  | none =>
      -- The script gave a symbol or something that has a text.
      have hlabel : ∃ l : Label, k = l.key := by
        obtain ⟨-, m₁, -, hk⟩ := ok_of_bind hk
        rw [toKey_unlabelled hv] at hk
        obtain ⟨p, m₂, -, hk⟩ := ok_of_bind hk
        split at hk
        next id =>
          cases hk
          exact ⟨.symbol id, rfl⟩
        next =>
          obtain ⟨t, m₃, -, hk⟩ := ok_of_bind hk
          cases hk
          exact ⟨.text t, rfl⟩
      obtain ⟨l, rfl⟩ := hlabel
      rw [Option.getD_none, Label.ofKey_key]

end Eval

/-! ## Keys of labels -/

namespace Accounting

variable {σ : Type} {α : Type} {h : Host σ}

/-- There is no result if the engine threw. -/
theorem orThrow_inv [Engine σ] {c : ContextId} {a : α} {r : Option α}
    (hr : (Host.orThrow c r h).1 = .ok a) : r = some a := by
  cases r with
  | some a' =>
      cases hr
      rfl
  | none =>
      obtain ⟨d, h₁, -, hfail⟩ := bind_inv (x := Host.takeException c)
        (f := fun d => Host.fail (.exception d)) hr
      cases hfail

end Accounting

namespace ScriptEngine

theorem run_inv {α : Type} {realm : RealmId} {x : Eval α} {e : ScriptEngine} {a : α}
    (hx : (run realm x e).1 = some a) :
    ∃ machine', x (Eval.interp Builtin.supply depthLimit)
      { e.machine with realm := realm, calls := [], stackUsed := 0 } = .ok a machine' := by
  obtain ⟨machine, pending, ledger, queue⟩ := e
  unfold run at hx
  dsimp only at hx ⊢
  split at hx
  next a' machine' hrun =>
    cases hx
    exact ⟨machine', hrun⟩
  next => cases hx

end ScriptEngine

namespace KeyHandle

open Accounting (bind_inv orThrow_inv)

variable {k : KeyHandle} {l : Label}

/-- A key that was made for a label is the one for that label. -/
theorem Made.key_eq (hk : k.Made l) : k.key = l.key := by
  cases hk with
  | ofText h hmade =>
      obtain ⟨r, h₁, -, hmade⟩ := bind_inv hmade
      cases hmade
      rfl
  | @ofIndex c n _ h hmade =>
      obtain ⟨r, h₁, -, hmade⟩ := bind_inv hmade
      cases hmade
      exact Key.ofNat_eq_ofText n.toNat
  | @ofValue v _ h hmade =>
      -- The engine ran the script of the value, if it has one, and its answer was a key.
      obtain ⟨r, h₁, -, hmade⟩ := bind_inv hmade
      obtain ⟨a, h₂, hask, hmade⟩ := bind_inv hmade
      obtain ⟨key, h₃, hkey, hmade⟩ := bind_inv hmade
      cases hmade
      have hreply : a = some key := orThrow_inv (congrArg Prod.fst hkey)
      have hanswer : (ScriptEngine.run r (do
          ScriptEngine.sound v.value
          Eval.toKey v.value) h₁.engine).1 = a := Except.ok.inj (congrArg Prod.fst hask)
      obtain ⟨machine', hrun⟩ := ScriptEngine.run_inv (hanswer.trans hreply)
      exact Eval.key_of_toKey hrun

end KeyHandle

end ScriptHost
