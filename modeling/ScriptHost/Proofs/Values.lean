import ScriptHost.Proofs.Handles
/-!
# Values and keys keep their accounts

A value or a key that is made is one reference more, and a question changes nothing.
-/

namespace ScriptHost

namespace Accounting

variable {σ : Type} [Engine σ] {A : Accounting σ} {X : Contexts} {M K N : Multiset Ref}
  {c : ContextId} {α : Type}

/-! ## Making values -/

/-- An action that makes a value without references. -/
abbrev MakesPlain (A : Accounting σ) (X : Contexts) (K : Multiset Ref) (c : ContextId)
    (x : Action σ Handle) : Prop :=
  A.Triple X K x (fun h => h.context = c ∧ h.refs = []) (fun _ => K) (A.Owing X K)

theorem MakesPlain.makes {x : Action σ Handle} (hx : A.MakesPlain X K c x) : A.Makes X K c x := by
  refine Triple.mono hx ?_ fun _ h => h
  rintro h ⟨hcontext, hrefs⟩
  refine ⟨⟨hcontext, fun hne => (hne hrefs).elim⟩, ?_⟩
  rw [hrefs, Multiset.coe_nil, zero_add]

theorem pure_makesPlain {v : Value} (hv : Ref.ofValue v = []) :
    A.MakesPlain X K c (Pure.pure ⟨c, v⟩) :=
  Triple.pure ⟨rfl, hv⟩ rfl

theorem newUInt32_makesPlain (n : UInt32) : A.MakesPlain X K c (Host.newUInt32 c n) := by
  unfold Host.newUInt32
  exact Triple.bind Triple.live fun r _ => pure_makesPlain (Ref.ofValue_ofInt _)

theorem newInt64_makesPlain (n : Int64) : A.MakesPlain X K c (Host.newInt64 c n) := by
  unfold Host.newInt64
  exact Triple.bind Triple.live fun r _ => pure_makesPlain (Ref.ofValue_ofInt _)

theorem newBigInt64_makes (n : Int64) : A.Makes X K c (Host.newBigInt64 c n) := by
  unfold Host.newBigInt64
  exact given_makes fun r hr => Triple.ask_free rfl rfl (Usable.nil hr)

theorem newBigUInt64_makes (n : UInt64) : A.Makes X K c (Host.newBigUInt64 c n) := by
  unfold Host.newBigUInt64
  exact given_makes fun r hr => Triple.ask_free rfl rfl (Usable.nil hr)

theorem newString_makes (s : String) : A.Makes X K c (Host.newString c s) := by
  unfold Host.newString
  exact given_makes fun r hr => Triple.ask_free rfl rfl (Usable.nil hr)

theorem newObject_makes : A.Makes X K c (Host.newObject c) := by
  unfold Host.newObject
  exact given_makes fun r hr => Triple.ask_free rfl rfl (Usable.nil hr)

theorem newArray_makes : A.Makes X K c (Host.newArray c) := by
  unfold Host.newArray
  exact given_makes fun r hr => Triple.ask_free rfl rfl (Usable.nil hr)

/-! ## Asking what values are -/

theorem isFunction_keeps {h : Handle} (hu : Usable A X K h.context h.refs) :
    A.Keeps X K (Host.isFunction h) := by
  unfold Host.isFunction
  split
  · exact said_keeps fun r hr => Triple.inquiry rfl rfl (fun _ => rfl) (hu hr)
  · exact Keeps.pure

theorem isConstructor_keeps {h : Handle} (hu : Usable A X K h.context h.refs) :
    A.Keeps X K (Host.isConstructor h) := by
  unfold Host.isConstructor
  split
  · exact said_keeps fun r hr => Triple.inquiry rfl rfl (fun _ => rfl) (hu hr)
  · exact Keeps.pure

theorem isInstance_keeps {h : Handle} {f : Value} (hu : Usable A X K h.context h.refs)
    (hf : Usable A X K h.context (Ref.ofValue f)) : A.Keeps X K (Host.isInstance h f) := by
  unfold Host.isInstance
  split
  · refine Triple.bind Triple.live fun r hr => ?_
    refine Triple.bind (Triple.inquiry rfl rfl (fun _ => rfl) (hu.append hf hr)) fun b _ => ?_
    cases b with
    | some b => exact Keeps.pure
    | none => exact discardException_keeps.bind fun _ => Keeps.pure
  · exact Keeps.pure

theorem typeName_keeps {h : Handle} (hu : Usable A X K h.context h.refs) :
    A.Keeps X K (Host.typeName h) := by
  unfold Host.typeName
  split
  all_goals first
    | exact Keeps.pure
    | exact (isFunction_keeps hu).bind fun _ => Keeps.pure

/-! ## Converting values -/

theorem toBool_keeps {h : Handle} (hu : Usable A X K h.context h.refs) :
    A.Keeps X K (Host.toBool h) := by
  unfold Host.toBool
  exact said_keeps fun r hr => Triple.inquiry rfl rfl (fun _ => rfl) (hu hr)

theorem toInt32_keeps {h : Handle} (hu : Usable A X K h.context h.refs) :
    A.Keeps X K (Host.toInt32 h) := by
  unfold Host.toInt32
  exact thrown_keeps fun r hr => Triple.inquiry rfl rfl (fun _ => rfl) (hu hr)

theorem toUInt32_keeps {h : Handle} (hu : Usable A X K h.context h.refs) :
    A.Keeps X K (Host.toUInt32 h) := by
  unfold Host.toUInt32
  exact thrown_keeps fun r hr => Triple.inquiry rfl rfl (fun _ => rfl) (hu hr)

theorem toInt64_keeps {h : Handle} (hu : Usable A X K h.context h.refs) :
    A.Keeps X K (Host.toInt64 h) := by
  unfold Host.toInt64
  exact thrown_keeps fun r hr => Triple.inquiry rfl rfl (fun _ => rfl) (hu hr)

theorem toFloat_keeps {h : Handle} (hu : Usable A X K h.context h.refs) :
    A.Keeps X K (Host.toFloat h) := by
  unfold Host.toFloat
  exact thrown_keeps fun r hr => Triple.inquiry rfl rfl (fun _ => rfl) (hu hr)

theorem toBigInt64_keeps {h : Handle} (hu : Usable A X K h.context h.refs) :
    A.Keeps X K (Host.toBigInt64 h) := by
  unfold Host.toBigInt64
  exact thrown_keeps fun r hr => Triple.inquiry rfl rfl (fun _ => rfl) (hu hr)

theorem toText_keeps {h : Handle} (hu : Usable A X K h.context h.refs) :
    A.Keeps X K (Host.toText h) := by
  unfold Host.toText
  exact thrown_keeps fun r hr => Triple.inquiry rfl rfl (fun _ => rfl) (hu hr)

theorem readDecimal_keeps (text : String) : A.Keeps X K (Host.readDecimal text) := by
  unfold Host.readDecimal
  split
  · exact Keeps.pure
  · exact Keeps.fail

theorem toBigInt_keeps {h : Handle} (hu : Usable A X K h.context h.refs) :
    A.Keeps X K (Host.toBigInt h) := by
  have hrest : A.Keeps X K (do Host.readDecimal (← Host.toText h)) :=
    (toText_keeps hu).bind readDecimal_keeps
  unfold Host.toBigInt
  split
  · exact (typeName_keeps hu).bind fun _ => Keeps.fail.bind fun _ => hrest
  · exact hrest

theorem diagnostic_keeps {h : Handle} (hu : Usable A X K h.context h.refs) :
    A.Keeps X K (Host.diagnostic h) := by
  unfold Host.diagnostic
  split
  all_goals first
    | exact (textLossy_keeps hu).bind fun _ => Keeps.pure
    | exact (typeName_keeps hu).bind fun _ => Keeps.pure

/-! ## Keys -/

theorem newKey_makes (s : String) : A.MakesKey X K c (Host.newKey c s) := by
  unfold Host.newKey
  exact given_makesKey fun r hr => Triple.ask_free rfl rfl (Usable.nil hr)

theorem newIndexKey_makes (n : UInt32) : A.MakesKey X K c (Host.newIndexKey c n) := by
  unfold Host.newIndexKey
  exact given_makesKey fun r hr => Triple.ask_free rfl rfl (Usable.nil hr)

theorem toKey_makes {h : Handle} (hu : Usable A X K h.context h.refs) :
    A.MakesKey X K h.context (Host.toKey h) := by
  unfold Host.toKey
  refine Triple.bind Triple.live fun r hr => ?_
  refine Triple.bind (Triple.ask_free rfl rfl (hu hr)) fun k _ => ?_
  refine Triple.bind (Q := fun _ => True) (R := fun k => Ref.ofKey k + K)
    (orThrow_triple ?_ ?_) fun k _ => Triple.pure ⟨rfl, Rooted.of_isLive hr⟩ rfl
  · rintro k rfl
    exact ⟨trivial, rfl⟩
  · rintro rfl
    exact zero_add K

theorem keyValue_makes {k : KeyHandle} (hu : Usable A X K k.context k.refs) :
    A.Makes X K k.context (Host.keyValue k) := by
  unfold Host.keyValue
  split
  · exact (newUInt32_makesPlain _).makes
  · exact checked_makes fun r hr => Triple.ask_free rfl rfl (hu hr)

theorem keyText_keeps {k : KeyHandle} (hu : Usable A X K k.context k.refs) :
    A.Keeps X K (Host.keyText k) := by
  unfold Host.keyText
  refine Triple.bind Triple.live fun r hr => ?_
  refine Triple.bind (Triple.ask_free rfl rfl (hu hr)) fun v _ => ?_
  refine Triple.bind (check_makes hr v) fun h hh => ?_
  exact Triple.holding (hh.1 ▸ hh.2) (toText_keeps (Usable.own _))

theorem keyDiagnostic_keeps {k : KeyHandle} (hu : Usable A X K k.context k.refs) :
    A.Keeps X K (Host.keyDiagnostic k) := by
  unfold Host.keyDiagnostic
  refine Keeps.bind (Triple.tryCatch ((keyText_keeps hu).bind fun _ => Keeps.pure) fun e => ?_)
    fun _ => Keeps.pure
  cases e with
  | failed e => exact Keeps.pure
  | panicked p => exact Triple.throw

end Accounting

end ScriptHost
