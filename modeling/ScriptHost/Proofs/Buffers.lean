import ScriptHost.Host.Buffers
import ScriptHost.Proofs.Calls
/-!
# Buffers keep their accounts

Memory is pinned before the engine is asked for a buffer over it, and unpinned if the engine
refuses.  In between no accounting has to hold; whether one survives the whole is a property of its
own.
-/

namespace ScriptHost

namespace Accounting

variable {σ : Type} [Engine σ] {A : Accounting σ} {X : Contexts} {M K N : Multiset Ref}
  {c : ContextId} {α : Type}

/-! ## Lending -/

/-- The request by which the next region is lent. -/
def lendRequest (realm : RealmId) (bytes : ByteArray) (p : Pins) : Request :=
  .lendBuffer realm bytes (p.fresh bytes.size).address p.next

/-- The buffer over the next region, or the sentinel if the engine refused it. -/
def lendReply (realm : RealmId) (bytes : ByteArray) (p : Pins) (e : σ) : Value :=
  (Engine.answer (lendRequest realm bytes p) e).reply

/-- What is lent after a region was pinned, the engine has answered with a value and given some
regions back, and the region was unpinned if the engine had refused it. -/
def settled (p : Pins) (length : Nat) (v : Value) (freed : List Token) : Pins :=
  if v == .exception then (freed.foldl Pins.takeBack (p.lend length)).giveBack p.next
  else freed.foldl Pins.takeBack (p.lend length)

/-- An accounting survives that memory is lent, whether the engine takes it or refuses. -/
def Lends (A : Accounting σ) : Prop :=
  ∀ (K : Multiset Ref) (e : σ) (p : Pins) (realm : RealmId) (bytes : ByteArray), bytes.size ≠ 0 →
    A.books K e p →
      A.books (Ref.ofValue (lendReply realm bytes p e) + K)
        (Engine.answer (lendRequest realm bytes p) e).state
        (settled p bytes.size (lendReply realm bytes p e)
          (Engine.answer (lendRequest realm bytes p) e).freed)

/-- An accounting survives that memory is pinned and no engine is asked. -/
def Leaks (A : Accounting σ) : Prop :=
  ∀ (K : Multiset Ref) (e : σ) (p : Pins) (length : Nat), A.books K e p →
    A.books K e (p.lend length)

omit [Engine σ] in
theorem pin_ok (length : Nat) (h : Host σ) :
    Host.pin length h = (.ok ((h.pins.fresh length).address, h.pins.next),
      { h with pins := h.pins.lend length, log := h.log.push (.regionLent length) }) := rfl

/-- In a live context the engine is asked for a buffer, and what it said is settled before it is
looked at. -/
theorem newSharedBuffer_live {h : Host σ} {r : RealmId} {bytes : ByteArray}
    (hr : (Contexts.entry h.contexts c).realm = some r) (hb : bytes.size ≠ 0) :
    ∃ h', Host.newSharedBuffer c bytes h =
        Host.check c (lendReply r bytes h.pins h.engine) h' ∧
      h'.contexts = h.contexts ∧
      h'.engine = (Engine.answer (lendRequest r bytes h.pins) h.engine).state ∧
      h'.pins = settled h.pins bytes.size (lendReply r bytes h.pins h.engine)
        (Engine.answer (lendRequest r bytes h.pins) h.engine).freed := by
  have hsize : (bytes.size == 0) = false := by simpa using hb
  unfold Host.newSharedBuffer
  rw [hsize, if_neg (by simp)]
  let lent : Host σ :=
    { h with pins := h.pins.lend bytes.size, log := h.log.push (.regionLent bytes.size) }
  have hlive : Host.live c lent = (.ok r, lent) := live_ok hr
  obtain ⟨h', hrun, hcontexts, hengine, hpins⟩ := ask_eq (lendRequest r bytes h.pins) lent
  -- If the engine refuses, the region that was pinned is given back.
  by_cases hv : (lendReply r bytes h.pins h.engine == Value.exception) = true
  · refine ⟨{ h' with pins := h'.pins.giveBack h.pins.next }, ?_, hcontexts, hengine, ?_⟩
    · refine (bind_ok (pin_ok _ h)).trans ((bind_ok hlive).trans ((bind_ok hrun).trans ?_))
      exact congrFun (if_pos hv) h'
    · exact (congrArg (Pins.giveBack · h.pins.next) hpins).trans (if_pos hv).symm
  · refine ⟨h', ?_, hcontexts, hengine, hpins.trans (if_neg hv).symm⟩
    refine (bind_ok (pin_ok _ h)).trans ((bind_ok hlive).trans ((bind_ok hrun).trans ?_))
    exact congrFun (if_neg hv) h'

/-- In a freed context the region is pinned all the same. -/
theorem newSharedBuffer_freed {h : Host σ} {bytes : ByteArray}
    (hr : (Contexts.entry h.contexts c).realm = none) (hb : bytes.size ≠ 0) :
    Host.newSharedBuffer c bytes h = (.error (.panicked .usedAfterFree),
      { h with pins := h.pins.lend bytes.size, log := h.log.push (.regionLent bytes.size) }) := by
  have hsize : (bytes.size == 0) = false := by simpa using hb
  unfold Host.newSharedBuffer
  rw [hsize, if_neg (by simp), bind_ok (pin_ok bytes.size h)]
  exact bind_error (live_error hr)

theorem newArrayBuffer_makes (bytes : ByteArray) :
    A.Makes X K c (Host.newArrayBuffer c bytes) := by
  unfold Host.newArrayBuffer
  exact checked_makes fun r hr => Triple.ask_free rfl rfl (Usable.nil hr)

theorem newSharedBuffer_makes (hlend : A.Lends) (hc : X.isLive c ∨ A.Leaks) (bytes : ByteArray) :
    A.Makes X K c (Host.newSharedBuffer c bytes) := by
  by_cases hb : bytes.size = 0
  · have hempty : Host.newSharedBuffer c bytes = (Host.newArrayBuffer c bytes : Action σ Handle) := by
      rw [Host.newSharedBuffer, hb]
      rfl
    rw [hempty]
    exact newArrayBuffer_makes bytes
  intro h hh
  cases hr : (Contexts.entry h.contexts c).realm with
  | some r =>
      have hlive : X.isLive c := by simp [← hh.contexts, Contexts.isLive, hr]
      obtain ⟨h', hrun, hcontexts, hengine, hpins⟩ := newSharedBuffer_live (c := c) hr hb
      rw [hrun]
      refine check_makes hlive _ h' ⟨hcontexts.trans hh.contexts, ?_⟩
      rw [hengine, hpins, add_assoc]
      exact hlend _ _ _ _ _ hb hh.books
  | none =>
      have hfreed : ¬X.isLive c := by simp [← hh.contexts, Contexts.isLive, hr]
      rw [newSharedBuffer_freed hr hb]
      exact ⟨hh.contexts, hc.resolve_left hfreed _ _ _ _ hh.books⟩

/-! ## Making typed arrays -/

theorem arrayConstructor_triple (hX : X.Tended) (k : ElementKind) :
    A.Triple X K (Host.arrayConstructor c k)
      (fun f => f.context = c ∧ Usable A X K c f.refs) (fun _ => K) (A.Owing X K) := by
  unfold Host.arrayConstructor
  refine Triple.bind Triple.context fun x hx => ?_
  subst hx
  dsimp only
  split
  · refine Triple.pure ⟨rfl, Usable.value hX ?_⟩ rfl
    exact List.mem_append_right _ (List.mem_map_of_mem (ElementKind.mem_all k))
  · exact Triple.fail

theorem newTypedArrayOver_makes (hX : X.Tended) (k : ElementKind) {buffer : Handle}
    (hu : Usable A X K c buffer.refs) : A.Makes X K c (Host.newTypedArrayOver c k buffer) := by
  unfold Host.newTypedArrayOver
  refine Triple.bind (arrayConstructor_triple hX k) ?_
  rintro f ⟨rfl, hf⟩
  exact construct_makes hf (by simpa using hu)

theorem newTypedArray_makes (hX : X.Tended) (k : ElementKind) (length : UInt32) :
    A.Makes X K c (Host.newTypedArray c k length) := by
  unfold Host.newTypedArray
  refine Triple.bind (arrayConstructor_triple hX k) ?_
  rintro f ⟨rfl, hf⟩
  refine Triple.bind (newUInt32_makesPlain length) fun n ⟨_, hn⟩ => ?_
  refine construct_makes hf fun a ha => ?_
  rw [List.mem_singleton.1 ha, hn]
  exact Usable.nil

theorem newTypedArrayOf_makes (hX : X.Tended) (k : ElementKind) (bytes : ByteArray) :
    A.Makes X K c (Host.newTypedArrayOf c k bytes) := by
  unfold Host.newTypedArrayOf
  refine Triple.bind (newArrayBuffer_makes bytes) fun buffer ⟨hbuffer, hroot⟩ => ?_
  exact Triple.holding (hbuffer ▸ hroot) (Makes.swap (newTypedArrayOver_makes hX k (Usable.own _)))

/-! ## Looking at buffers -/

theorem arrayInfo_triple (hX : X.Tended) {h : Handle} (hu : Usable A X K h.context h.refs) :
    A.Triple X K (Host.arrayInfo h)
      (fun i => i.buffer.context = h.context ∧ Rooted X h.context i.buffer.refs)
      (fun i => i.buffer.refs + K) (A.Owing X K) := by
  unfold Host.arrayInfo
  -- A buffer is handed out as a second reference to the value itself.
  refine (isArrayBuffer_keeps hX hu).bind fun isBuffer => ?_
  split
  · refine (length_keeps hX hu).bind fun n => ?_
    exact Triple.bind (dupe_makes hu) fun d hd => Triple.pure hd rfl
  -- A typed array is asked for, and the engine gives a reference to its buffer.
  refine (elementKind_keeps hX hu).bind fun kind => ?_
  split
  · exact (typeName_keeps hu).bind fun _ => Triple.fail
  · refine Triple.bind Triple.live fun r hr => ?_
    refine Triple.bind (Triple.ask_free rfl rfl (hu hr)) fun i _ => ?_
    have hinfo : A.Triple X ((Request.viewInfo r h.value).given i + K)
        (Host.orViolation h.context "typed_array_info" i) (fun _ => True)
        (fun i => Ref.ofValue i.buffer + K) (A.Owing X K) := by
      refine orViolation_triple ?_ ?_
      · rintro i rfl
        exact ⟨trivial, rfl⟩
      · rintro rfl
        exact zero_add K
    refine Triple.bind hinfo fun i _ => ?_
    exact Triple.pure ⟨rfl, Rooted.of_isLive hr⟩ rfl

theorem bufferOf_makes (hX : X.Tended) {h : Handle} (hu : Usable A X K h.context h.refs) :
    A.Makes X K h.context (do Pure.pure (← Host.arrayInfo h).buffer) :=
  Triple.bind (arrayInfo_triple hX hu) fun _ hi => Triple.pure hi rfl

theorem byteViewOf_keeps {h : Handle} (hu : Usable A X K h.context h.refs) (offset : Nat)
    (length : Option Nat) : A.Keeps X K (Host.byteViewOf h offset length) := by
  unfold Host.byteViewOf
  refine Triple.bind Triple.live fun r hr => ?_
  refine Triple.bind (Triple.inquiry rfl rfl (fun _ => rfl) (hu hr)) fun region _ => ?_
  exact orThrow_keeps.bind fun _ => Keeps.pure

theorem byteView_keeps (hX : X.Tended) {h : Handle} (hu : Usable A X K h.context h.refs) :
    A.Keeps X K (Host.byteView h) := by
  unfold Host.byteView
  refine (isArrayBuffer_keeps hX hu).bind fun isBuffer => ?_
  split
  · exact byteViewOf_keeps hu _ _
  refine (elementKind_keeps hX hu).bind fun kind => ?_
  split
  · refine Triple.bind (arrayInfo_triple hX hu) fun i ⟨hi, hroot⟩ => ?_
    exact Triple.holding (hi ▸ hroot) (byteViewOf_keeps (Usable.own _) _ _)
  · exact (typeName_keeps hu).bind fun _ => Keeps.fail

theorem toByteArray_keeps (hX : X.Tended) {h : Handle} (hu : Usable A X K h.context h.refs) :
    A.Keeps X K (Host.toByteArray h) := by
  unfold Host.toByteArray Host.readView
  refine (byteView_keeps hX hu).bind fun v => ?_
  exact Triple.inquiry_unnamed rfl rfl (fun _ => rfl) rfl

theorem write_keeps (hX : X.Tended) {h : Handle} (hu : Usable A X K h.context h.refs)
    (start : Nat) (bytes : ByteArray) :
    A.Keeps X K (do Host.writeView (← Host.byteView h) start bytes) := by
  refine (byteView_keeps hX hu).bind fun v => ?_
  unfold Host.writeView
  exact Triple.inquiry_unnamed rfl rfl (fun _ => rfl) rfl

end Accounting

end ScriptHost
