import ScriptHost.Client.Description
import ScriptHost.Proofs.Describing
import ScriptHost.Proofs.Handles
import ScriptHost.Proofs.ScriptThrows
/-!
# Records of what was thrown

Whatever was thrown, taking it off the engine and describing it comes through and leaves the books
balanced.  The engine is asked for each member by itself: what one of them throws is taken off before
the next one is asked for, and makes one field empty and no other.
-/

namespace ScriptHost

open Accounting (bind_ok tryCatch_ok live_ok ask_eq)

variable {σ : Type} {pending : σ → Option Value}

/-- Whether a request is one of those by which what was thrown is taken, looked at and given back. -/
def Request.looks : Request → Bool
  | takeException _ | isError _ _ | getNamed _ _ _ | toText _ _ | release _ _ => true
  | _ => false

theorem History.memberReads_append (new old : History σ) :
    memberReads (new ++ old) = memberReads old ++ memberReads new := by
  simp [memberReads]

namespace Host

variable {s s' s'' : Host (Recorded σ)} {reads reads' : List (MemberRead σ)} {gain gain' : Ref → Int}
  {begun begun' : Prop} {c : ContextId} {r : RealmId} {v : Value}

/-! ## What looking at something leads to -/

/-- From one host to another the engine was asked nothing but what is asked in describing. -/
def OnlyLooked (s s' : Host (Recorded σ)) : Prop :=
  ∃ new, s'.engine.history = new ++ s.engine.history ∧ ∀ x ∈ new, x.request.looks

theorem OnlyLooked.trans (h : s.OnlyLooked s') (h' : s'.OnlyLooked s'') : s.OnlyLooked s'' := by
  obtain ⟨new, hnew, hlooks⟩ := h
  obtain ⟨new', hnew', hlooks'⟩ := h'
  refine ⟨new' ++ new, by rw [hnew', hnew, List.append_assoc], fun x hx => ?_⟩
  exact (List.mem_append.1 hx).elim (hlooks' x) (hlooks x)

/-- What looking at something leads to: the engine was asked for some members, the host has some
references more, and nothing is pending if it was properly begun. -/
structure Leads (pending : σ → Option Value) (begun : Prop) (reads : List (MemberRead σ))
    (gain : Ref → Int) (s s' : Host (Recorded σ)) : Prop where
  contexts : s'.contexts = s.contexts
  looked : s.OnlyLooked s'
  reads : s'.engine.history.memberReads = s.engine.history.memberReads ++ reads
  held : ∀ ref, History.held ref s'.engine.history = History.held ref s.engine.history + gain ref
  clear : begun → pending s'.engine.engine = none

/-- What looking with nothing pending leads to, if in the end the host has what it had before. -/
abbrev Looks (pending : σ → Option Value) (reads : List (MemberRead σ)) (s s' : Host (Recorded σ)) :
    Prop :=
  Leads pending (pending s.engine.engine = none) reads (fun _ => 0) s s'

theorem Leads.refl : Looks pending [] s s where
  contexts := rfl
  looked := ⟨[], rfl, fun _ hx => absurd hx List.not_mem_nil⟩
  reads := by simp
  held := by simp
  clear h := h

theorem Leads.trans (h : Leads pending begun reads gain s s')
    (h' : Leads pending (pending s'.engine.engine = none) reads' gain' s' s'') :
    Leads pending begun (reads ++ reads') (fun ref => gain ref + gain' ref) s s'' where
  contexts := h'.contexts.trans h.contexts
  looked := h.looked.trans h'.looked
  reads := by rw [h'.reads, h.reads, List.append_assoc]
  held ref := by rw [h'.held, h.held, Int.add_assoc]
  clear hbegun := h'.clear (h.clear hbegun)

/-- What takes away whatever was pending mends what came before it. -/
theorem Leads.mend (h : Leads pending begun reads gain s s')
    (h' : Leads pending True reads' gain' s' s'') :
    Leads pending True (reads ++ reads') (fun ref => gain ref + gain' ref) s s'' where
  contexts := h'.contexts.trans h.contexts
  looked := h.looked.trans h'.looked
  reads := by rw [h'.reads, h.reads, List.append_assoc]
  held ref := by rw [h'.held, h.held, Int.add_assoc]
  clear := h'.clear

theorem Leads.mono (h : Leads pending begun reads gain s s') (hreads : reads = reads')
    (hgain : ∀ ref, gain ref = gain' ref) (hbegun : begun' → begun) :
    Leads pending begun' reads' gain' s s' where
  contexts := h.contexts
  looked := h.looked
  reads := hreads ▸ h.reads
  held ref := hgain ref ▸ h.held ref
  clear hbegun' := h.clear (hbegun hbegun')

theorem Leads.live (h : Leads pending begun reads gain s s')
    (hr : (Contexts.entry s.contexts c).realm = some r) :
    (Contexts.entry s'.contexts c).realm = some r := by
  rw [h.contexts, hr]

variable [Engine σ]

/-- What comes of a request on which the engine replies in a given way. -/
theorem ask_leads {q : Request} {reply : q.Reply} (hlooks : q.looks)
    (hreply : (Engine.answer q s.engine.engine).reply = reply)
    (hclear : begun → pending (Engine.answer q s.engine.engine).state = none) :
    ∃ s', Host.ask q s = (.ok reply, s') ∧
      s'.engine.engine = (Engine.answer q s.engine.engine).state ∧
      Leads pending begun (s.engine.exchange q).memberRead?.toList
        (fun ref => ((q.given reply).count ref : Int) - q.taken.count ref) s s' := by
  subst hreply
  obtain ⟨s', hrun, hcontexts, hengine, -⟩ := ask_eq q s
  refine ⟨s', hrun, by rw [hengine]; rfl, hcontexts, ⟨[s.engine.exchange q], by rw [hengine]; rfl, ?_⟩,
    ?_, fun ref => ?_, fun hbegun => ?_⟩
  · intro x hx
    rw [List.mem_singleton.1 hx]
    exact hlooks
  · rw [hengine]
    cases hread : (s.engine.exchange q).memberRead? <;> simp [History.memberReads, hread]
  · rw [hengine]
    exact Int.add_sub_assoc _ _ _
  · rw [hengine]
    exact hclear hbegun

section Reading

variable (T : Throwing pending) (hr : (Contexts.entry s.contexts c).realm = some r)
include T hr

/-- Taking what is pending and forgetting it mends what a request before it left behind. -/
theorem discardException_leads :
    ∃ s', Host.discardException c s = (.ok (), s') ∧ Leads pending True [] (fun _ => 0) s s' := by
  obtain ⟨v, hv⟩ : ∃ v : Value, (Engine.answer (.takeException r) s.engine.engine).reply = v :=
    ⟨_, rfl⟩
  obtain ⟨s₁, htake, -, hleads₁⟩ := ask_leads rfl hv fun _ : True => T.take_clears r _
  obtain ⟨s₂, hrelease, -, hleads₂⟩ := ask_leads (q := .release r (Ref.ofValue v)) (s := s₁) rfl rfl
    fun hclear => T.throws _ _ hclear rfl
  refine ⟨s₂, (bind_ok (live_ok hr)).trans ((bind_ok htake).trans hrelease),
    (hleads₁.trans hleads₂).mono rfl (fun ref => ?_) id⟩
  simp only [Request.given, Request.taken, Ref.flatMap_counted_ofValue, List.count_nil]
  omega

/-- Giving a value back. -/
theorem drop_leads :
    ∃ s', Host.drop ⟨c, v⟩ s = (.ok (), s') ∧ Leads pending (pending s.engine.engine = none) []
      (fun ref => -((Ref.ofValue v).count ref : Int)) s s' := by
  cases hcounted : v.isCounted with
  | false =>
      have hrun : Host.drop ⟨c, v⟩ s = (.ok (), s) := by
        unfold Host.drop
        rw [hcounted]
        rfl
      exact ⟨s, hrun, Leads.refl.mono rfl (fun ref => by simp [Ref.ofValue, hcounted]) id⟩
  | true =>
      obtain ⟨s', hrelease, -, hleads⟩ := ask_leads (q := .release r [.value v]) (s := s) rfl rfl
        fun hclear => T.throws _ _ hclear rfl
      have hrun : Host.drop ⟨c, v⟩ s = (.ok (), s') := by
        unfold Host.drop
        rw [hcounted, if_pos rfl]
        exact (bind_ok (live_ok hr)).trans hrelease
      exact ⟨s', hrun, hleads.mono rfl (fun ref => by simp [Request.given, Request.taken, Ref.counted]) id⟩

/-- The text of a value is told, and if there is none, what was thrown on that is forgotten. -/
theorem textLossy_looks :
    ∃ s', Host.textLossy ⟨c, v⟩ s = (.ok (Described.text r v s.engine.engine), s') ∧
      Looks pending [] s s' := by
  obtain ⟨t, ht⟩ : ∃ t : Option String, (Engine.answer (.toText r v) s.engine.engine).reply = t :=
    ⟨_, rfl⟩
  have htext : Described.text r v s.engine.engine = t.getD "" := congrArg (Option.getD · "") ht
  rw [htext]
  cases t with
  | some t =>
      obtain ⟨s₁, hask, -, hleads₁⟩ := ask_leads rfl ht
        fun hclear => T.throws _ _ hclear (congrArg Option.isNone ht)
      exact ⟨s₁, (bind_ok (live_ok hr)).trans (bind_ok hask),
        hleads₁.mono rfl (fun ref => by simp [Request.given, Request.taken]) id⟩
  | none =>
      obtain ⟨s₁, hask, -, hleads₁⟩ := ask_leads rfl ht fun hnever : False => hnever.elim
      obtain ⟨s₂, hdiscard, hleads₂⟩ := discardException_leads T (hleads₁.live hr)
      refine ⟨s₂, (bind_ok (live_ok hr)).trans ((bind_ok hask).trans (bind_ok hdiscard)), ?_⟩
      exact (hleads₁.mend hleads₂).mono rfl (fun ref => by simp [Request.given, Request.taken])
        fun _ => trivial

/-- The text of a member is told. -/
theorem memberText_looks (name : String) :
    ∃ s', Host.memberText ⟨c, v⟩ name s = (.ok (Described.member r v name s.engine.engine), s') ∧
      Looks pending [⟨s.engine.engine, r, v, name⟩] s s' := by
  obtain ⟨w, hw⟩ : ∃ w : Value, (Engine.answer (.getNamed r v name) s.engine.engine).reply = w :=
    ⟨_, rfl⟩
  have hmember : Described.member r v name s.engine.engine = if w = .exception ∨ w = .undefined then ""
      else Described.text r w (Engine.answer (.getNamed r v name) s.engine.engine).state := by
    subst hw
    rfl
  rw [hmember]
  by_cases hthrown : w = .exception
  · -- What was thrown on reading is forgotten.
    subst hthrown
    obtain ⟨s₁, hask, -, hleads₁⟩ := ask_leads rfl hw fun hnever : False => hnever.elim
    obtain ⟨s₂, hdiscard, hleads₂⟩ := discardException_leads T (hleads₁.live hr)
    refine ⟨s₂, (bind_ok (live_ok hr)).trans ((bind_ok hask).trans (bind_ok hdiscard)), ?_⟩
    exact (hleads₁.mend hleads₂).mono rfl (fun ref => by simp [Request.given, Request.taken])
      fun _ => trivial
  · obtain ⟨s₁, hask, hengine, hleads₁⟩ := ask_leads rfl hw
      fun hclear => T.throws _ _ hclear (hw ▸ beq_false_of_ne hthrown)
    have hr₁ := hleads₁.live hr
    have hread : Host.memberText ⟨c, v⟩ name s = _ := (bind_ok (live_ok hr)).trans (bind_ok hask)
    by_cases hundefined : w = .undefined
    · subst hundefined
      exact ⟨s₁, hread, hleads₁.mono rfl (fun ref => by simp [Request.given, Request.taken]) id⟩
    · obtain ⟨s₂, htext, hleads₂⟩ := textLossy_looks (v := w) T hr₁
      obtain ⟨s₃, hdrop, hleads₃⟩ := drop_leads (v := w) T (hleads₂.live hr₁)
      have hheld : Host.holding ⟨c, w⟩ Host.textLossy s₁ = _ :=
        (bind_ok (tryCatch_ok htext)).trans (bind_ok hdrop)
      rw [if_neg (not_or.2 ⟨hthrown, hundefined⟩), ← hengine]
      refine ⟨s₃, ?_, ((hleads₁.trans hleads₂).trans hleads₃).mono rfl (fun ref => ?_) id⟩
      · refine Eq.trans hread ?_
        cases w <;> first | exact hheld | exact absurd rfl hthrown | exact absurd rfl hundefined
      · simp only [Request.given, Request.taken, List.count_nil]
        omega

/-- Whether a value is an error is asked of objects only. -/
theorem isError_looks :
    ∃ s', Host.isError ⟨c, v⟩ s = (.ok (Described.isError r v s.engine.engine), s') ∧
      Looks pending [] s s' ∧ s'.engine.engine = if v.isObject then
        (Engine.answer (.isError r v) s.engine.engine).state else s.engine.engine := by
  unfold Host.isError Described.isError
  cases hobject : v.isObject with
  | false => exact ⟨s, rfl, .refl, rfl⟩
  | true =>
      obtain ⟨s', hask, hengine, hleads⟩ := ask_leads (q := .isError r v) (s := s) rfl rfl
        fun hclear => T.throws _ _ hclear rfl
      exact ⟨s', (bind_ok (live_ok hr)).trans hask,
        hleads.mono rfl (fun ref => by simp [Request.given, Request.taken]) id, hengine⟩

/-- A record is made of anything: of an error, what its members were when they were asked for, and of
anything else its text. -/
theorem recordOf_looks :
    ∃ d reads s', Host.recordOf ⟨c, v⟩ s = (.ok d, s') ∧ Looks pending reads s s' ∧
      d.Tells r v s.engine.engine reads := by
  unfold ExceptionRecord.Tells
  obtain ⟨s₁, herror, hleads₁, hengine⟩ := isError_looks (v := v) T hr
  have hr₁ := hleads₁.live hr
  cases hb : Described.isError r v s.engine.engine with
  | true =>
      rw [hb] at herror
      -- Each member is asked for in the state in which the one before it left the engine.
      obtain ⟨s₂, hname, hleads₂⟩ := memberText_looks (v := v) T hr₁ "name"
      have hr₂ := hleads₂.live hr₁
      obtain ⟨s₃, hmessage, hleads₃⟩ := memberText_looks (v := v) T hr₂ "message"
      have hr₃ := hleads₃.live hr₂
      obtain ⟨s₄, hcause, hleads₄⟩ := memberText_looks (v := v) T hr₃ "cause"
      have hr₄ := hleads₄.live hr₃
      obtain ⟨s₅, hstack, hleads₅⟩ := memberText_looks (v := v) T hr₄ "stack"
      have hrecord : Host.errorRecord? ⟨c, v⟩ s = _ :=
        (bind_ok herror).trans ((bind_ok hname).trans ((bind_ok hmessage).trans
          ((bind_ok hcause).trans (bind_ok hstack))))
      exact ⟨_, _, s₅, bind_ok hrecord, (((hleads₁.trans hleads₂).trans hleads₃).trans hleads₄).trans hleads₅,
        rfl, rfl⟩
  | false =>
      rw [hb] at herror
      obtain ⟨s₂, htext, hleads₂⟩ := textLossy_looks (v := v) T hr₁
      have hrecord : Host.errorRecord? ⟨c, v⟩ s = (.ok none, s₁) := bind_ok herror
      refine ⟨_, _, s₂, (bind_ok hrecord).trans (bind_ok htext), hleads₁.trans hleads₂, ?_⟩
      rw [if_neg Bool.false_ne_true, hengine]
      rfl

/-- What is pending is taken off and described, and given back. -/
theorem takeException_leads (hv : (Engine.answer (.takeException r) s.engine.engine).reply = v) :
    ∃ d reads s', Host.takeException c s = (.ok d, s') ∧
      Leads pending True reads (fun _ => 0) s s' ∧
      d.Tells r v (Engine.answer (.takeException r) s.engine.engine).state reads := by
  obtain ⟨s₁, htake, hengine, hleads₁⟩ := ask_leads rfl hv fun _ : True => T.take_clears r _
  obtain ⟨d, reads, s₂, hrecord, hleads₂, hd⟩ := recordOf_looks (v := v) T (hleads₁.live hr)
  obtain ⟨s₃, hdrop, hleads₃⟩ := drop_leads (v := v) T (hleads₂.live (hleads₁.live hr))
  rw [hengine] at hd
  refine ⟨d, reads, s₃, (bind_ok (live_ok hr)).trans ((bind_ok htake).trans
    ((bind_ok (tryCatch_ok hrecord)).trans (bind_ok hdrop))), ?_, hd⟩
  refine ((hleads₁.trans hleads₂).trans hleads₃).mono (List.append_nil _) (fun ref => ?_) id
  simp only [Request.given, Request.taken, List.count_nil]
  omega

end Reading

/-! ## Whatever was thrown -/

/-- A record is made of whatever was thrown, whatever the engine does on being asked.  Of an error of
the engine's own it tells what each member was when it was asked for, and nothing where a member is
undefined, where reading it throws or where what was read has no text; of anything else it tells the
text, if there is one.  In the end nothing is pending, and the host holds no more than it did. -/
theorem thrown_described (T : Throwing pending) {s : Host σ} {c : ContextId} {r : RealmId} {v : Value}
    (hr : (Contexts.entry s.contexts c).realm = some r) (hthrown : pending s.engine = some v) :
    let e := (Engine.answer (.takeException r) s.engine).state
    ∃ d s', Host.takeException c s.recorded = (.ok d, s') ∧
      d.Tells r v e s'.engine.history.memberReads ∧
      pending s'.engine.engine = none ∧ ∀ ref, History.held ref s'.engine.history = 0 := by
  have hv : (Engine.answer (.takeException r) s.recorded.engine.engine).reply = v := by
    rw [T.take_reply]
    exact hthrown ▸ rfl
  obtain ⟨d, reads, s', hrun, hleads, hd⟩ := takeException_leads (s := s.recorded) T hr hv
  refine ⟨d, s', hrun, ?_, hleads.clear trivial, fun ref => ?_⟩
  · rw [hleads.reads]
    exact hd
  · rw [hleads.held]
    rfl

/-- A host on whose engine an error is pending.  Its name is a symbol, it inherits a message that is a
number, it has no cause, and its stack is an object without a prototype. -/
def throwingHost : Host ScriptEngine :=
  let members := #[(Key.str "name", Property.plain (.symbol 0)),
    (Key.str "stack", Property.plain (.object 2))]
  let inherited := #[(Key.str "message", Property.plain (.int 7))]
  let thrown : Obj := { body := .error, proto := some 1, props := { members } }
  { engine := { machine := { heap := #[thrown, { props := { members := inherited } }, {}], realms := #[{}] }
                pending := some (.object 0) }
    contexts := (∅ : Contexts).insert 0 { realm := some 0 } }

/-- Neither a symbol nor an object without a prototype has a text, and the engine throws when it is
asked for one; the message is told all the same. -/
theorem thrown_described_error :
    ∃ s', Host.takeException 0 throwingHost.recorded = (.ok { message := "7" }, s') ∧
      ExceptionRecord.Describes 0 (.object 0) s'.engine.history.memberReads { message := "7" } ∧
      s'.engine.engine.pending = none := by
  have htold : (Host.takeException 0 throwingHost.recorded).1.toOption =
      some { message := "7" } := by decide +kernel
  obtain ⟨d, s', hrun, hd, hclear, -⟩ := thrown_described ScriptEngine.throwing (s := throwingHost)
    (c := 0) (r := 0) (v := .object 0) rfl rfl
  rw [hrun] at htold
  cases htold
  exact ⟨s', hrun, hd, hclear⟩

end Host

end ScriptHost
