import ScriptHost.Client.Memory
import ScriptHost.Proofs.Frames
/-!
# Views lie in the memory that was shown

The host forms a view from a place that it was told and from memory that it is shown.  As long as the
engine does not change its mind on whether the value is a buffer, both are of the same buffer, and the
view lies in the memory.  If it does, the place may be a number that a script chose.
-/

namespace ScriptHost

open Accounting (bind_ok bind_error bind_inv context_ok live_ok live_error ask_eq tryCatch_ok tryCatch_error)

variable {σ : Type} [Engine σ]

/-! ## Histories -/

namespace HostFrame

/-- What was asked before stays in the history, and the table of contexts stays as it is. -/
def recording : HostFrame (Recorded σ) where
  rel s s' := s.engine.history <:+ s'.engine.history ∧ s'.contexts = s.contexts
  refl s := ⟨List.suffix_rfl, rfl⟩
  trans h₁ h₂ := ⟨h₁.1.trans h₂.1, h₂.2.trans h₁.2⟩
  ask q s := by
    obtain ⟨s', hrun, hcontexts, hengine, -⟩ := ask_eq q s
    rw [hrun]
    refine ⟨?_, hcontexts⟩
    rw [hengine]
    exact List.suffix_cons _ _
  pin _ _ := ⟨List.suffix_rfl, rfl⟩
  unpin _ _ := ⟨List.suffix_rfl, rfl⟩

theorem Within.grows {α : Type} {x : Action (Recorded σ) α} (hx : recording.Within x)
    {s s' : Host (Recorded σ)} {a : Except Stop α} (hrun : x s = (a, s')) :
    s.engine.history <:+ s'.engine.history ∧ s'.contexts = s.contexts := by
  have hrel := hx s
  rwa [hrun] at hrel

end HostFrame

open HostFrame (recording)

namespace History

variable {history : History σ} {v : SharedBytes}

omit [Engine σ] in
/-- A request that shows no memory leaves what was shown last. -/
theorem Covers.cons {x : Exchange σ} (hx : x.shown? = none) (h : history.Covers v) :
    History.Covers v (x :: history) := by
  obtain ⟨m, hm, hv⟩ := h
  refine ⟨m, ?_, hv⟩
  rw [shown?, List.findSome?_cons, hx]
  exact hm

end History

namespace Host

variable {s s' : Host (Recorded σ)} {h : Handle} {α β : Type}

/-! ## Requests -/

omit [Engine σ] in
/-- What gave a result has got through its first step, and the rest ended as the whole did. -/
theorem bind_eq_ok {x : Action σ α} {f : α → Action σ β} {t t' : Host σ} {b : β}
    (hrun : (x >>= f) t = (.ok b, t')) : ∃ a u, x t = (.ok a, u) ∧ f a u = (.ok b, t') := by
  obtain ⟨a, u, hx, -⟩ := Accounting.bind_inv (congrArg Prod.fst hrun)
  exact ⟨a, u, hx, (bind_ok hx).symm.trans hrun⟩

omit [Engine σ] in
theorem live_eq_ok {t t' : Host σ} {c : ContextId} {r : RealmId}
    (hrun : live c t = (.ok r, t')) : t' = t := by
  cases hr : (Contexts.entry t.contexts c).realm with
  | some _ =>
      rw [live_ok hr] at hrun
      exact (congrArg Prod.snd hrun).symm
  | none =>
      rw [live_error hr] at hrun
      cases hrun

/-- A request that was answered is the newest exchange. -/
theorem ask_eq_ok {q : Request} {reply : q.Reply} (hrun : ask q s = (.ok reply, s')) :
    reply = (Engine.answer q s.engine.engine).reply ∧
      s'.engine = (Engine.answer q s.engine).state := by
  obtain ⟨t, hask, -, hengine, -⟩ := ask_eq q s
  rw [hask] at hrun
  cases hrun
  exact ⟨rfl, hengine⟩

/-- A request in a live context that was answered is the newest exchange. -/
theorem asked_eq_ok {c : ContextId} {q : RealmId → Request} {f : ∀ r, (q r).Reply → Action (Recorded σ) α}
    {a : α} (hrun : (do
      let r ← live c
      let reply ← ask (q r)
      f r reply : Action (Recorded σ) α) s = (.ok a, s')) :
    ∃ r t, t.engine = (Engine.answer (q r) s.engine).state ∧
      f r (Engine.answer (q r) s.engine.engine).reply t = (.ok a, s') := by
  obtain ⟨r, t, hlive, hrun⟩ := bind_eq_ok hrun
  cases live_eq_ok hlive
  obtain ⟨reply, u, hask, hrun⟩ := bind_eq_ok hrun
  obtain ⟨rfl, hengine⟩ := ask_eq_ok hask
  exact ⟨r, u, hengine, hrun⟩

theorem orThrow_eq_ok {c : ContextId} {reply : Option α} {a : α}
    (hrun : orThrow c reply s = (.ok a, s')) : s' = s ∧ reply = some a := by
  cases reply with
  | some b =>
      cases hrun
      exact ⟨rfl, rfl⟩
  | none =>
      obtain ⟨_, _, -, hfail⟩ := bind_eq_ok hrun
      cases hfail

theorem orViolation_eq_ok {c : ContextId} {operation : String} {reply : Option α} {a : α}
    (hrun : orViolation c operation reply s = (.ok a, s')) : s' = s ∧ reply = some a := by
  cases reply with
  | some b =>
      cases hrun
      exact ⟨rfl, rfl⟩
  | none =>
      obtain ⟨_, _, -, hfail⟩ := bind_eq_ok hrun
      cases hfail

/-! ## What the host was told -/

/-- Whether an object is an instance of a constructor is found by asking the engine. -/
theorem isInstance_told {f : Value} {b : Bool} (hrun : isInstance h f s = (.ok b, s'))
    (hobjects : h.value.isObject && f.isObject) :
    ∃ x ∈ s'.engine.history, x.verdict? h.value f = some b := by
  unfold isInstance at hrun
  rw [if_pos hobjects] at hrun
  obtain ⟨r, t, ht, hrest⟩ := asked_eq_ok (q := fun r => .isInstance r h.value f) hrun
  let x : Exchange σ := s.engine.exchange (.isInstance r h.value f)
  have hmem : x ∈ t.engine.history := by
    rw [ht]
    exact List.mem_cons_self
  have hverdict : x.verdict? h.value f = some (Option.getD (α := Bool) x.reply false) :=
    if_pos ⟨rfl, rfl⟩
  cases hreply : (Engine.answer (.isInstance r h.value f) s.engine.engine).reply with
  | some answer =>
      rw [hreply] at hrest
      cases hrest
      exact ⟨x, hmem, hverdict.trans (congrArg (fun b => some (Option.getD b false)) hreply)⟩
  | none =>
      -- An engine that cannot tell leaves something to be discarded, which adds to the history only.
      rw [hreply] at hrest
      obtain ⟨_, u, hdiscard, hrest⟩ := bind_eq_ok hrest
      cases hrest
      have hgrows := (HostFrame.discardException_within.grows hdiscard).1
      exact ⟨x, hgrows.subset hmem,
        hverdict.trans (congrArg (fun b => some (Option.getD b false)) hreply)⟩

/-- Only objects are instances, and only of objects. -/
theorem isInstance_objects {f : Value} (hrun : isInstance h f s = (.ok true, s')) :
    h.value.isObject && f.isObject := by
  unfold isInstance at hrun
  split at hrun
  next hobjects => exact hobjects
  next => cases hrun

theorem isArrayBuffer_eq : (isArrayBuffer h s : Except Stop Bool × Host (Recorded σ)) =
    isInstance h (Contexts.entry s.contexts h.context).cache.buffer s :=
  bind_ok (context_ok h.context s)

/-- A view of a buffer begins where it was asked to, in the memory that the engine shows. -/
theorem byteViewOf_told {offset : Nat} {length : Option Nat} {v : SharedBytes}
    (hrun : byteViewOf h offset length s = (.ok v, s')) :
    ∃ r m, s'.engine = (Engine.answer (.bufferRegion r h.value) s.engine).state ∧
      (Engine.answer (.bufferRegion r h.value) s.engine.engine).reply = some m ∧
      v = ⟨m.id, offset, length.getD m.size⟩ := by
  obtain ⟨r, t, ht, hrest⟩ := asked_eq_ok (q := fun r => .bufferRegion r h.value) hrun
  obtain ⟨m, u, hm, hview⟩ := bind_eq_ok hrest
  obtain ⟨rfl, hreply⟩ := orThrow_eq_ok hm
  cases hview
  exact ⟨r, m, ht, hreply, rfl⟩

/-- Either a value was found to be a buffer, which is looked at from its start on, or the engine was
asked last what the value looks at. -/
theorem arrayInfo_told {i : ArrayInfo} (hrun : arrayInfo h s = (.ok i, s')) :
    (i.offset = 0 ∧ (h.value.isObject && (Contexts.entry s.contexts h.context).cache.buffer.isObject) ∧
      ∃ x ∈ s'.engine.history,
        x.verdict? h.value (Contexts.entry s.contexts h.context).cache.buffer = some true) ∨
    ∃ (t : Recorded σ) (r : RealmId) (w : ViewInfo),
      s'.engine = (Engine.answer (.viewInfo r h.value) t).state ∧
      (Engine.answer (.viewInfo r h.value) t.engine).reply = some w ∧
      i = ⟨⟨h.context, w.buffer⟩, w.offset, w.length, w.elementSize⟩ := by
  obtain ⟨isBuffer, t, hbuffer, hrun⟩ := bind_eq_ok hrun
  rw [isArrayBuffer_eq] at hbuffer
  -- Which of the two it is depends on the answer to whether it is a buffer.
  cases isBuffer with
  | true =>
      left
      obtain ⟨n, u, hlength, hrun⟩ := bind_eq_ok hrun
      obtain ⟨d, u', hdupe, hrun⟩ := bind_eq_ok hrun
      cases hrun
      have hgrows := (HostFrame.length_within.grows hlength).1.trans
        (HostFrame.dupe_within.grows hdupe).1
      have hobjects := isInstance_objects hbuffer
      obtain ⟨x, hx, hverdict⟩ := isInstance_told hbuffer hobjects
      exact ⟨rfl, hobjects, x, hgrows.subset hx, hverdict⟩
  | false =>
      right
      obtain ⟨kind, u, hkind, hrun⟩ := bind_eq_ok hrun
      split at hrun
      next =>
        obtain ⟨_, _, -, hfail⟩ := bind_eq_ok hrun
        cases hfail
      next =>
        obtain ⟨r, u', hu', hrest⟩ := asked_eq_ok (q := fun r => .viewInfo r h.value) hrun
        obtain ⟨w, u'', hw, hinfo⟩ := bind_eq_ok hrest
        obtain ⟨rfl, hreply⟩ := orViolation_eq_ok hw
        cases hinfo
        exact ⟨u.engine, r, w, hu', hreply, rfl⟩

/-! ## Views -/

omit [Engine σ] in
/-- What was done with a handle gave the result, and then the handle was dropped. -/
theorem holding_eq_ok [Engine σ] {t t' : Host σ} {f : Handle → Action σ α} {a : α}
    (hrun : holding h f t = (.ok a, t')) :
    ∃ u, f h t = (.ok a, u) ∧ drop h u = (.ok (), t') := by
  obtain ⟨b, u, htry, hrun⟩ := bind_eq_ok hrun
  obtain ⟨_, u', hdrop, hpure⟩ := bind_eq_ok hrun
  cases hpure
  refine ⟨u, ?_, hdrop⟩
  rcases hf : f h t with ⟨e | b, w⟩
  · rw [tryCatch_error hf] at htry
    obtain ⟨_, _, -, hthrow⟩ := bind_eq_ok htry
    cases hthrow
  · rwa [tryCatch_ok hf] at htry

/-- Giving a handle back shows no memory. -/
theorem drop_covers {v : SharedBytes} (hrun : drop h s = (.ok (), s'))
    (hv : s.engine.history.Covers v) : s'.engine.history.Covers v := by
  unfold drop at hrun
  split at hrun
  · obtain ⟨r, t, hlive, hask⟩ := bind_eq_ok hrun
    cases live_eq_ok hlive
    rw [(ask_eq_ok hask).2]
    exact hv.cons rfl
  · cases hrun
    exact hv

/-- A view lies in the memory that is shown of a buffer if its place is within the bytes of that
buffer. -/
theorem byteViewOf_covers {bytes : σ → Value → Option Nat} {offset : Nat} {length : Option Nat}
    {v : SharedBytes} (hrun : byteViewOf h offset length s = (.ok v, s'))
    (hmeasured : ∀ x ∈ s'.engine.history, x.IsMeasured bytes)
    (hbound : ∀ n ∈ bytes s.engine.engine h.value, offset + length.getD n ≤ n) :
    s'.engine.history.Covers v := by
  obtain ⟨r, m, hs', hreply, rfl⟩ := byteViewOf_told hrun
  let x : Exchange σ := s.engine.exchange (.bufferRegion r h.value)
  have hnewest : s'.engine.history = x :: s.engine.history := by
    rw [hs']
    rfl
  rw [hnewest] at hmeasured ⊢
  have hshown : x.shown? = some (h.value, m) := congrArg (Option.map (h.value, ·)) hreply
  have hsize : bytes s.engine.engine h.value = some m.size :=
    (hmeasured x List.mem_cons_self).1 _ hshown
  refine ⟨m, ?_, rfl, hbound m.size hsize⟩
  rw [History.shown?, List.findSome?_cons, hshown]
  rfl

/-- What a typed array looks at is told of its buffer, unless the value is found to be a buffer
itself. -/
theorem arrayView_covers {bytes : σ → Value → Option Nat} {v : SharedBytes}
    (hrun : (do
      let i ← arrayInfo h
      holding i.buffer fun b => byteViewOf b i.offset (some i.length)) s = (.ok v, s'))
    (hmeasured : ∀ x ∈ s'.engine.history, x.IsMeasured bytes) :
    s'.engine.history.Covers v ∨ v.offset = 0 ∧
      (h.value.isObject && (Contexts.entry s.contexts h.context).cache.buffer.isObject) ∧
        ∃ x ∈ s'.engine.history,
          x.verdict? h.value (Contexts.entry s.contexts h.context).cache.buffer = some true := by
  obtain ⟨i, t, hinfo, hrun⟩ := bind_eq_ok hrun
  obtain ⟨u, hview, hdrop⟩ := holding_eq_ok hrun
  have hview_grows := (HostFrame.byteViewOf_within.grows hview).1
  have hdrop_grows := (HostFrame.drop_within.grows hdrop).1
  rcases arrayInfo_told hinfo with ⟨hoffset, hobjects, x, hx, hyes⟩ | ⟨e, r, w, ht, hw, rfl⟩
  · obtain ⟨_, m, -, -, rfl⟩ := byteViewOf_told hview
    exact .inr ⟨hoffset, hobjects, x, (hview_grows.trans hdrop_grows).subset hx, hyes⟩
  · -- The engine is asked of the buffer right after it told of the typed array.
    left
    refine drop_covers hdrop (byteViewOf_covers hview
      (fun x hx => hmeasured x (hdrop_grows.subset hx)) fun n hn => ?_)
    have hmem : e.exchange (.viewInfo r h.value) ∈ s'.engine.history := by
      refine (hview_grows.trans hdrop_grows).subset ?_
      rw [ht]
      exact List.mem_cons_self
    obtain ⟨n', hn', hle⟩ := (hmeasured _ hmem).2 w hw
    rw [ht] at hn
    cases Option.some.inj (hn'.symm.trans hn)
    exact hle

/-- A view lies in the memory that was shown last, or it begins at the start of a value that was found
to be a buffer though it had been found to be none. -/
theorem byteView_covers {bytes : σ → Value → Option Nat} {v : SharedBytes}
    (hrun : byteView h s = (.ok v, s')) (hmeasured : ∀ x ∈ s'.engine.history, x.IsMeasured bytes) :
    s'.engine.history.Covers v ∨ v.offset = 0 ∧
      ¬s'.engine.history.Agrees h.value (Contexts.entry s.contexts h.context).cache.buffer := by
  obtain ⟨isBuffer, t, hbuffer, hrun⟩ := bind_eq_ok hrun
  have hfound := hbuffer
  rw [isArrayBuffer_eq] at hfound
  cases isBuffer with
  | true =>
      refine .inl (byteViewOf_covers hrun hmeasured fun n _ => ?_)
      rw [Option.getD_none, Nat.zero_add]
  | false =>
      obtain ⟨kind, u, hkind, hrun⟩ := bind_eq_ok hrun
      have hfound_grows := HostFrame.isCached_within.grows hbuffer
      have hkind_grows := HostFrame.elementKind_within.grows hkind
      split at hrun
      next =>
        have hgrows : u.engine.history <:+ s'.engine.history :=
          ((HostFrame.arrayInfo_within.bind fun i => HostFrame.byteViewOf_within.holding).grows
            hrun).1
        have hcontexts : u.contexts = s.contexts := hkind_grows.2.trans hfound_grows.2
        rcases arrayView_covers hrun hmeasured with hcovers | ⟨hoffset, hobjects, x, hx, hyes⟩
        · exact .inl hcovers
        · -- The value had been found to be no buffer, for else it would not have come to this.
          rw [hcontexts] at hobjects hyes
          obtain ⟨y, hy, hno⟩ := isInstance_told hfound hobjects
          have hy' : y ∈ s'.engine.history := (hkind_grows.1.trans hgrows).subset hy
          exact .inr ⟨hoffset, fun hagrees => hagrees x hx y hy' hyes hno⟩
      next =>
        obtain ⟨_, _, -, hfail⟩ := bind_eq_ok hrun
        cases hfail

/-- What comes of looking at the bytes of a value, whatever its engine says of what the value is.
Where a view is formed it lies in the memory that the engine showed last, and so do the bytes that are
copied out; only the bytes at the very start of a value that was found to be a buffer, though it had
been found to be none, may reach beyond. -/
theorem views_lie_in_shown_memory {bytes : σ → Value → Option Nat} (s : Host σ) (h : Handle) :
    (∀ v s', byteView h s.recorded = (.ok v, s') →
      (∀ x ∈ s'.engine.history, x.IsMeasured bytes) →
        s'.engine.history.Covers v ∨ v.offset = 0 ∧
          ¬s'.engine.history.Agrees h.value (Contexts.entry s.contexts h.context).cache.buffer) ∧
    ∀ b s', toByteArray h s.recorded = (.ok b, s') →
      (∀ x ∈ s'.engine.history, x.IsMeasured bytes) →
        ∃ (v : SharedBytes) (e : Recorded σ),
          s'.engine = (Engine.answer (.readRegion v.region v.offset v.length) e).state ∧
          b = (Engine.answer (.readRegion v.region v.offset v.length) e.engine).reply ∧
          (e.history.Covers v ∨ v.offset = 0 ∧
            ¬e.history.Agrees h.value (Contexts.entry s.contexts h.context).cache.buffer) := by
  refine ⟨fun v s' hrun hmeasured => byteView_covers hrun hmeasured, ?_⟩
  intro b s' hrun hmeasured
  obtain ⟨v, t, hview, hread⟩ := bind_eq_ok hrun
  obtain ⟨hb, ht⟩ := ask_eq_ok hread
  have hgrows : t.engine.history <:+ s'.engine.history := by
    rw [ht]
    exact List.suffix_cons _ _
  exact ⟨v, t.engine, ht, hb,
    byteView_covers hview fun x hx => hmeasured x (hgrows.subset hx)⟩

/-- A host with one context, in which a buffer of four bytes has a typed array over its last two. -/
def halvedHost : Host ScriptEngine :=
  let constructor (prototype : Nat) : Obj :=
    { body := .native { family := .constructors, index := 0 } 0
      props := { members := #[(Key.str "prototype", .plain (.object prototype))] } }
  { engine := { machine :=
      { heap := #[
          { body := .buffer { region := some 0, length := 4 }, proto := some 1 }, {},
          { body := .typed ⟨.uint16, 0, 2, 2, false, 1, some 0⟩, proto := some 3 }, {},
          constructor 1, constructor 3]
        regions := #[⟨#[1, 2, 3, 4]⟩], realms := #[{}] } }
    contexts := (∅ : Contexts).insert 0
      { realm := some 0
        cache :=
          { buffer := .object 4
            elements := fun k => if k = .uint16 then .object 5 else .undefined } } }

/-- The typed array looks at the last two of the four bytes that are shown of the buffer. -/
theorem views_lie_in_shown_memory_halved :
    ∃ s', byteView ⟨0, .object 2⟩ halvedHost.recorded = (.ok ⟨0, 2, 2⟩, s') ∧
      (∀ x ∈ s'.engine.history, x.IsMeasured ScriptEngine.bufferBytes) ∧
      s'.engine.history.shown? = some ⟨0, 4⟩ ∧ s'.engine.history.Covers ⟨0, 2, 2⟩ := by
  have hrun : byteView ⟨0, .object 2⟩ halvedHost.recorded =
      (.ok ⟨0, 2, 2⟩, (byteView ⟨0, .object 2⟩ halvedHost.recorded).2) := by
    refine Prod.fst_eq_iff.1 ?_
    decide +kernel
  have hmeasured : ∀ x ∈ (byteView ⟨0, .object 2⟩ halvedHost.recorded).2.engine.history,
      x.IsMeasured ScriptEngine.bufferBytes := by decide +kernel
  have hcovers := (views_lie_in_shown_memory halvedHost ⟨0, .object 2⟩).1 _ _ hrun hmeasured
  -- The view does not begin at the start.
  exact ⟨_, hrun, hmeasured, by decide +kernel, hcovers.resolve_right nofun⟩

/-- A host with one context, in which scripts have a say in what a value is.  There is a buffer of no
bytes with a length of its own.  The constructor of buffers answers whether null is in a set, and the
constructor of a kind of typed arrays puts it there. -/
def waveringHost : Host ScriptEngine :=
  let native (family : Family) (index : Nat) (members : Array (Key × Property)) : Obj :=
    { body := .native { family := family, index := index } 0, props := { members := members } }
  let hook (f : Nat) : Array (Key × Property) :=
    #[(.symbol WellKnown.hasInstance, .plain (.object f))]
  { engine := { machine :=
      { heap := #[
          { body := .buffer { region := some 0 }
            props := { members := #[(Key.str "length", .plain (.int 1))] } },
          { body := .set #[] 0 },
          native .setPrototype 0 #[], { body := .bound (.object 2) (.object 1) #[.null] },
          native .setPrototype 1 #[], { body := .bound (.object 4) (.object 1) #[.null] },
          native .constructors 27 (hook 5), native .constructors 30 (hook 3)]
        regions := #[⟨#[0]⟩], realms := #[{}] } }
    contexts := (∅ : Contexts).insert 0
      { realm := some 0
        cache :=
          { buffer := .object 6
            elements := fun k => if k = .uint8Clamped then .object 7 else .undefined
            length := Key.str "length" } } }

/-- A view is formed that reaches beyond the memory of the buffer, though all that the engine said of
memory is so. -/
theorem view_beyond_memory :
    ∃ v s', byteView ⟨0, .object 0⟩ waveringHost.recorded = (.ok v, s') ∧
      (∀ x ∈ s'.engine.history, x.IsMeasured ScriptEngine.bufferBytes) ∧
      s'.engine.history.shown? = some ⟨0, 0⟩ ∧ v.length = 1 ∧ ¬s'.engine.history.Covers v := by
  refine ⟨⟨0, 0, 1⟩, (byteView ⟨0, .object 0⟩ waveringHost.recorded).2, Prod.fst_eq_iff.1 ?_, ?_, ?_,
    rfl, ?_⟩
  all_goals decide +kernel

end Host

end ScriptHost
