import Mathlib
import ScriptHost.Client.Process
import ScriptHost.Proofs.Counting
import ScriptHost.Proofs.Clients
/-!
# The table of lent memory is exact

What is pinned is what engines took and can still touch, with the address and the length that it was
lent with, each piece under a token of its own.  This holds of every process whose engines deal with
lent memory as they should, as long as the tokens do not run around.
-/

namespace ScriptHost

/-- What a runtime has to do with lent memory. -/
structure Holding where
  /-- The tokens of the memory that its engine can touch. -/
  touched : Finset Token
  /-- All the memory that its engine took, with its tokens. -/
  taken : List (Token × PinnedRegion)

/-- The tokens of the memory that an engine took. -/
def Holding.tokens (x : Holding) : List Token := x.taken.map Prod.fst

namespace Pins

/-- The pinned regions are those that runtimes took and can touch, and no two pieces of memory that
were taken have the same token. -/
structure Exact (p : Pins) (xs : List Holding) : Prop where
  pinned : ∀ t r, p.region? t = some r ↔ ∃ x ∈ xs, t ∈ x.touched ∧ (t, r) ∈ x.taken
  known : ∀ x ∈ xs, ∀ t ∈ x.touched, t ∈ x.tokens
  drawn : ∀ x ∈ xs, ∀ t ∈ x.tokens, 0 < t.toNat ∧ t.toNat ≤ p.drawn
  distinct : (xs.flatMap Holding.tokens).Nodup

variable {p q : Pins} {xs ys : List Holding} {x : Holding}

/-! ## The same regions -/

theorem Exact.perm (h : p.Exact xs) (hperm : xs.Perm ys) : p.Exact ys where
  pinned t r := by
    rw [h.pinned]
    simp only [hperm.mem_iff]
  known y hy := h.known y (hperm.mem_iff.2 hy)
  drawn y hy := h.drawn y (hperm.mem_iff.2 hy)
  distinct := (hperm.flatMap_right _).nodup_iff.1 h.distinct

theorem Exact.congr (h : p.Exact xs) (hsame : q.region? = p.region?) (hle : p.drawn ≤ q.drawn) :
    q.Exact xs where
  pinned t r := by rw [hsame, h.pinned]
  known := h.known
  drawn y hy t ht := ⟨(h.drawn y hy t ht).1, Nat.le_trans (h.drawn y hy t ht).2 hle⟩
  distinct := h.distinct

/-- A region that is pinned has a token. -/
theorem Exact.ne_zero (h : p.Exact xs) {t : Token} {r : PinnedRegion}
    (hr : p.region? t = some r) : t ≠ 0 := by
  rintro rfl
  obtain ⟨x, hx, -, hmem⟩ := (h.pinned 0 r).1 hr
  exact absurd (h.drawn x hx 0 (List.mem_map_of_mem hmem)).1 (by decide)

/-- What a runtime can touch is pinned. -/
theorem Exact.isSome (h : p.Exact xs) (hx : x ∈ xs) {t : Token} (ht : t ∈ x.touched) :
    (p.region? t).isSome := by
  obtain ⟨⟨u, r⟩, hmem, rfl⟩ := List.mem_map.1 (h.known x hx t ht)
  exact Option.isSome_iff_exists.2 ⟨r, (h.pinned u r).2 ⟨x, hx, ht, hmem⟩⟩

/-- Two runtimes do not take memory under the same token. -/
theorem Exact.apart (h : p.Exact (x :: xs)) {y : Holding} (hy : y ∈ xs) {t : Token}
    (hx : t ∈ x.tokens) : t ∉ y.tokens := by
  intro ht
  have hdistinct := h.distinct
  rw [List.flatMap_cons] at hdistinct
  exact (List.nodup_append.1 hdistinct).2.2 t hx t (List.mem_flatMap.2 ⟨y, hy, ht⟩) rfl

/-! ## Changes -/

/-- A runtime that took nothing yet. -/
theorem Exact.launch (h : p.Exact xs) : p.Exact (⟨∅, []⟩ :: xs) where
  pinned t r := by
    rw [h.pinned]
    simp
  known := by
    intro y hy t ht
    rcases List.mem_cons.1 hy with rfl | hy
    · cases ht
    · exact h.known y hy t ht
  drawn := by
    intro y hy t ht
    rcases List.mem_cons.1 hy with rfl | hy
    · cases ht
    · exact h.drawn y hy t ht
  distinct := h.distinct

/-- Memory is lent under a token that was not drawn before. -/
theorem Exact.lend (h : p.Exact (x :: xs)) (hdrawn : p.drawn < tokenLimit) (length : Nat) :
    (p.lend length).Exact
      (⟨insert p.next x.touched, (p.next, p.fresh length) :: x.taken⟩ :: xs) := by
  have hnext : p.next.toNat = p.drawn + 1 := toNat_next hdrawn
  have hnew : ∀ y ∈ x :: xs, p.next ∉ y.tokens := by
    intro y hy hmem
    have hle := (h.drawn y hy p.next hmem).2
    omega
  refine ⟨fun t r => ?_, ?_, ?_, ?_⟩
  · rw [region?_lend]
    by_cases ht : p.next = t
    · subst ht
      have hother : ∀ y ∈ x :: xs, (p.next, r) ∉ y.taken := fun y hy hmem =>
        hnew y hy (List.mem_map_of_mem hmem)
      have hx := hother x List.mem_cons_self
      have hxs : ∀ y ∈ xs, (p.next, r) ∉ y.taken := fun y hy =>
        hother y (List.mem_cons_of_mem _ hy)
      rw [if_pos rfl]
      constructor
      · rintro heq
        cases heq
        exact ⟨_, List.mem_cons_self, Finset.mem_insert_self _ _, List.mem_cons_self⟩
      · rintro ⟨y, hy, -, hmem⟩
        rcases List.mem_cons.1 hy with rfl | hy
        · rcases List.mem_cons.1 hmem with heq | hmem
          · rw [(Prod.mk.inj heq).2]
          · exact absurd hmem hx
        · exact absurd hmem (hxs y hy)
    · rw [if_neg ht, h.pinned]
      simp [Ne.symm ht]
  · intro y hy t ht
    rcases List.mem_cons.1 hy with rfl | hy
    · rcases Finset.mem_insert.1 ht with rfl | ht
      · exact List.mem_cons_self
      · exact List.mem_cons_of_mem _ (h.known x List.mem_cons_self t ht)
    · exact h.known y (List.mem_cons_of_mem _ hy) t ht
  · have hold : ∀ y ∈ x :: xs, ∀ t ∈ y.tokens, 0 < t.toNat ∧ t.toNat ≤ p.drawn + 1 := by
      intro y hy t ht
      obtain ⟨hpos, hle⟩ := h.drawn y hy t ht
      exact ⟨hpos, Nat.le_succ_of_le hle⟩
    intro y hy t ht
    rcases List.mem_cons.1 hy with rfl | hy
    · rcases List.mem_cons.1 ht with rfl | ht
      · exact ⟨by rw [hnext]; exact Nat.succ_pos _, Nat.le_of_eq hnext⟩
      · exact hold x List.mem_cons_self t ht
    · exact hold y (List.mem_cons_of_mem _ hy) t ht
  · -- The new token differs from all that were drawn.
    have hnone : p.next ∉ (x :: xs).flatMap Holding.tokens := by
      intro hmem
      obtain ⟨y, hy, hmem⟩ := List.mem_flatMap.1 hmem
      exact hnew y hy hmem
    exact List.nodup_cons.2 ⟨hnone, h.distinct⟩

/-- Memory is given back that the runtime could touch. -/
theorem Exact.takeBacks (h : p.Exact (x :: xs)) {ts : List Token}
    (hts : ∀ t ∈ ts, t ∈ x.touched) :
    (ts.foldl takeBack p).Exact (⟨x.touched \ ts.toFinset, x.taken⟩ :: xs) := by
  refine ⟨fun t r => ?_, ?_, ?_, h.distinct⟩
  · rw [region?_takeBacks, without]
    constructor
    · intro hr
      split at hr
      next => cases hr
      next hstays =>
        have ht : t ∉ ts := fun hmem => hstays ⟨hmem, h.ne_zero hr⟩
        obtain ⟨y, hy, htouched, hmem⟩ := (h.pinned t r).1 hr
        rcases List.mem_cons.1 hy with rfl | hy
        · exact ⟨_, List.mem_cons_self, by simp [htouched, ht], hmem⟩
        · exact ⟨y, List.mem_cons_of_mem _ hy, htouched, hmem⟩
    · rintro ⟨y, hy, htouched, hmem⟩
      rcases List.mem_cons.1 hy with rfl | hy
      · obtain ⟨htouched, ht⟩ := Finset.mem_sdiff.1 htouched
        rw [if_neg fun hgone => ht (List.mem_toFinset.2 hgone.1)]
        exact (h.pinned t r).2 ⟨x, List.mem_cons_self, htouched, hmem⟩
      · -- What another runtime took has a token of its own, so it is not given back here.
        have ht : t ∉ ts := fun hgone =>
          h.apart hy (h.known x List.mem_cons_self t (hts t hgone)) (List.mem_map_of_mem hmem)
        rw [if_neg fun hgone => ht hgone.1]
        exact (h.pinned t r).2 ⟨y, List.mem_cons_of_mem _ hy, htouched, hmem⟩
  · intro y hy t ht
    rcases List.mem_cons.1 hy with rfl | hy
    · exact h.known x List.mem_cons_self t (Finset.mem_sdiff.1 ht).1
    · exact h.known y (List.mem_cons_of_mem _ hy) t ht
  · intro y hy t ht
    rw [drawn_takeBacks]
    rcases List.mem_cons.1 hy with rfl | hy
    · exact h.drawn x List.mem_cons_self t ht
    · exact h.drawn y (List.mem_cons_of_mem _ hy) t ht

/-- A call back for what no runtime can touch changes nothing. -/
theorem Exact.callback (h : p.Exact xs) {t : Token} (ht : ∀ x ∈ xs, t ∉ x.touched) :
    (p.takeBack t).Exact xs := by
  have hidle : p.region? t = none := by
    cases hr : p.region? t with
    | none => rfl
    | some r =>
        obtain ⟨x, hx, htouched, -⟩ := (h.pinned t r).1 hr
        exact absurd htouched (ht x hx)
  refine h.congr ?_ (by rw [drawn_takeBack])
  funext u
  rw [region?_takeBack, without]
  split
  next hu => rw [List.mem_singleton.1 hu.1, hidle]
  next => rfl

/-! ## How many there are -/

/-- As many regions are pinned as the runtimes can touch. -/
theorem Exact.live_eq (h : p.Exact xs) : p.live = (xs.map fun x => x.touched.card).sum := by
  have hdistinct : (xs.flatMap fun x => x.touched.toList).Nodup := by
    rw [List.nodup_flatMap]
    refine ⟨fun x _ => x.touched.nodup_toList, ?_⟩
    have hapart := (List.nodup_flatMap.1 h.distinct).2
    refine hapart.imp_of_mem fun hx hy hdisjoint => ?_
    intro t htx hty
    exact hdisjoint (h.known _ hx t (Finset.mem_toList.1 htx))
      (h.known _ hy t (Finset.mem_toList.1 hty))
  have hperm : p.regions.keys.Perm (xs.flatMap fun x => x.touched.toList) := by
    refine (List.perm_ext_iff_of_nodup Std.TreeMap.nodup_keys hdistinct).2 fun t => ?_
    rw [Std.TreeMap.mem_keys, Std.TreeMap.mem_iff_isSome_getElem?, List.mem_flatMap]
    constructor
    · intro hsome
      obtain ⟨r, hr⟩ := Option.isSome_iff_exists.1 hsome
      obtain ⟨x, hx, ht, -⟩ := (h.pinned t r).1 hr
      exact ⟨x, hx, Finset.mem_toList.2 ht⟩
    · rintro ⟨x, hx, ht⟩
      exact h.isSome hx (Finset.mem_toList.1 ht)
  rw [live, ← Std.TreeMap.length_keys, hperm.length_eq, List.length_flatMap]
  simp

end Pins

variable {σ : Type} [Engine σ] {touched : σ → Finset Token}

/-! ## One runtime -/

/-- What a runtime has to do with lent memory, as its engine and its history tell. -/
def Recorded.holding (touched : σ → Finset Token) (x : Recorded σ) : Holding :=
  ⟨touched x.engine, x.history.lent⟩

theorem Recorded.holding_answer (hL : Lending touched) (q : Request) (x : Recorded σ) :
    (Engine.answer q x).state.holding touched =
      ⟨(touched x.engine ∪ ((q.lent (Engine.answer q x.engine).reply).map Prod.fst).toFinset) \
          (Engine.answer q x.engine).freed.toFinset,
        q.lent (Engine.answer q x.engine).reply ++ x.history.lent⟩ := by
  rw [holding, answer_engine, answer_history, hL.answer]
  rfl

/-- A request on which the engine takes no memory. -/
theorem Recorded.holding_answer_plain (hL : Lending touched) {q : Request} {x : Recorded σ}
    (hq : q.lent (Engine.answer q x.engine).reply = []) :
    (Engine.answer q x).state.holding touched =
      ⟨touched x.engine \ (Engine.answer q x.engine).freed.toFinset, x.history.lent⟩ := by
  rw [holding_answer hL, hq, List.map_nil, List.toFinset_nil, Finset.union_empty, List.nil_append]

/-- What the engine gives back on a request on which it takes no memory. -/
theorem Lending.freed_touched (hL : Lending touched) {q : Request} {e : σ}
    (hq : q.lent (Engine.answer q e).reply = []) :
    ∀ t ∈ (Engine.answer q e).freed, t ∈ touched e := by
  intro t ht
  rcases hL.freed q e t ht with h | h
  · exact h
  · rw [hq] at h
    cases h

namespace Accounting

/-- The accounting by which the table of lent memory is exact, given what other runtimes hold. -/
def registry (hL : Lending touched) (others : List Holding) : Accounting (Recorded σ) where
  books _ x p := p.drawn ≤ tokenLimit → p.Exact (x.holding touched :: others)
  exempt _ := True
  ask := by
    intro _ x p q hq _ hbooks hdrawn
    have hlent : q.lent (Engine.answer q x.engine).reply = [] := by
      cases q with
      | lendBuffer => cases hq
      | _ => rfl
    rw [Pins.drawn_takeBacks] at hdrawn
    rw [Recorded.holding_answer_plain hL hlent]
    exact (hbooks hdrawn).takeBacks (hL.freed_touched hlent)

theorem drawn_settled (p : Pins) (length : Nat) (v : Value) (freed : List Token) :
    (settled p length v freed).drawn = p.drawn + 1 := by
  unfold settled
  split
  · exact Pins.drawn_takeBacks _ _
  · exact Pins.drawn_takeBacks _ _

/-- Memory that the engine refused leaves no trace. -/
theorem exact_of_refused (hL : Lending touched) {others : List Holding} {x : Recorded σ} {p : Pins}
    {realm : RealmId} {bytes : ByteArray} (hx : p.Exact (x.holding touched :: others))
    (hdrawn : p.drawn < tokenLimit) (hv : lendReply realm bytes p x = .exception) :
    (settled p bytes.size (lendReply realm bytes p x)
        (Engine.answer (lendRequest realm bytes p) x).freed).Exact
      ((Engine.answer (lendRequest realm bytes p) x).state.holding touched :: others) := by
  have hlent : (lendRequest realm bytes p).lent
      (Engine.answer (lendRequest realm bytes p) x.engine).reply = [] := if_pos hv
  rw [Recorded.holding_answer_plain hL hlent]
  refine (hx.takeBacks (hL.freed_touched hlent)).congr ?_ ?_
  · rw [settled, if_pos (beq_iff_eq.2 hv), Pins.region?_giveBack_takeBacks,
      Pins.region?_giveBack_lend hdrawn, Pins.region?_takeBacks]
    rfl
  · rw [drawn_settled, Pins.drawn_takeBacks]
    exact Nat.le_succ _

/-- Memory that the engine took is pinned as long as it can be touched. -/
theorem exact_of_taken (hL : Lending touched) {others : List Holding} {x : Recorded σ} {p : Pins}
    {realm : RealmId} {bytes : ByteArray} (hx : p.Exact (x.holding touched :: others))
    (hdrawn : p.drawn < tokenLimit) (hv : lendReply realm bytes p x ≠ .exception) :
    (settled p bytes.size (lendReply realm bytes p x)
        (Engine.answer (lendRequest realm bytes p) x).freed).Exact
      ((Engine.answer (lendRequest realm bytes p) x).state.holding touched :: others) := by
  have hlent : (lendRequest realm bytes p).lent
      (Engine.answer (lendRequest realm bytes p) x.engine).reply =
        [(p.next, p.fresh bytes.size)] := if_neg hv
  have hfreed : ∀ t ∈ (Engine.answer (lendRequest realm bytes p) x.engine).freed,
      t ∈ insert p.next (touched x.engine) := by
    intro t ht
    rcases hL.freed _ _ t ht with h | h
    · exact Finset.mem_insert_of_mem h
    · rw [hlent] at h
      exact Finset.mem_insert.2 (.inl (List.mem_singleton.1 h))
  rw [Recorded.holding_answer hL, hlent, settled, if_neg (by simpa using hv)]
  have htaken := (hx.lend hdrawn bytes.size).takeBacks hfreed
  rwa [Finset.insert_eq, Finset.union_comm] at htaken

theorem registry_lends (hL : Lending touched) (others : List Holding) :
    (registry hL others).Lends := by
  intro _ x p realm bytes _ hbooks hdrawn
  have hlt : p.drawn < tokenLimit := by rwa [drawn_settled] at hdrawn
  have hx := hbooks (Nat.le_of_lt hlt)
  by_cases hv : lendReply realm bytes p x = .exception
  · exact exact_of_refused hL hx hlt hv
  · exact exact_of_taken hL hx hlt hv

end Accounting

namespace Process

/-! ## All runtimes -/

/-- What the runtimes of a process have to do with lent memory, and those that were freed had. -/
def holdings (touched : σ → Finset Token) (P : Process σ) : List Holding :=
  P.runtimes.map (fun s => s.host.engine.holding touched) ++
    P.ended.map (Recorded.holding touched)

/-- The clients of a process are in good order, the engines that were freed can touch nothing, and
the table of lent memory is exact. -/
structure Sound (touched : σ → Finset Token) (P : Process σ) : Prop where
  orderly : ∀ s ∈ P.runtimes, s.Orderly
  ended : ∀ x ∈ P.ended, touched x.engine = ∅
  exact : P.pins.drawn ≤ tokenLimit → P.pins.Exact (P.holdings touched)

omit [Engine σ] in
theorem start_sound : Sound touched {} where
  orderly := by
    intro s hs
    cases hs
  ended := by
    intro x hx
    cases hx
  exact _ := by
    refine ⟨fun t r => ?_, ?_, ?_, List.nodup_nil⟩
    · simp [holdings, Pins.region?, Pins.empty]
    · simp [holdings]
    · simp [holdings]

/-- When a runtime is freed its engine is asked for this and gives memory back. -/
theorem shutDown_eq (h : Host (Recorded σ)) :
    (Host.shutDown h).2.engine = (Engine.answer .shutDown h.engine).state ∧
      (Host.shutDown h).2.pins =
        (Engine.answer .shutDown h.engine.engine).freed.foldl Pins.takeBack h.pins := by
  obtain ⟨h', hrun, -, hengine, hpins⟩ := Accounting.ask_eq .shutDown h
  have hbind : Host.shutDown h = Host.report .runtimeFreed h' := Accounting.bind_ok hrun
  rw [hbind]
  exact ⟨hengine, hpins⟩

omit [Engine σ] in
/-- A runtime can be looked at apart from the others. -/
theorem holdings_perm (p : Pins) (l₁ l₂ : List (Client (Recorded σ))) (s : Client (Recorded σ))
    (ended : List (Recorded σ)) :
    (holdings touched ⟨p, l₁ ++ s :: l₂, ended⟩).Perm
      (s.host.engine.holding touched :: holdings touched ⟨p, l₁ ++ l₂, ended⟩) :=
  (List.perm_middle.map _).append_right _

theorem perform_sound (hL : Lending touched) {p : Pins} {l₁ l₂ : List (Client (Recorded σ))}
    {s : Client (Recorded σ)} {ended : List (Recorded σ)} {op : Client.Operation}
    (hP : Sound touched ⟨p, l₁ ++ s :: l₂, ended⟩) (hlive : ∀ c ∈ op.lends?, s.isLive c) :
    Sound touched
      ⟨((s.withPins p).step op).host.pins, l₁ ++ (s.withPins p).step op :: l₂, ended⟩ := by
  have hs : s.Orderly := hP.orderly s (List.mem_append_right _ List.mem_cons_self)
  have hkept : (s.withPins p).Kept
      (Accounting.registry hL (holdings touched ⟨p, l₁ ++ l₂, ended⟩)) := by
    refine ⟨⟨hs.tended, hs.rooted, hs.lent⟩, fun hdrawn => ?_⟩
    exact (hP.exact hdrawn).perm (holdings_perm p l₁ l₂ s ended)
  have hfits : (s.withPins p).Fits
      (Accounting.registry hL (holdings touched ⟨p, l₁ ++ l₂, ended⟩)) op :=
    ⟨.inr hlive, fun _ => Client.serve_of_exempt (fun _ => trivial) _⟩
  have hstep := Client.step_kept (Accounting.registry_lends hL _) hkept hfits
  refine ⟨fun s' hs' => ?_, hP.ended, fun hdrawn => ?_⟩
  · rcases List.mem_append.1 hs' with hs' | hs'
    · exact hP.orderly s' (List.mem_append_left _ hs')
    · rcases List.mem_cons.1 hs' with rfl | hs'
      · exact hstep.toOrderly
      · exact hP.orderly s' (List.mem_append_right _ (List.mem_cons_of_mem _ hs'))
  · exact (hstep.books hdrawn).perm (holdings_perm _ l₁ l₂ _ ended).symm

theorem close_sound (hL : Lending touched) {p : Pins} {l₁ l₂ : List (Client (Recorded σ))}
    {s : Client (Recorded σ)} {ended : List (Recorded σ)}
    (hP : Sound touched ⟨p, l₁ ++ s :: l₂, ended⟩) :
    Sound touched ⟨(Host.shutDown (s.withPins p).host).2.pins, l₁ ++ l₂,
      (Host.shutDown (s.withPins p).host).2.engine :: ended⟩ := by
  obtain ⟨hengine, hpins⟩ := shutDown_eq (s.withPins p).host
  rw [hengine, hpins]
  refine ⟨fun s' hs' => hP.orderly s' ?_, fun x hx => ?_, fun hdrawn => ?_⟩
  · rcases List.mem_append.1 hs' with hs' | hs'
    · exact List.mem_append_left _ hs'
    · exact List.mem_append_right _ (List.mem_cons_of_mem _ hs')
  · rcases List.mem_cons.1 hx with rfl | hx
    · exact hL.shutDown s.host.engine.engine
    · exact hP.ended x hx
  · rw [Pins.drawn_takeBacks] at hdrawn
    have hexact := (hP.exact hdrawn).perm (holdings_perm p l₁ l₂ s ended)
    have hback := hexact.takeBacks (hL.freed_touched (q := .shutDown) rfl)
    have hholding := Recorded.holding_answer_plain (q := .shutDown) (x := s.host.engine) hL rfl
    refine Pins.Exact.perm ?_ List.perm_middle.symm
    exact hholding ▸ hback

/-- Whatever happens in a process, its table stays exact. -/
theorem step_sound (hL : Lending touched) {P P' : Process σ} (hP : P.Sound touched)
    (hstep : Step touched P P') : P'.Sound touched := by
  cases hstep with
  | @launch _ engine settings hnew =>
      refine ⟨fun s hs => ?_, hP.ended, fun hdrawn => ?_⟩
      · rcases List.mem_cons.1 hs with rfl | hs
        · exact Client.start_orderly
        · exact hP.orderly s hs
      · have hholding : (⟨engine, []⟩ : Recorded σ).holding touched = ⟨∅, []⟩ := by
          rw [Recorded.holding, hnew]
          rfl
        have hexact := (hP.exact hdrawn).launch
        rw [← hholding] at hexact
        exact hexact
  | perform hlive => exact perform_sound hL hP hlive
  | close => exact close_sound hL hP
  -- A token that no runtime touches any more pins nothing.
  | callback hidle =>
      refine ⟨hP.orderly, hP.ended, fun hdrawn => ?_⟩
      rw [Pins.drawn_takeBack] at hdrawn
      refine (hP.exact hdrawn).callback fun x hx => ?_
      rcases List.mem_append.1 hx with hx | hx
      · obtain ⟨s, hs, rfl⟩ := List.mem_map.1 hx
        exact hidle s hs
      · obtain ⟨y, hy, rfl⟩ := List.mem_map.1 hx
        simp [Recorded.holding, hP.ended y hy]

theorem reachable_sound (hL : Lending touched) {P : Process σ} (hP : Reachable touched P) :
    P.Sound touched := by
  induction hP with
  | start => exact start_sound
  | step _ hstep ih => exact step_sound hL ih hstep

/-! ## What follows -/

omit [Engine σ] in
/-- There are as many regions as the runtimes can touch. -/
theorem Sound.live_eq {P : Process σ} (hP : P.Sound touched) (hdrawn : P.pins.drawn ≤ tokenLimit) :
    P.pins.live = (P.runtimes.map fun s => (touched s.host.engine.engine).card).sum := by
  have hended : (P.ended.map fun x => (touched x.engine).card).sum = 0 := by
    refine List.sum_eq_zero fun n hn => ?_
    obtain ⟨x, hx, rfl⟩ := List.mem_map.1 hn
    rw [hP.ended x hx, Finset.card_empty]
  rw [(hP.exact hdrawn).live_eq, holdings, List.map_append, List.sum_append, List.map_map,
    List.map_map]
  exact congrArg (_ + ·) hended

omit [Engine σ] in
/-- Of what a runtime took nothing is pinned once it was freed. -/
theorem Sound.ended_unpinned {P : Process σ} (hP : P.Sound touched)
    (hdrawn : P.pins.drawn ≤ tokenLimit) {x : Recorded σ} (hx : x ∈ P.ended) {t : Token}
    (ht : t ∈ x.history.lent.map Prod.fst) : P.pins.region? t = none := by
  have hexact := hP.exact hdrawn
  cases hr : P.pins.region? t with
  | none => rfl
  | some r =>
      obtain ⟨y, hy, htouched, hmem⟩ := (hexact.pinned t r).1 hr
      rcases List.mem_append.1 hy with hy | hy
      · -- A runtime that is still there did not take memory under the same token.
        have hdistinct := hexact.distinct
        rw [holdings, List.flatMap_append] at hdistinct
        have htoken : t ∈ y.tokens := List.mem_map_of_mem hmem
        have hleft := List.mem_flatMap.2 ⟨y, hy, htoken⟩
        have hgone : t ∈ (x.holding touched).tokens := ht
        have hright := List.mem_flatMap.2 ⟨_, List.mem_map_of_mem hx, hgone⟩
        exact absurd rfl ((List.nodup_append.1 hdistinct).2.2 t hleft t hright)
      · obtain ⟨z, hz, rfl⟩ := List.mem_map.1 hy
        rw [Recorded.holding, hP.ended z hz] at htouched
        cases htouched

/-- A process with a single runtime goes with its client. -/
theorem Reachable.perform_alone (s : Client (Recorded σ)) (op : Client.Operation)
    (hs : Reachable touched ⟨s.host.pins, [s], []⟩) (hlive : ∀ c ∈ op.lends?, s.isLive c) :
    Reachable touched ⟨(s.step op).host.pins, [s.step op], []⟩ :=
  hs.step (@Step.perform _ _ touched s.host.pins [] [] s [] op hlive)

/-- A client of an engine that counts can make a context and lend two bytes in it. -/
theorem exists_lender :
    ∃ s : Client (Recorded Counter), Reachable Counter.touched ⟨s.host.pins, [s], []⟩ ∧
      s.host.pins.drawn ≤ tokenLimit ∧ (Counter.touched s.host.engine.engine).card = 1 := by
  let blank : Client (Recorded Counter) := Client.start ⟨{}, []⟩ {}
  have hblank : Reachable Counter.touched ⟨blank.host.pins, [blank], []⟩ :=
    .step .start (.launch rfl)
  have hopened := Reachable.perform_alone blank (.openContext 0) hblank
    (by simp [Client.Operation.lends?])
  have hlive : (blank.step (.openContext 0)).isLive 0 := by decide +kernel
  have hlent := Reachable.perform_alone _ (.make 0 (.sharedBuffer ⟨#[1, 2]⟩)) hopened
    (by simpa [Client.Operation.lends?] using hlive)
  exact ⟨_, hlent, by decide +kernel, by decide +kernel⟩

end Process

end ScriptHost
