import ScriptHost.Proofs.Clients
import ScriptHost.Proofs.Counting
/-!
# Memory that could not be lent

When no buffer comes of an attempt to lend memory, the regions that are pinned are those that were
pinned before, less what the engine gave back meanwhile.  An attempt in a freed context is the
exception: it stops before the engine is asked, and the region stays pinned for good.
-/

namespace ScriptHost

variable {σ : Type} [Engine σ]

namespace Accounting

/-- The accounting by which the regions that were pinned at a moment remain, save those that the
engine gave back since. -/
def remains (old : History σ) (before : Token → Option PinnedRegion) : Accounting (Recorded σ) where
  books _ x p := ∃ new : History σ, x.history = new ++ old ∧
    p.region? = Pins.without before new.freed
  exempt _ := True
  ask := by
    rintro _ x p q - - ⟨new, hnew, hregions⟩
    refine ⟨x.exchange q :: new, by rw [Recorded.answer_history, hnew, List.cons_append], ?_⟩
    rw [Pins.region?_takeBacks, hregions, ← Pins.without_append]
    rfl

end Accounting

namespace Host

open Accounting

variable {c : ContextId} {bytes : ByteArray} {h h' : Host (Recorded σ)} {e : Stop}

/-- What is pinned after an attempt to lend memory from which no buffer came, if the engine gave
nothing back meanwhile. -/
def leftover (c : ContextId) (bytes : ByteArray) (h : Host (Recorded σ)) : Pins :=
  if bytes.size = 0 then h.pins
  else if Contexts.isLive h.contexts c then (h.pins.lend bytes.size).giveBack h.pins.next
  else h.pins.lend bytes.size

/-- An empty buffer is not lent, so nothing is pinned for it. -/
theorem newSharedBuffer_empty (hb : bytes.size = 0)
    (hrun : Host.newSharedBuffer c bytes h = (.error e, h')) :
    ∃ new : History σ, h'.engine.history = new ++ h.engine.history ∧
      h'.pins.region? = Pins.without h.pins.region? new.freed := by
  have howing : (remains h.engine.history h.pins.region?).Owing h.contexts 0 h :=
    ⟨rfl, [], rfl, (Pins.without_nil _).symm⟩
  have hcopy := newArrayBuffer_makes (c := c) bytes h howing
  have heq : Host.newSharedBuffer c bytes = (Host.newArrayBuffer c bytes : Action (Recorded σ) _) := by
    rw [Host.newSharedBuffer, hb]
    rfl
  rw [← heq, hrun] at hcopy
  exact hcopy.books

/-- In a live context the host stops only after the engine refused, and then nothing is pinned under
the token that was drawn. -/
theorem newSharedBuffer_refused {r : RealmId}
    (hrealm : (Contexts.entry h.contexts c).realm = some r) (hb : bytes.size ≠ 0)
    (hrun : Host.newSharedBuffer c bytes h = (.error e, h')) :
    ∃ new : History σ, h'.engine.history = new ++ h.engine.history ∧
      h'.pins.region? =
        Pins.without ((h.pins.lend bytes.size).giveBack h.pins.next).region? new.freed := by
  obtain ⟨h₁, hcheck, hcontexts, hengine, hpins⟩ := newSharedBuffer_live (c := c) hrealm hb
  rw [hcheck] at hrun
  by_cases hv : lendReply r bytes h.pins h.engine = .exception
  · let back : Pins := (h.pins.lend bytes.size).giveBack h.pins.next
    have howing : (remains h.engine.history back.region?).Owing h₁.contexts
        (Ref.ofValue (lendReply r bytes h.pins h.engine) + 0) h₁ := by
      refine ⟨rfl, [h.engine.exchange (lendRequest r bytes h.pins)], by rw [hengine]; rfl, ?_⟩
      rw [hpins, settled, if_pos (beq_iff_eq.2 hv), Pins.region?_giveBack_takeBacks]
      exact congrArg _ (List.append_nil _).symm
    have hlive : Contexts.isLive h₁.contexts c := by simp [hcontexts, Contexts.isLive, hrealm]
    have hmakes := check_makes (K := 0) hlive _ h₁ howing
    rw [hrun] at hmakes
    exact hmakes.books
  · unfold Host.check at hrun
    rw [if_neg (by simpa using hv)] at hrun
    cases hrun

omit [Engine σ] in
/-- No more is left pinned than before just if the context is live or the buffer empty. -/
theorem leftover_iff (c : ContextId) (bytes : ByteArray) (hdrawn : h.pins.drawn < tokenLimit) :
    ((leftover c bytes h).region? = h.pins.region? ↔
        Contexts.isLive h.contexts c ∨ bytes.size = 0) ∧
      ((leftover c bytes h).live = h.pins.live ↔
        Contexts.isLive h.contexts c ∨ bytes.size = 0) := by
  unfold leftover
  by_cases hb : bytes.size = 0
  · simp [hb]
  by_cases hlive : Contexts.isLive h.contexts c
  · have hsame := Pins.region?_giveBack_lend hdrawn bytes.size
    have hcount := Pins.live_congr fun t => congrFun hsame t
    simp [hb, hlive, hsame, hcount]
  · have hcount := Pins.live_lend hdrawn bytes.size
    have hother : (h.pins.lend bytes.size).region? ≠ h.pins.region? := by
      intro heq
      have hnext := congrFun heq h.pins.next
      rw [Pins.region?_lend, if_pos rfl, Pins.region?_next hdrawn] at hnext
      cases hnext
    simp [hb, hlive, hother, hcount]

/-- If no buffer comes of an attempt to lend memory, what is pinned besides what the engine gave back
meanwhile is the leftover of the attempt.  That is what was pinned before just if the context is live
or the buffer empty. -/
theorem newSharedBuffer_failed (hrun : Host.newSharedBuffer c bytes h = (.error e, h')) :
    ∃ new : History σ, h'.engine.history = new ++ h.engine.history ∧
      h'.pins.region? = Pins.without (leftover c bytes h).region? new.freed ∧
      (h.pins.drawn < tokenLimit → new.freed = [] →
        (h'.pins.region? = h.pins.region? ↔ Contexts.isLive h.contexts c ∨ bytes.size = 0) ∧
          (h'.pins.live = h.pins.live ↔ Contexts.isLive h.contexts c ∨ bytes.size = 0)) := by
  have hleft : ∃ new : History σ, h'.engine.history = new ++ h.engine.history ∧
      h'.pins.region? = Pins.without (leftover c bytes h).region? new.freed := by
    -- An empty buffer pins nothing; of the rest, a live context asks the engine and a freed one
    -- stops before it.
    by_cases hb : bytes.size = 0
    · obtain ⟨new, hnew, hregions⟩ := newSharedBuffer_empty hb hrun
      exact ⟨new, hnew, by rw [hregions, leftover, if_pos hb]⟩
    cases hrealm : (Contexts.entry h.contexts c).realm with
    | some r =>
        obtain ⟨new, hnew, hregions⟩ := newSharedBuffer_refused hrealm hb hrun
        have hlive : Contexts.isLive h.contexts c := by simp [Contexts.isLive, hrealm]
        exact ⟨new, hnew, by rw [hregions, leftover, if_neg hb, if_pos hlive]⟩
    | none =>
        have hfreed : ¬Contexts.isLive h.contexts c := by simp [Contexts.isLive, hrealm]
        rw [newSharedBuffer_freed hrealm hb] at hrun
        cases hrun
        exact ⟨[], rfl, by rw [leftover, if_neg hb, if_neg hfreed]; exact (Pins.without_nil _).symm⟩
  obtain ⟨new, hnew, hregions⟩ := hleft
  refine ⟨new, hnew, hregions, fun hdrawn hnone => ?_⟩
  have hsame : h'.pins.region? = (leftover c bytes h).region? := by
    rw [hregions, hnone, Pins.without_nil]
  rw [hsame, Pins.live_congr fun t => congrFun hsame t]
  exact leftover_iff c bytes hdrawn

/-- A host of which no context was made yet. -/
def blank : Host (Recorded Counter) := Host.start ⟨{}, []⟩ {}

theorem newSharedBuffer_failed_blank :
    ∃ h', Host.newSharedBuffer 0 ⟨#[1]⟩ blank = (.error (.panicked .usedAfterFree), h') ∧
      h'.pins.live ≠ blank.pins.live := by
  have hrun : Host.newSharedBuffer 0 ⟨#[1]⟩ blank = (.error (.panicked .usedAfterFree), _) :=
    newSharedBuffer_freed rfl (by decide)
  obtain ⟨new, hnew, -, hiff⟩ := newSharedBuffer_failed hrun
  have hempty : new = [] := List.append_left_eq_self.1 hnew.symm
  obtain ⟨-, hcount⟩ := hiff (by decide) (by rw [hempty]; rfl)
  exact ⟨_, hrun, fun hsame => absurd (hcount.1 hsame) (by decide)⟩

/-- It is not so that whenever no buffer comes of an attempt to lend memory, the same regions are
pinned as before. -/
theorem failed_lending_stays_pinned :
    ¬∀ (h h' : Host Counter) (c : ContextId) (bytes : ByteArray) (e : Stop),
      Host.newSharedBuffer c bytes h = (.error e, h') → h'.pins.region? = h.pins.region? := by
  intro hclaim
  let freed : Host Counter := ((Client.start {} {}).run [.openContext 0, .freeContext 0]).host
  have hrealm : (Contexts.entry freed.contexts 0).realm = none := by decide +kernel
  have hdrawn : freed.pins.drawn < tokenLimit := by decide +kernel
  have hrun : Host.newSharedBuffer 0 ⟨#[1]⟩ freed = (.error (.panicked .usedAfterFree), _) :=
    newSharedBuffer_freed hrealm (by decide)
  have hnext := congrFun (hclaim _ _ _ _ _ hrun) freed.pins.next
  rw [Pins.region?_lend, if_pos rfl, Pins.region?_next hdrawn] at hnext
  cases hnext

end Host

end ScriptHost
