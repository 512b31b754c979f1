import Mathlib.Algebra.Ring.Int.Defs
import ScriptHost.Proofs.Clients
import ScriptHost.Proofs.Deferral
import ScriptHost.Proofs.Endings
/-!
# A context that was freed stays so

Every operation on a freed context, or on a handle of it, is answered or refused without the engine,
or stops.  It makes the host ask nothing but to take back what was handed over to the operation, and
leaves the table of contexts as it is.
-/

namespace ScriptHost

open Accounting (bind_ok bind_error tryCatch_error context_ok)

namespace Host

open Client (Ending)
open Client.Ending (done stopped refused object indexed named)

/-! ## Giving back -/

section Requests

open Client (Item Operation triedDupes)

variable {σ : Type} [Engine σ] {s : Host (Recorded σ)} {X : Contexts} {c : ContextId} {h : Handle}
  {α β : Type}

/-- An action that makes some requests, ends in a certain way and does nothing else to the host. -/
def Comes (qs : List Request) (e : Ending) (x : Action (Recorded σ) α) (s : Host (Recorded σ)) :
    Prop :=
  ending (x s).1 = e ∧ Host.Asked qs s (x s).2

omit [Engine σ] in
theorem Halts.comes {x : Action (Recorded σ) α} {e : Ending} (hx : Halts e x s) :
    Comes [] e x s := by
  refine ⟨hx.1, ?_⟩
  rw [hx.2]
  exact .refl s

omit [Engine σ] in
/-- What an action yields makes no difference. -/
theorem Comes.map {x : Action (Recorded σ) α} {qs : List Request} {e : Ending} (f : α → β)
    (hx : Comes qs e x s) : Comes qs e (do Pure.pure (f (← x))) s := by
  obtain ⟨hend, hasked⟩ := hx
  rcases hxs : x s with ⟨t | a, s'⟩
  · rw [hxs] at hend hasked
    rw [Comes, bind_error hxs]
    exact ⟨hend, hasked⟩
  · rw [hxs] at hend hasked
    rw [Comes, bind_ok hxs]
    exact ⟨hend, hasked⟩

omit [Engine σ] in
theorem Comes.of_run {x : Action (Recorded σ) α} {qs : List Request} {r : Except Stop α}
    {s' : Host (Recorded σ)} (hx : x s = (r, s')) (hasked : Host.Asked qs s s') :
    Comes qs (ending r) x s := by
  rw [Comes, hx]
  exact ⟨rfl, hasked⟩

@[simp] theorem releases_value (X : Contexts) (h : Handle) : Item.releases X (.value h) =
    if h.refs.isEmpty then []
    else (X.entry h.context).realm.toList.map fun r => .release r h.refs := by
  simp [Item.releases, Item.parts]

@[simp] theorem releases_key (X : Contexts) (k : KeyHandle) : Item.releases X (.key k) =
    if k.refs.isEmpty then []
    else (X.entry k.context).realm.toList.map fun r => .release r k.refs := by
  simp [Item.releases, Item.parts]

theorem releases_bound (X : Contexts) (b : BoundFunction) : Item.releases X (.bound b) =
    b.handles.flatMap fun h => Item.releases X (.value h) := by
  simp [Item.releases, Item.parts, List.flatMap_map]

/-- A value is given back in its context, if it is counted. -/
theorem drop_asks (hX : s.contexts = X) (hh : Accounting.Rooted X h.context h.refs) :
    ∃ s', Host.drop h s = (.ok (), s') ∧ Host.Asked (Item.releases X (.value h)) s s' := by
  rw [releases_value]
  unfold Host.drop
  cases hcounted : h.value.isCounted with
  | false =>
      have hrefs : h.refs = [] := by simp [Handle.refs, Ref.ofValue, hcounted]
      rw [hrefs]
      exact ⟨s, rfl, .refl s⟩
  | true =>
      have hrefs : h.refs = [.value h.value] := by simp [Handle.refs, Ref.ofValue, hcounted]
      obtain ⟨r, hr⟩ := Option.isSome_iff_exists.1 (hh (by simp [hrefs]))
      have hlive : Host.live h.context s = (.ok r, s) := Accounting.live_ok (hX ▸ hr)
      rw [hrefs, hr]
      exact ⟨_, (bind_ok hlive).trans rfl, .ask (.release r [.value h.value]) s⟩

theorem dropKey_asks {k : KeyHandle} (hX : s.contexts = X)
    (hk : Accounting.Rooted X k.context k.refs) :
    ∃ s', Host.dropKey k s = (.ok (), s') ∧ Host.Asked (Item.releases X (.key k)) s s' := by
  rw [releases_key]
  unfold Host.dropKey
  cases hnull : k.key.isNull with
  | true =>
      have hrefs : k.refs = [] := by simp [KeyHandle.refs, Ref.ofKey, hnull]
      rw [hrefs]
      exact ⟨s, rfl, .refl s⟩
  | false =>
      have hrefs : k.refs = [.key k.key] := by simp [KeyHandle.refs, Ref.ofKey, hnull]
      obtain ⟨r, hr⟩ := Option.isSome_iff_exists.1 (hk (by simp [hrefs]))
      have hlive : Host.live k.context s = (.ok r, s) := Accounting.live_ok (hX ▸ hr)
      rw [hrefs, hr]
      exact ⟨_, (bind_ok hlive).trans rfl, .ask (.release r [.key k.key]) s⟩

/-- An item is given back in the contexts that its references belong to. -/
theorem item_drop_comes {i : Item} (hX : s.contexts = X) (hi : i.Rooted X) :
    Comes (i.releases X) done i.drop s := by
  cases i with
  | value h =>
      obtain ⟨s', hrun, hasked⟩ := drop_asks hX (Item.rooted_value.1 hi)
      exact .of_run hrun hasked
  | key k =>
      obtain ⟨s', hrun, hasked⟩ := dropKey_asks hX (Item.rooted_key.1 hi)
      exact .of_run hrun hasked
  | bound b =>
      have hb := Item.rooted_bound.1 hi
      obtain ⟨s', hrun, hasked⟩ := forM_asks (q := fun h => Item.releases X (.value h))
        (fun h hh s hX => drop_asks hX (hb h hh)) s hX
      rw [releases_bound]
      exact .of_run hrun hasked
  | bare r => exact .of_run rfl (.refl s)

/-- A value is given back when what it was meant for fails. -/
theorem giveBack_comes {x : Action (Recorded σ) α} {f : α → Action (Recorded σ) β} {e : Ending}
    (hX : s.contexts = X) (hh : Accounting.Rooted X h.context h.refs) (he : e ≠ done)
    (hx : Halts e x s) :
    Comes (Item.releases X (.value h)) e (tryCatch x (fun t => do
        Host.drop h
        throw t) >>= f) s := by
  cases e with
  | ok u => exact absurd rfl he
  | error t =>
      obtain ⟨s', hrun, hasked⟩ := drop_asks hX hh
      have hcatch : tryCatch x (fun t => do
          Host.drop h
          throw t) s = (.error t, s') := by
        rw [tryCatch_error hx.eq_error, bind_ok hrun]
        rfl
      exact .of_run (bind_error hcatch) hasked

theorem set_comes {n : PropertyName} {v : Handle} (hX : s.contexts = X)
    (hc : (X.entry h.context).realm = none) (hv : Accounting.Rooted X v.context v.refs) :
    Comes (Item.releases X (.value v)) (named n (object "set_atom" h)) (Host.set h n v) s := by
  rw [← hX] at hc
  cases n with
  | text t => exact giveBack_comes hX hv nofun (live_bind_halts hc)
  | index i => exact giveBack_comes hX hv (indexed_ne_done i) (indexKey_halts hc i)
  | key k =>
      have hneeds : Halts (object "set_atom" h) (do
          Host.requireObject "set_atom" h
          Host.live h.context) s := requireObject_halts hc _ (live_halts hc)
      exact giveBack_comes hX hv (ofObject_ne_done h _) hneeds

/-- Second references are taken until a context is not live, and then they are given back. -/
theorem dupeEach_comes {hs : List Handle} (hX : s.contexts = X)
    (hc : ∃ h ∈ hs, (X.entry h.context).realm = none) :
    Comes (triedDupes X hs) stopped (Host.dupeEach hs) s := by
  induction hs generalizing s with
  | nil => simp at hc
  | cons h hs ih =>
      unfold triedDupes Host.dupeEach
      cases hr : (X.entry h.context).realm with
      | none =>
          have hlive : Halts stopped (Host.dupe h) s := live_bind_halts (by rw [hX, hr])
          exact hlive.bind.comes
      | some r =>
          have hrest : ∃ h ∈ hs, (X.entry h.context).realm = none := by
            simpa [hr] using hc
          have hdupe : Host.dupe h s = (.ok h, (Host.ask (.retain r (.value h.value)) s).2) :=
            bind_ok (Accounting.live_ok (by rw [hX, hr]))
          have hretain := Host.Asked.ask (.retain r (.value h.value)) s
          have hX' := hretain.contexts.trans hX
          -- The handles behind it fail, so the reference that was taken for this one is given back.
          obtain ⟨hend, hasked⟩ := ih hX' hrest
          have hroot : Accounting.Rooted X h.context h.refs := fun _ => by
            simp [Contexts.isLive, hr]
          obtain ⟨s', hdrop, hasked'⟩ := drop_asks (hasked.contexts.trans hX') hroot
          rcases hrun : Host.dupeEach hs (Host.ask (.retain r (.value h.value)) s).2 with
            ⟨t | ds, s₂⟩
          · rw [hrun] at hend hdrop hasked
            have hcatch : tryCatch (Host.dupeEach hs) (fun t => do
                Host.drop h
                throw t) (Host.ask (.retain r (.value h.value)) s).2 = (.error t, s') := by
              rw [tryCatch_error hrun, bind_ok hdrop]
              rfl
            refine ⟨?_, ?_⟩
            · rw [bind_ok hdupe, bind_error hcatch]
              exact hend
            · rw [bind_ok hdupe, bind_error hcatch]
              exact (hretain.trans hasked).trans (hrun ▸ hasked')
          · rw [hrun] at hend
            cases hend

theorem bind_comes {this : Option Handle} {leading : List Handle} (hX : s.contexts = X)
    (hc : (X.entry h.context).realm = none) :
    Comes ((Operation.bind h this leading).sends X) stopped (Host.bind h this leading) s := by
  have heach : Comes _ stopped
      (Host.dupeEach (this.getD (Host.newUndefined h.context) :: leading ++ [h])) s :=
    dupeEach_comes hX ⟨h, by simp, hc⟩
  obtain ⟨hend, hasked⟩ := heach
  rcases hrun : Host.dupeEach (this.getD (Host.newUndefined h.context) :: leading ++ [h]) s with
    ⟨t | ds, s'⟩
  · rw [hrun] at hend hasked
    rw [Comes, Host.bind, bind_error hrun]
    exact ⟨hend, hasked⟩
  · rw [hrun] at hend
    cases hend

/-- Memory is pinned in a freed context though it is never lent. -/
theorem newSharedBuffer_comes (bytes : ByteArray)
    (hc : (Contexts.entry s.contexts c).realm = none) (hb : bytes.size ≠ 0) :
    Comes [] stopped (Host.newSharedBuffer c bytes) s := by
  refine .of_run (Accounting.newSharedBuffer_freed hc hb) ⟨rfl, rfl, ?_, [], rfl, rfl⟩
  simp [told, Event.isOfRegion]

/-- Every operation on a freed context, or on a handle of it, ends as it should and makes the requests
that it should; the table of contexts stays as it is, unless the context is forgotten. -/
theorem operation_comes {op : Operation} (hX : s.contexts = X) (hplace : op.place? = some c)
    (hc : (X.entry c).realm = none) (hroot : ∀ i ∈ op.consumed, i.Rooted X)
    (hopen : op.opened? = none) (hdrop : op ≠ .dropContext c) :
    Comes (op.sends X) (op.onFreed (X.entry c).cache) op.run s := by
  subst hX
  let nothing {β : Type} : β → Client.Yield := fun _ => {}
  -- Most operations stop at the check that the context is live; some ask before it.
  cases op with
  | make d m =>
      cases hplace
      by_cases hm : ∀ b, m = .sharedBuffer b → b.size = 0
      · exact (maker_halts hc rfl hm).comes.map _
      · simp only [not_forall] at hm
        obtain ⟨b, rfl, hb⟩ := hm
        exact (newSharedBuffer_comes b hc hb).map _
  | get g =>
      cases hplace
      exact (getter_halts hc rfl rfl).comes.map _
  | key k =>
      cases hplace
      exact (keyMaker_halts hc rfl rfl).comes.map _
  | ownKeys h f =>
      cases hplace
      exact (ownKeys_halts hc f).comes.map _
  | bind h this leading =>
      cases hplace
      exact (bind_comes rfl hc).map _
  | ask h q =>
      cases hplace
      exact (question_halts hc rfl rfl).comes.map nothing
  | keyText k =>
      cases hplace
      have hstop : Halts stopped (Host.keyText k) s := live_bind_halts hc
      exact hstop.discard.comes.map nothing
  | keyDiagnostic k =>
      cases hplace
      exact (keyDiagnostic_halts hc rfl).discard.comes.map nothing
  | boundDiagnostic b =>
      cases hplace
      exact ((diagnostic_halts hc).map _).discard.comes.map nothing
  | set h n v =>
      cases hplace
      exact (set_comes rfl hc (Item.rooted_value.1 (hroot _ rfl))).map nothing
  | drop i =>
      have hcomes : i.Rooted s.contexts → Comes (i.releases s.contexts) done i.drop s :=
        item_drop_comes rfl
      cases i with
      | bare r => cases hplace
      | value _ | key _ | bound _ => exact (hcomes (hroot _ rfl)).map nothing
  | keepToEnd h =>
      cases hplace
      have hstop : Host.defer h.context (.value h.value) s = _ :=
        Host.defer_ended rfl (by simp [hc])
      exact .of_run (bind_error (bind_error hstop)) (.refl s)
  | keepKeyToEnd k =>
      cases hplace
      have hstop : Host.defer k.context (.key k.key) s = _ :=
        Host.defer_ended rfl (by simp [hc])
      exact .of_run (bind_error (bind_error hstop)) (.refl s)
  | bareValue _ | bareKey _ => exact .of_run rfl (.refl s)
  | global d =>
      have hglobal : Host.globalOf d s = (.ok ⟨d, _⟩, s) := bind_ok (context_ok d s)
      have hrun : (Operation.global d).run s = (.ok { views := [.value ⟨d, _⟩] }, s) :=
        (bind_ok hglobal).trans rfl
      exact .of_run hrun (.refl s)
  | runJobs d =>
      cases hplace
      exact (runPendingJobs_halts hc).discard.comes.map nothing
  | runGc => cases hplace
  | openContext _ | openBare _ _ => cases hopen
  | freeContext d =>
      cases hplace
      have hrun : (Operation.freeContext c).run s = (.ok {}, s) :=
        (bind_ok (freeContext_again hc)).trans rfl
      exact .of_run hrun (.refl s)
  | dropContext d =>
      cases hplace
      exact absurd rfl hdrop

end Requests

end Host

/-! ## What the host holds -/

namespace Request

/-- What a request that takes a second reference, or gives references back, adds to the references
to a thing. -/
def gain (ref : Ref) : Request → Int
  | retain _ r => r.counted.count ref
  | release _ rs => -((rs.flatMap Ref.counted).count ref : Int)
  | _ => 0

/-- Whether a request takes a second reference or gives references back. -/
def isOfReferences : Request → Bool
  | retain _ _ | release _ _ => true
  | _ => false

theorem gain_eq (ref : Ref) {q : Request} (hq : q.isOfReferences) (reply : q.Reply) :
    ((q.given reply).count ref : Int) - q.taken.count ref = q.gain ref := by
  cases q with
  | retain r x => simp [given, taken, gain]
  | release r xs => simp [given, taken, gain]
  | _ => cases hq

end Request

/-- Second references that are taken and references that are given back add up. -/
theorem History.held_append {σ : Type} (ref : Ref) (new old : History σ)
    (hnew : ∀ q ∈ new.requests, q.isOfReferences) :
    held ref (new ++ old) = held ref old + (new.requests.map (Request.gain ref)).sum := by
  induction new with
  | nil => simp [requests]
  | cons x new ih =>
      have hrequests : requests (x :: new) = requests new ++ [x.request] := by simp [requests]
      rw [hrequests] at hnew ⊢
      have ih := ih fun q hq => hnew q (List.mem_append_left _ hq)
      have hx : (x.given.count ref : Int) - x.taken.count ref = x.request.gain ref :=
        Request.gain_eq ref (hnew x.request (by simp)) x.reply
      rw [List.cons_append, held, ih, List.map_append, List.sum_append]
      simp only [List.map_cons, List.map_nil, List.sum_singleton]
      omega

namespace Client

variable {X : Contexts}

/-- The references of an item are counted. -/
theorem Item.counted_of_mem_parts {i : Item} {p : ContextId × List Ref} (hp : p ∈ i.parts) :
    p.2.flatMap Ref.counted = p.2 := by
  have hvalue : ∀ h : Handle, h.refs.flatMap Ref.counted = h.refs := fun h =>
    Ref.flatMap_counted_ofValue h.value
  cases i with
  | value h =>
      rw [List.mem_singleton.1 hp]
      exact hvalue h
  | key k =>
      rw [List.mem_singleton.1 hp]
      cases hnull : k.key.isNull <;> simp [KeyHandle.refs, Ref.ofKey, Ref.counted, hnull]
  | bound b =>
      obtain ⟨h, -, rfl⟩ := List.mem_map.1 hp
      exact hvalue h
  | bare r => cases hp

/-- Giving an item back takes its references from the host. -/
theorem gain_releases (ref : Ref) {i : Item} (hi : i.Rooted X) :
    ((i.releases X).map (Request.gain ref)).sum = -((i.parts.flatMap (·.2)).count ref : Int) := by
  have hpart : ∀ p ∈ i.parts, ((if p.2.isEmpty then [] else
      (X.entry p.1).realm.toList.map fun r => Request.release r p.2).map (Request.gain ref)).sum =
        -(p.2.count ref : Int) := by
    intro p hp
    by_cases hempty : p.2 = []
    · simp [hempty]
    · obtain ⟨r, hr⟩ := Option.isSome_iff_exists.1 (hi p hp hempty)
      simp [hempty, hr, Request.gain, Item.counted_of_mem_parts hp]
  unfold Item.releases
  generalize i.parts = parts at hpart
  induction parts with
  | nil => rfl
  | cons p parts ih =>
      have ih := ih fun p' hp' => hpart p' (List.mem_cons_of_mem _ hp')
      rw [List.flatMap_cons, List.map_append, List.sum_append, ih, hpart p List.mem_cons_self,
        List.flatMap_cons, List.count_append]
      omega

theorem gain_triedDupes (ref : Ref) (hs : List Handle) :
    ((triedDupes X hs).map (Request.gain ref)).sum = 0 := by
  induction hs with
  | nil => rfl
  | cons h hs ih =>
      unfold triedDupes
      cases hr : (X.entry h.context).realm with
      | none => rfl
      | some r =>
          have hroot : (Item.value h).Rooted X := Item.rooted_value.2 fun _ => by
            simp [Contexts.isLive, hr]
          have hrelease := gain_releases ref hroot
          have hretain : (Request.retain r (.value h.value)).gain ref = h.refs.count ref := rfl
          simp only [Item.parts, List.flatMap_cons, List.flatMap_nil, List.append_nil] at hrelease
          dsimp only
          rw [List.cons_append, List.map_cons, List.map_append, List.sum_cons, List.sum_append, ih,
            hrelease, hretain]
          omega

/-- Whatever is asked of the engine on behalf of an operation on a freed context is to take a second
reference or to give references back, in the realm of a live context. -/
def Modest (X : Contexts) (q : Request) : Prop :=
  q.isOfReferences ∧ ∃ d r, (X.entry d).realm = some r ∧ q.realm? = some r

theorem modest_of_mem_releases {i : Item} {q : Request} (hq : q ∈ i.releases X) : Modest X q := by
  obtain ⟨p, -, hq⟩ := List.mem_flatMap.1 hq
  split at hq
  · cases hq
  · obtain ⟨r, hr, rfl⟩ := List.mem_map.1 hq
    exact ⟨rfl, p.1, r, Option.mem_toList.1 hr, rfl⟩

theorem modest_of_mem_triedDupes {hs : List Handle} {q : Request} (hq : q ∈ triedDupes X hs) :
    Modest X q := by
  induction hs with
  | nil => cases hq
  | cons h hs ih =>
      unfold triedDupes at hq
      cases hr : (X.entry h.context).realm with
      | none =>
          rw [hr] at hq
          cases hq
      | some r =>
          rw [hr] at hq
          rcases List.mem_append.1 hq with hq | hq
          · rcases List.mem_cons.1 hq with rfl | hq
            · exact ⟨rfl, h.context, r, hr, rfl⟩
            · exact ih hq
          · exact modest_of_mem_releases hq

theorem modest_of_mem_sends {op : Operation} {q : Request} (hq : q ∈ op.sends X) : Modest X q := by
  cases op with
  | set h n v => exact modest_of_mem_releases hq
  | drop i => exact modest_of_mem_releases hq
  | bind f this leading => exact modest_of_mem_triedDupes hq
  | _ => cases hq

/-- An operation on a freed context takes from the host the references that it consumes, and no
others. -/
theorem gain_sends (ref : Ref) {op : Operation} {c : ContextId} (hplace : op.place? = some c)
    (hc : (X.entry c).realm = none) (hroot : ∀ i ∈ op.consumed, i.Rooted X) :
    ((op.sends X).map (Request.gain ref)).sum =
      -((op.consumed.toList.flatMap Item.refs).count ref : Int) := by
  -- What is rooted in a freed context holds no references any more.
  have hfreed : ∀ {refs : List Ref}, Accounting.Rooted X c refs → refs = [] := by
    intro refs hrefs
    by_contra hne
    simpa [Contexts.isLive, hc] using hrefs hne
  have hgiven : ∀ i : Item, i.Rooted X → i.refs = i.parts.flatMap (·.2) →
      ((i.releases X).map (Request.gain ref)).sum =
        -(([i].flatMap Item.refs).count ref : Int) := by
    intro i hi hrefs
    rw [List.flatMap_singleton, hrefs]
    exact gain_releases ref hi
  cases op with
  | set h n v => exact hgiven _ (hroot _ rfl) rfl
  | drop i =>
      cases i with
      | bare r => cases hplace
      | value _ | key _ | bound _ => exact hgiven _ (hroot _ rfl) rfl
  | bind f this leading => exact gain_triedDupes ref _
  | keepToEnd h | bareValue h =>
      cases hplace
      have hnone := hfreed (Item.rooted_value.1 (hroot _ rfl))
      simp [Operation.sends, Operation.consumed, hnone]
  | keepKeyToEnd k | bareKey k =>
      cases hplace
      have hnone := hfreed (Item.rooted_key.1 (hroot _ rfl))
      simp [Operation.sends, Operation.consumed, hnone]
  | _ => rfl

/-! ## How operations may end -/

section Endings

open Ending

theorem stoppedIf_isAbsorbing (b : Bool) : (stoppedIf b).isAbsorbing false := by
  cases b <;> rfl

theorem ofObject_isAbsorbing {e : String → HostError} (he : ∀ w, (refused (e w)).isAbsorbing false)
    (h : Handle) : (ofObject h e).isAbsorbing false := by
  unfold ofObject
  cases h.value.typeWord? with
  | some w => exact he w
  | none => rfl

theorem object_isAbsorbing (operation : String) (h : Handle) :
    (object operation h).isAbsorbing false :=
  ofObject_isAbsorbing (fun _ => rfl) h

theorem named_isAbsorbing (n : PropertyName) {e : Ending} (he : e.isAbsorbing false) :
    (named n e).isAbsorbing false := by
  cases n with
  | text t => rfl
  | index i =>
      change (indexed i).isAbsorbing false
      unfold indexed
      split <;> rfl
  | key k => exact he

theorem constructing_isAbsorbing (x : Cache) (k : ElementKind) :
    (constructing x k).isAbsorbing false := by
  unfold constructing
  split <;> rfl

theorem diagnosticOnFreed_isAbsorbing (h : Handle) : (diagnosticOnFreed h).isAbsorbing false := by
  unfold diagnosticOnFreed
  cases h.value <;> rfl

theorem maker_isAbsorbing (x : Cache) (c : ContextId) (m : Maker) :
    (m.onFreed x).isAbsorbing (Operation.make c m).runsScript := by
  cases m with
  | typedArray k n => exact constructing_isAbsorbing x k
  | serialize d =>
      unfold Maker.onFreed
      dsimp only
      cases d.toDocument <;> rfl
  | _ => rfl

theorem getter_isAbsorbing (x : Cache) (g : Getter) : (g.onFreed x).isAbsorbing false := by
  cases g with
  | get h n => exact named_isAbsorbing n rfl
  | typedArrayOver c k b => exact constructing_isAbsorbing x k
  | bufferOf h => exact ofObject_isAbsorbing (fun _ => rfl) h
  | _ => rfl

theorem question_isAbsorbing (x : Cache) (h : Handle) (q : Question) :
    (q.onFreed x h).isAbsorbing false := by
  cases q with
  | isError | isFunction | isConstructor | typeName | record | isArray | isMap | isSet | isWeakMap
  | isWeakSet | isArrayBuffer | isTypedArray _ | elementKind | isInstance _ =>
      exact stoppedIf_isAbsorbing _
  | diagnostic => exact diagnosticOnFreed_isAbsorbing h
  | length | isEmpty | bytes | write _ _ => exact ofObject_isAbsorbing (fun _ => rfl) h
  | keys => exact object_isAbsorbing _ h
  | toBigInt =>
      unfold Question.onFreed
      dsimp only
      split
      · rfl
      · exact ofObject_isAbsorbing (fun _ => rfl) h
  | has n | delete n => exact named_isAbsorbing n (object_isAbsorbing _ h)
  | _ => rfl

/-- How an operation on a freed context may end. -/
theorem onFreed_isAbsorbing (x : Cache) (op : Operation) :
    (op.onFreed x).isAbsorbing op.runsScript := by
  cases op with
  | make c m => exact maker_isAbsorbing x c m
  | get g => exact getter_isAbsorbing x g
  | ask h q => exact question_isAbsorbing x h q
  | ownKeys h f => exact object_isAbsorbing _ h
  | boundDiagnostic b => exact diagnosticOnFreed_isAbsorbing b.func
  | set h n v => exact named_isAbsorbing n (object_isAbsorbing _ h)
  | _ => rfl

end Endings

/-! ## Freed contexts -/

variable {σ : Type} [Engine σ] {s : Client (Recorded σ)} {c : ContextId} {op : Operation}

/-- What a freed context makes of an operation on it or on a handle of it. -/
structure Absorbs (s : Client (Recorded σ)) (c : ContextId) (op : Operation) : Prop where
  /-- The operation ends as the cache of the context and the operands tell. -/
  ending : Host.ending (op.run s.host).1 = op.onFreed (s.entry c).cache
  /-- It is answered, or refused for what the caller named or handed over, or stops; only scripts
  are refused because the context was freed. -/
  allowed : (op.onFreed (s.entry c).cache).isAbsorbing op.runsScript
  /-- The engine is asked to take back what the operation consumes, and nothing else is left. -/
  requests : s.requests op = op.sends s.host.contexts
  /-- What the engine is asked is asked in the realms of other contexts. -/
  elsewhere : ∀ q ∈ s.requests op, ∃ d r, d ≠ c ∧ (s.entry d).realm = some r ∧ q.realm? = some r
  /-- The host holds as much as before, but for what the operation consumed. -/
  held : ∀ ref, History.held ref (s.step op).host.engine.history =
    History.held ref s.host.engine.history - (op.consumed.toList.flatMap Item.refs).count ref
  /-- Every context is as before, unless this one is forgotten. -/
  contexts : op ≠ .dropContext c → (s.step op).host.contexts = s.host.contexts
  /-- Every other context is as before in any case. -/
  others : ∀ d, d ≠ c → (s.step op).entry d = s.entry d

/-- A freed context absorbs every operation on it. -/
theorem absorbs_of_freed (hs : s.Orderly) (hc : c ∈ s.host.contexts)
    (hr : (s.entry c).realm = none) (hplace : op.place? = some c) (hp : s.permits op) :
    s.Absorbs c op := by
  obtain ⟨hconsumed, -, hopened, -⟩ := permits_iff.1 hp
  have hroot : ∀ i ∈ op.consumed, i.Rooted s.host.contexts := fun i hi =>
    hs.rooted i (hconsumed i hi)
  have hopen : op.opened? = none := by
    cases hop : op.opened? with
    | none => rfl
    | some d =>
        have hd : op.place? = some d := place_of_touched (by simp [Operation.touched?, hop])
        rw [hplace] at hd
        cases hd
        exact absurd hc (hopened c hop)
  have hallowed := onFreed_isAbsorbing (s.entry c).cache op
  -- Whichever way the operation ends, the engine was asked just what it should be.
  have hcomes : Host.ending (op.run s.host).1 = op.onFreed (s.entry c).cache ∧
      (op ≠ .dropContext c → (op.run s.host).2.contexts = s.host.contexts) ∧
      Contexts.SameBut c s.host.contexts (op.run s.host).2.contexts ∧
      ∃ new : History σ, (op.run s.host).2.engine.history = new ++ s.host.engine.history ∧
        new.requests = op.sends s.host.contexts := by
    by_cases hdrop : op = .dropContext c
    · have hclosed : op.closed? = some c := by rw [hdrop]; rfl
      obtain ⟨X, hrun, hbut, -⟩ := closed_again hclosed (h := s.host) hr
      rw [hrun]
      refine ⟨by rw [hdrop]; rfl, fun hne => absurd hdrop hne, hbut, [], rfl, by rw [hdrop]; rfl⟩
    · obtain ⟨hend, hasked⟩ := Host.operation_comes (s := s.host) rfl hplace hr hroot hopen hdrop
      exact ⟨hend, fun _ => hasked.contexts, Contexts.sameBut_of_eq hasked.contexts,
        hasked.history⟩
  obtain ⟨hend, hcontexts, hbut, new, hnew, hsends⟩ := hcomes
  have hrequests : s.requests op = op.sends s.host.contexts := by
    refine requests_eq ?_
    rw [step_host hp, hnew, Host.Asked.requests_append, hsends]
  refine ⟨hend, hallowed, hrequests, ?_, fun ref => ?_, fun hne => ?_, fun d hd => ?_⟩
  · intro q hq
    obtain ⟨-, d, r, hd, hqr⟩ := modest_of_mem_sends (hrequests ▸ hq)
    refine ⟨d, r, ?_, hd, hqr⟩
    rintro rfl
    rw [entry, hd] at hr
    cases hr
  · have hkinds : ∀ q ∈ new.requests, q.isOfReferences := fun q hq =>
      (modest_of_mem_sends (hsends ▸ hq)).1
    rw [step_host hp, hnew, History.held_append ref new _ hkinds, hsends,
      gain_sends ref hplace hr hroot]
    omega
  · rw [step_host hp, hcontexts hne]
  · rw [entry, step_host hp]
    exact (hbut d hd).1

/-- A freed context stays as it is, whatever is done, until it is forgotten. -/
theorem step_freed (hs : s.Orderly) (hc : c ∈ s.host.contexts) (hr : (s.entry c).realm = none)
    (hop : op ≠ .dropContext c) :
    c ∈ (s.step op).host.contexts ∧ (s.step op).entry c = s.entry c := by
  by_cases hp : s.permits op
  swap
  · rw [step_of_not_permits hp]
    exact ⟨hc, rfl⟩
  by_cases hplace : op.place? = some c
  · have hcontexts := (absorbs_of_freed hs hc hr hplace hp).contexts hop
    rw [entry, hcontexts]
    exact ⟨hc, rfl⟩
  -- Whatever an operation touches, it is about.
  cases htouched : op.touched? with
  | none =>
      rw [entry, step_host hp, (run_quiet htouched s.host).1]
      exact ⟨hc, rfl⟩
  | some d =>
      have hd : c ≠ d := by
        rintro rfl
        exact hplace (place_of_touched htouched)
      obtain ⟨hentry, hmem⟩ := run_apart htouched s.host c hd
      rw [entry, step_host hp, hentry]
      exact ⟨hmem hc, rfl⟩

theorem run_freed {ops : List Operation} (hs : ∀ ops, (s.run ops).Orderly)
    (hc : c ∈ s.host.contexts) (hr : (s.entry c).realm = none) (hops : .dropContext c ∉ ops) :
    c ∈ (s.run ops).host.contexts ∧ (s.run ops).entry c = s.entry c := by
  induction ops generalizing s with
  | nil => exact ⟨hc, rfl⟩
  | cons op ops ih =>
      obtain ⟨hop, hops⟩ := not_or.1 fun h => hops (List.mem_cons.2 h)
      have hnow : s.Orderly := hs []
      obtain ⟨hc', hentry⟩ := step_freed hnow hc hr (Ne.symm hop)
      obtain ⟨hc'', hentry'⟩ := ih (s := s.step op) (fun ops => hs (op :: ops)) hc'
        (by rw [hentry, hr]) hops
      exact ⟨hc'', hentry'.trans hentry⟩

/-- A client of a runtime that was just made is in good order whatever it does. -/
theorem run_orderly (engine : σ) (settings : Settings) (ops : List Operation) :
    ((start (⟨engine, []⟩ : Recorded σ) settings).run ops).Orderly := by
  have hstart : (start (⟨engine, []⟩ : Recorded σ) settings).Kept Accounting.ledger :=
    start_kept ⟨fun _ => rfl, trivial⟩
  exact (run_kept_of_exempt Accounting.ledger_lends Accounting.ledger_leaks (fun _ => trivial)
    hstart ops).toOrderly

/-- A context that gave back what waited with it is there. -/
theorem mem_of_drained {X : Contexts} (hx : (X.entry c).drained) : c ∈ X := by
  by_contra hc
  rw [Contexts.entry, Std.TreeMap.getElem?_eq_none hc] at hx
  cases hx

/-- Once a context was freed, it stays freed with nothing that waits, whatever the client does until
it forgets the context; and all the while it absorbs every operation on it or on a handle of it. -/
theorem freed_absorbs (engine : σ) (settings : Settings) {c : ContextId}
    {before later : List Operation} :
    let full := (start (⟨engine, []⟩ : Recorded σ) settings).run before
    full.isLive c → full.permits (.freeContext c) → .dropContext c ∉ later →
    let s := (full.step (.freeContext c)).run later
    (s.entry c).realm = none ∧ (s.entry c).deferred = #[] ∧ (s.entry c).drained ∧
      Host.pendingReleases c s.host = (.ok 0, s.host) ∧
      ∀ op : Operation, op.place? = some c → s.permits op → s.Absorbs c op := by
  intro full hlive hfree hlater s
  have horderly : ∀ ops, ((full.step (.freeContext c)).run ops).Orderly := by
    intro ops
    have hrun : (full.step (.freeContext c)).run ops =
        (start (⟨engine, []⟩ : Recorded σ) settings).run (before ++ .freeContext c :: ops) := by
      simp only [full, run, List.foldl_append, List.foldl_cons]
    rw [hrun]
    exact run_orderly engine settings _
  obtain ⟨r, hr⟩ := Option.isSome_iff_exists.1 hlive
  obtain ⟨h', hrun, -, hentry, -⟩ := Host.freeContext_asks (h := full.host) rfl hr
  -- The first thing is what freeing leaves of the context; nothing changes that later.
  have hended : (full.step (.freeContext c)).entry c =
      Accounting.ended (Accounting.spent (full.entry c)) := by
    have hhost : ((Operation.freeContext c).run full.host).2 = h' :=
      congrArg Prod.snd ((bind_ok hrun).trans rfl)
    rw [entry, step_host hfree, hhost, hentry]
    rfl
  have hmem : c ∈ (full.step (.freeContext c)).host.contexts :=
    mem_of_drained (by rw [← entry, hended]; rfl)
  have hnone : ((full.step (.freeContext c)).entry c).realm = none := by
    rw [hended]
    rfl
  obtain ⟨hc, hsame⟩ := run_freed horderly hmem hnone hlater
  rw [hended] at hsame
  have hlast : s.entry c = Accounting.ended (Accounting.spent (full.entry c)) := hsame
  refine ⟨by rw [hlast]; rfl, by rw [hlast]; rfl, by rw [hlast]; rfl, ?_, ?_⟩
  · rw [pendingReleases_ok]
    exact congrArg (fun x : Context => (Except.ok x.deferred.size, s.host)) hlast
  · intro op hplace hp
    exact absorbs_of_freed (horderly later) hc (by rw [hlast]; rfl) hplace hp

/-- An object of a live context is to be written into a value of a freed one, and is given back. -/
theorem freed_absorbs_set :
    let full := counting.run [.openContext 0, .openContext 1, .make 1 .object]
    let s := (full.step (.freeContext 0)).run [.make 0 .null]
    let op : Operation := .set ⟨0, .null⟩ (.text "x") ⟨1, .object 48⟩
    full.isLive 0 ∧ full.permits (.freeContext 0) ∧ s.permits op ∧ s.Absorbs 0 op ∧
      op.onFreed (s.entry 0).cache = .error (.panicked .usedAfterFree) ∧
      op.sends s.host.contexts = [.release 0 [.value (.object 48)]] := by
  intro full s op
  have hlive : full.isLive 0 := by decide +kernel
  have hfree : full.permits (.freeContext 0) := by decide +kernel
  have hp : s.permits op := by decide +kernel
  have hlater : Operation.dropContext 0 ∉ [Operation.make 0 .null] := by simp
  obtain ⟨-, -, -, -, habsorbs⟩ := freed_absorbs (σ := Counter) {} {} hlive hfree hlater
  have hrealm : (s.entry 1).realm = some 0 := by decide +kernel
  refine ⟨hlive, hfree, hp, habsorbs op rfl hp, rfl, ?_⟩
  have hrefs : (⟨1, .object 48⟩ : Handle).refs.isEmpty = false := rfl
  change Item.releases s.host.contexts (.value ⟨1, .object 48⟩) = _
  rw [Host.releases_value, hrefs, if_neg (by simp)]
  exact congrArg (fun r : Option RealmId => r.toList.map fun r => Request.release r _) hrealm

end Client

end ScriptHost
