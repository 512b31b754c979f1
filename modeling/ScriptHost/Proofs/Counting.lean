import Mathlib.Data.List.Count
import Mathlib.Data.List.Induction
import ScriptHost.Client.Process
/-!
# An engine that counts

A small engine that runs no code.  Whenever it has to give a value it gives a new object, and an
object lives as long as the host holds a reference to it.  It does what is relied on in engines, so
what is proved under that reliance is not empty.
-/

namespace ScriptHost

/-- The state of an engine that counts. -/
structure Counter where
  /-- The number of the next object. -/
  next : Nat := 0
  /-- The references that the host holds. -/
  held : List Ref := []
  /-- Which objects are buffers over lent memory, and the tokens of that. -/
  lent : List (Nat × Token) := []

namespace Counter

/-- What the engine says if the next object has this number. -/
def reply (n : Nat) : (q : Request) → q.Reply
  | .openRealm | .openBare _ => (some 0 : Option RealmId)
  | .closeRealm _ | .retain _ _ | .release _ _ | .writeRegion _ _ _ | .collect | .shutDown => ()
  | .globalObject _ | .takeException _ | .newText _ _ | .newBig _ _ | .newObject _ | .newArray _
  | .newError _ | .valueOfKey _ _ | .textOfKey _ _ | .get _ _ _ | .getNamed _ _ _ | .call _ _ _ _
  | .construct _ _ _ | .evaluate _ _ _ _ | .readJson _ _ _ | .writeJson _ _ | .copyBuffer _ _
  | .lendBuffer _ _ _ _ => Value.object n
  | .keyOfText _ _ | .keyOfIndex _ _ => Key.symbol n
  | .keyOfValue _ _ => some (Key.symbol n)
  | .set _ _ _ _ | .has _ _ _ | .hasOwn _ _ _ | .delete _ _ _ | .isInstance _ _ _ => some false
  | .ownKeys _ _ _ => (some [] : Option (List Key))
  | .isError _ _ | .isFunction _ _ | .isConstructor _ _ | .toBool _ _ => false
  | .toInt32 _ _ => (none : Option Int32)
  | .toUInt32 _ _ => (none : Option UInt32)
  | .toInt64 _ _ | .toBigInt64 _ _ => (none : Option Int64)
  | .toFloat _ _ => (none : Option Float)
  | .toText _ _ => some ""
  | .bufferRegion _ _ => (none : Option Region)
  | .viewInfo _ _ => (none : Option ViewInfo)
  | .readRegion _ _ _ => ByteArray.empty
  | .runJob => JobEnd.idle

/-- The references that the host holds after a request; none if everything was freed. -/
def heldAfter (s : Counter) (q : Request) : List Ref :=
  match q with
  | .shutDown => []
  | q => q.given (reply s.next q) ++ s.held.diff q.taken

/-- The buffers over lent memory with the one that a request asks for. -/
def lentWith (s : Counter) (q : Request) : List (Nat × Token) :=
  match q with
  | .lendBuffer _ _ _ t => (s.next, t) :: s.lent
  | _ => s.lent

/-- The buffers over lent memory to which the host holds a reference after a request. -/
def lentAfter (s : Counter) (q : Request) : List (Nat × Token) :=
  (s.lentWith q).filter fun l => .value (.object l.1) ∈ s.heldAfter q

/-- The tokens of the buffers that die on a request. -/
def freedOn (s : Counter) (q : Request) : List Token :=
  ((s.lentWith q).map Prod.snd).filter fun t => t ∉ (s.lentAfter q).map Prod.snd

instance : Engine Counter where
  answer q s := ⟨reply s.next q, ⟨s.next + 1, s.heldAfter q, s.lentAfter q⟩, s.freedOn q⟩

/-- The objects that were given and to which the host holds no reference any more. -/
def Freed (s : Counter) : Ref → Prop
  | .value (.object id) => id < s.next ∧ .value (.object id) ∉ s.held
  | _ => False

instance (s : Counter) : DecidablePred s.Freed := fun r => by
  unfold Freed
  split <;> infer_instance

/-! ## Counting -/

theorem count_heldAfter {s : Counter} {q : Request} (hq : q ≠ .shutDown)
    (hle : ∀ r, q.taken.count r ≤ s.held.count r) (r : Ref) :
    ((s.heldAfter q).count r : Int) =
      s.held.count r + (q.given (reply s.next q)).count r - q.taken.count r := by
  have hheld : s.heldAfter q = q.given (reply s.next q) ++ s.held.diff q.taken := by
    unfold heldAfter
    split
    · contradiction
    · rfl
  have hr := hle r
  rw [hheld, List.count_append, List.count_diff]
  omega

/-- As long as the host is careful and does not have everything freed, the engine counts what its
history tells. -/
theorem held_eq_count (qs : List Request) (hqs : .shutDown ∉ qs)
    (hcareful : History.Careful (Recorded.asked ⟨({} : Counter), []⟩ qs).history) (r : Ref) :
    History.held r (Recorded.asked ⟨({} : Counter), []⟩ qs).history =
      (Recorded.asked ⟨({} : Counter), []⟩ qs).engine.held.count r := by
  induction qs using List.reverseRecOn generalizing r with
  | nil => rfl
  | append_singleton qs q ih =>
      rw [Recorded.asked_concat] at hcareful ⊢
      obtain ⟨-, htaken, hcareful⟩ := hcareful
      have hq : q ≠ .shutDown := fun h => hqs (by simp [h])
      have ih := ih (fun h => hqs (List.mem_append_left _ h)) hcareful
      have hle : ∀ r, q.taken.count r ≤
          (Recorded.asked ⟨({} : Counter), []⟩ qs).engine.held.count r := by
        intro r
        have hr := htaken r
        rw [ih r] at hr
        exact Int.ofNat_le.1 hr
      rw [Recorded.answer_history, History.held, ih r]
      exact (count_heldAfter hq hle r).symm

/-- The engine frees nothing to which the host holds a reference. -/
theorem keepsHeld : Recorded.KeepsHeld Freed ({} : Counter) := by
  intro qs hqs hcareful r hr hfreed
  rw [held_eq_count qs hqs hcareful r, Int.natCast_pos, List.count_pos_iff] at hr
  cases r with
  | value v =>
      cases v with
      | object id => exact hfreed.2 hr
      | _ => exact hfreed
  | key k => exact hfreed

/-! ## Lent memory -/

/-- The tokens of the memory under buffers that are alive. -/
def touched (s : Counter) : Finset Token := (s.lent.map Prod.snd).toFinset

/-- The tokens of buffers, with the one that a request asks for. -/
theorem tokens_lentWith (s : Counter) (q : Request) :
    (s.lentWith q).map Prod.snd = (q.lent (reply s.next q)).map Prod.fst ++ s.lent.map Prod.snd := by
  cases q <;> rfl

theorem lentAfter_subset (s : Counter) (q : Request) :
    (s.lentAfter q).map Prod.snd ⊆ (s.lentWith q).map Prod.snd :=
  List.map_subset _ List.filter_sublist.subset

theorem mem_freedOn {s : Counter} {q : Request} {t : Token} :
    t ∈ s.freedOn q ↔ t ∈ (s.lentWith q).map Prod.snd ∧ t ∉ (s.lentAfter q).map Prod.snd := by
  simp [freedOn]

/-- The engine deals with lent memory as it should. -/
theorem lending : Lending touched where
  answer q s := by
    ext t
    have hwith : t ∈ touched s ∪ ((q.lent (reply s.next q)).map Prod.fst).toFinset ↔
        t ∈ (s.lentWith q).map Prod.snd := by
      rw [tokens_lentWith, List.mem_append, Finset.mem_union, touched, List.mem_toFinset,
        List.mem_toFinset, or_comm]
    have hafter : t ∈ touched (Engine.answer q s).state ↔ t ∈ (s.lentAfter q).map Prod.snd :=
      List.mem_toFinset
    have hfreed : t ∈ (Engine.answer q s).freed.toFinset ↔ t ∈ s.freedOn q := List.mem_toFinset
    rw [hafter, Finset.mem_sdiff, hfreed, mem_freedOn]
    refine ⟨fun h => ⟨hwith.2 (lentAfter_subset s q h), fun hgone => hgone.2 h⟩, ?_⟩
    rintro ⟨h, hstays⟩
    by_contra hgone
    exact hstays ⟨hwith.1 h, hgone⟩
  freed q s t ht := by
    have hmem := (mem_freedOn.1 ht).1
    rw [tokens_lentWith, List.mem_append] at hmem
    exact hmem.symm.imp_left List.mem_toFinset.2
  shutDown s := by
    have hnone : s.lentAfter .shutDown = [] := by simp [lentAfter, heldAfter]
    have htouched : touched (Engine.answer .shutDown s).state =
        ((s.lentAfter .shutDown).map Prod.snd).toFinset := rfl
    rw [htouched, hnone]
    rfl

end Counter

end ScriptHost
