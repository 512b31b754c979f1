import ScriptHost.Client.Thrown
import ScriptHost.Proofs.Clients
import ScriptHost.Proofs.Composed
import ScriptHost.Proofs.ObjectsAsMaps
/-!
# How arguments get to the engine

A call asks the engine once, with the values of the arguments in their order, and then asks it at
most to describe what was thrown.  A bound function puts the leading arguments in front, so it does
what a call with all the arguments does.  References to arguments stay with whoever has them.
-/

namespace ScriptHost

open Accounting (bind_ok bind_error tryCatch_ok tryCatch_error live_ok live_error context_ok)

/-! ## Rows -/

namespace ArgBuffer

variable {b : ArgBuffer}

/-- The engine is pointed to nothing if there are no values. -/
theorem pointer_eq (b : ArgBuffer) :
    b.pointer = if b.values = [] then none else some b.values := by
  unfold pointer
  simp only [List.isEmpty_iff]

/-- A number of values that fits is told as it is. -/
theorem count_toInt (h : b.values.length < 2 ^ 31) : b.count.toInt = b.values.length :=
  Int32.toInt_ofNat_of_lt h

/-- The engine reads all the values if their number fits. -/
theorem passed_eq (h : b.values.length < 2 ^ 31) : b.passed = b.values := by
  have hread : b.pointer.getD [] = b.values := by
    rw [pointer_eq]
    split
    next hnone => exact hnone.symm
    next => rfl
  rw [passed, hread, count_toInt h, Int.toNat_natCast, List.take_length]

end ArgBuffer

theorem values_marshal (hs : List Handle) : (marshal hs).values = hs.map (·.value) := rfl

theorem length_marshal (hs : List Handle) : (marshal hs).values.length = hs.length := by
  rw [values_marshal, List.length_map]

/-- The engine reads the values of the arguments in their order. -/
theorem passed_marshal {hs : List Handle} (h : hs.length < 2 ^ 31) :
    (marshal hs).passed = hs.map (·.value) :=
  ArgBuffer.passed_eq (by rwa [length_marshal])

/-- Memory is taken just for rows that do not fit in place. -/
theorem spilled_marshal (hs : List Handle) :
    (marshal hs).spilled = decide (inlineArguments < hs.length) := by
  simp [marshal, ArgBuffer.withRoom, ArgBuffer.extend, ArgBuffer.spilled]

/-! ## What is asked -/

namespace Host

variable {σ : Type} [Engine σ] {α : Type} {P : Request → Prop}

/-- Everything that an action asks that is composed of requests of some kind is of that kind. -/
theorem Composed.asks {x : Action (Recorded σ) α} (hx : Composed P x) (s : Host (Recorded σ)) :
    ∃ new : History σ, (x s).2.engine.history = new ++ s.engine.history ∧
      ∀ y ∈ new, P y.request := by
  -- The newest exchanges come first, so those of the second part stand before the others.
  induction hx generalizing s with
  | pure a | throw e => exact ⟨[], rfl, by simp⟩
  | context c =>
      rw [context_ok]
      exact ⟨[], rfl, by simp⟩
  | @ask q hq =>
      obtain ⟨s', hrun, -, hengine, -⟩ := Accounting.ask_eq q s
      rw [hrun, hengine]
      exact ⟨[s.engine.exchange q], rfl, fun y hy => List.mem_singleton.1 hy ▸ hq⟩
  | @bind _ _ x f _ _ ihx ihf =>
      obtain ⟨new, hnew, hP⟩ := ihx s
      rcases hrun : x s with ⟨e | a, s₁⟩
      · rw [hrun] at hnew
        rw [bind_error hrun]
        exact ⟨new, hnew, hP⟩
      · rw [hrun] at hnew
        obtain ⟨new₁, hnew₁, hP₁⟩ := ihf a s₁
        rw [bind_ok hrun]
        refine ⟨new₁ ++ new, by rw [hnew₁, hnew, List.append_assoc], fun y hy => ?_⟩
        exact (List.mem_append.1 hy).elim (hP₁ y) (hP y)
  | @tryCatch _ x f _ _ ihx ihf =>
      obtain ⟨new, hnew, hP⟩ := ihx s
      rcases hrun : x s with ⟨e | a, s₁⟩
      · rw [hrun] at hnew
        obtain ⟨new₁, hnew₁, hP₁⟩ := ihf e s₁
        rw [tryCatch_error hrun]
        refine ⟨new₁ ++ new, by rw [hnew₁, hnew, List.append_assoc], fun y hy => ?_⟩
        exact (List.mem_append.1 hy).elim (hP₁ y) (hP y)
      · rw [hrun] at hnew
        rw [tryCatch_ok hrun]
        exact ⟨new, hnew, hP⟩

/-- The engine is asked a certain request first, and after that at most to describe what was
thrown. -/
def AsksOnce (q : Request) (x : Action (Recorded σ) α) (s : Host (Recorded σ)) : Prop :=
  ∃ later : History σ,
    (x s).2.engine.history = later ++ s.engine.exchange q :: s.engine.history ∧
      ∀ y ∈ later, y.request.describes

/-- What is asked and then checked is asked once. -/
theorem asksOnce_checked {q : Request} {s : Host (Recorded σ)} {x : Action (Recorded σ) α}
    {f : q.Reply → Action (Recorded σ) α} (hx : x s = (Host.ask q >>= f) s)
    (hf : ∀ a, Composed (fun q => q.describes) (f a)) : AsksOnce q x s := by
  obtain ⟨s', hrun, -, hengine, -⟩ := Accounting.ask_eq q s
  obtain ⟨later, hlater, hdescribes⟩ := (hf (Engine.answer q s.engine).reply).asks s'
  rw [AsksOnce, hx, bind_ok hrun]
  refine ⟨later, ?_, hdescribes⟩
  rw [hlater, hengine]
  rfl

end Host

/-! ## Whose the references are -/

namespace Accounting

variable {σ : Type} [Engine σ] {X : Contexts} {c : ContextId} {base : Ref → Int} {α : Type}

/-- What is asked moves references from the host to the engine and back. -/
theorem held_ask {M : Multiset Ref} {e : Recorded σ} {q : Request}
    (hbooks : ∀ r, History.held r e.history = base r + ((q.taken : Multiset Ref) + M).count r)
    (r : Ref) : History.held r (Engine.answer q e).state.history =
      base r + ((q.given (Engine.answer q e).reply : Multiset Ref) + M).count r := by
  have hr := hbooks r
  rw [Multiset.count_add, Multiset.coe_count] at hr
  rw [Recorded.answer_history, History.held, hr, Multiset.count_add, Multiset.coe_count]
  simp only [Recorded.exchange, Exchange.given, Exchange.taken, Recorded.answer_reply]
  omega

/-- How many references the host holds beside some that it held before. -/
def beside (base : Ref → Int) : Accounting (Recorded σ) where
  books M x _ := ∀ r, History.held r x.history = base r + M.count r
  exempt _ := True
  ask _ _ _ hbooks := held_ask hbooks

theorem usable_beside {K : Multiset Ref} {refs : List Ref} :
    Usable (beside base : Accounting (Recorded σ)) X K c refs := fun _ _ _ => .inl trivial

/-- Any host holds what it holds. -/
theorem owing_beside (s : Host (Recorded σ)) (M : Multiset Ref) :
    (beside fun r => History.held r s.engine.history -
      (M + Contexts.bag s.contexts).count r).Owing s.contexts M s where
  contexts := rfl
  books _ := (Int.sub_add_cancel _ _).symm

/-- A host that is left with other references than it started with holds as many more or less. -/
theorem held_of_owing {s s' : Host (Recorded σ)} {M N : Multiset Ref}
    (h : (beside fun r => History.held r s.engine.history -
      (M + Contexts.bag s.contexts).count r).Owing s.contexts N s') (r : Ref) :
    History.held r s'.engine.history =
      History.held r s.engine.history - M.count r + N.count r := by
  have hbooks := h.books r
  dsimp only at hbooks
  rw [Multiset.count_add, Multiset.count_add] at hbooks
  omega

end Accounting

namespace Host

variable {σ : Type} [Engine σ] {c : ContextId}

/-- The references of a result, if there is one. -/
def yielded (r : Except Stop Handle) : List Ref := (r.toOption.map Handle.refs).getD []

/-- How calls get to the engine: what it is asked, and that nobody's references change but for those
of the result. -/
structure Marshals (q : RealmId → Request) (c : ContextId) (x : Action (Recorded σ) Handle) :
    Prop where
  once : ∀ s r, (Contexts.entry s.contexts c).realm = some r → AsksOnce (q r) x s
  borrows : ∀ s r, History.held r (x s).2.engine.history =
    History.held r s.engine.history + (yielded (x s).1).count r

theorem borrows_of_makes {x : Action (Recorded σ) Handle}
    (hx : ∀ base X, (Accounting.beside base).Makes X 0 c x) (s : Host (Recorded σ)) (r : Ref) :
    History.held r (x s).2.engine.history =
      History.held r s.engine.history + (yielded (x s).1).count r := by
  have hends := hx _ _ s (Accounting.owing_beside s 0)
  rcases hrun : x s with ⟨e | h, s'⟩
  · rw [hrun] at hends
    have hheld := Accounting.held_of_owing hends r
    have hnone : yielded (.error e) = [] := rfl
    rw [hheld, hnone]
    simp
  · rw [hrun] at hends
    have hheld := Accounting.held_of_owing hends.2 r
    have hsome : yielded (.ok h) = h.refs := rfl
    rw [hheld, hsome]
    simp

/-! ## Calls -/

variable {f : Handle} {this : Option Handle} {p a : List Handle}

theorem call_marshals (ha : a.length < 2 ^ 31) :
    Marshals (fun r => .call r f.value ((this.map (·.value)).getD .undefined) (a.map (·.value)))
      f.context (Host.call f this a : Action (Recorded σ) Handle) where
  once s r hr := by
    refine asksOnce_checked (f := Host.check f.context) ?_ fun v => .check (fun _ hq => hq) v
    rw [Host.call, Host.invoke, bind_ok (live_ok hr), passed_marshal ha]
  borrows := borrows_of_makes fun _ _ => Accounting.call_makes Accounting.usable_beside
    (fun _ _ => Accounting.usable_beside) fun _ _ => Accounting.usable_beside

theorem construct_marshals (ha : a.length < 2 ^ 31) :
    Marshals (fun r => .construct r f.value (a.map (·.value))) f.context
      (Host.construct f a : Action (Recorded σ) Handle) where
  once s r hr := by
    refine asksOnce_checked (f := Host.check f.context) ?_ fun v => .check (fun _ hq => hq) v
    rw [Host.construct, bind_ok (live_ok hr), passed_marshal ha]
  borrows := borrows_of_makes fun _ _ => Accounting.construct_makes Accounting.usable_beside
    fun _ _ => Accounting.usable_beside

/-! ## Bound functions -/

/-- What comes of binding, if anything does: all its parts are in live contexts, and there is a new
reference to each. -/
theorem bind_inv {s₀ s₁ : Host (Recorded σ)} {b : BoundFunction}
    (hbind : Host.bind f this p s₀ = (.ok b, s₁)) :
    b = ⟨f, this.getD (Host.newUndefined f.context), p⟩ ∧ s₁.contexts = s₀.contexts ∧
      (∀ h ∈ b.handles, Accounting.Rooted s₀.contexts h.context h.refs) ∧
      ∀ r, History.held r s₁.engine.history =
        History.held r s₀.engine.history + b.refs.count r := by
  -- What the host held at the start, less what its contexts wait to give back, is held throughout.
  let A : Accounting (Recorded σ) := Accounting.beside fun r =>
    History.held r s₀.engine.history - (0 + Contexts.bag s₀.contexts).count r
  have husable : ∀ h : Handle, Accounting.Usable A s₀.contexts 0 h.context h.refs :=
    fun _ => Accounting.usable_beside
  have hends := Accounting.bind_triple (husable f) (fun h (_ : h ∈ this) => husable h)
    (fun h (_ : h ∈ p) => husable h) s₀ (Accounting.owing_beside s₀ 0)
  rw [hbind] at hends
  obtain ⟨⟨hb, hrooted⟩, howing⟩ := hends
  refine ⟨hb, howing.contexts, hrooted, fun r => ?_⟩
  have hheld := Accounting.held_of_owing howing r
  rw [hheld]
  simp

/-- Giving handles of live contexts back takes the references in them and no others. -/
theorem drops_held {s : Host (Recorded σ)} {ds : List Handle}
    (hds : ∀ h ∈ ds, Accounting.Rooted s.contexts h.context h.refs) (r : Ref) :
    History.held r (ds.forM Host.drop s).2.engine.history =
      History.held r s.engine.history - (ds.flatMap Handle.refs).count r := by
  have hspends : ∀ base : Ref → Int, (Accounting.beside base).Spends s.contexts
      (ds.flatMap Handle.refs : List Ref) 0 (ds.forM Host.drop : Action (Recorded σ) Unit) :=
    fun _ => Accounting.Spends.forM fun h hh _ => Accounting.drop_spends (hds h hh)
  have hends := hspends _ s (Accounting.owing_beside s _)
  rcases hrun : ds.forM Host.drop s with ⟨e | u, s'⟩
  · rw [hrun] at hends
    exact hends.elim
  · rw [hrun] at hends
    have hheld := Accounting.held_of_owing hends.2 r
    rw [hheld]
    simp

/-- A call of a bound function is a call with the leading arguments in front. -/
theorem callBound_eq {σ : Type} [Engine σ] (a : List Handle) :
    Host.callBound ⟨f, this.getD (Host.newUndefined f.context), p⟩ a =
      (Host.call f this (p ++ a) : Action σ Handle) := by
  have hthis : (this.getD (Host.newUndefined f.context)).value =
      (this.map (·.value)).getD .undefined := by
    cases this <;> rfl
  -- The rows are put together in different ways, but the engine reads nothing but their values.
  have hpassed : ∀ b b' : ArgBuffer, b.values = b'.values → b.passed = b'.passed := by
    intro b b' h
    unfold ArgBuffer.passed ArgBuffer.pointer ArgBuffer.count
    rw [h]
  unfold Host.callBound Host.call Host.invoke
  dsimp only
  rw [hthis, hpassed _ (marshal (p ++ a)) List.map_append.symm]

/-- A bound function has all that it was made of. -/
theorem mem_handles_of_given {h : Handle} (hh : h ∈ f :: this.toList ++ p) :
    h ∈ BoundFunction.handles ⟨f, this.getD (Host.newUndefined f.context), p⟩ := by
  rcases List.mem_append.1 hh with hh | hh
  · rcases List.mem_cons.1 hh with rfl | hh
    · exact List.mem_cons_self
    · rw [Option.mem_toList.1 hh]
      exact List.mem_cons_of_mem _ List.mem_cons_self
  · exact List.mem_cons_of_mem _ (List.mem_cons_of_mem _ hh)

end Host

namespace Client

variable {σ : Type} [Engine σ]

/-- A call asks the engine once, with the values of all its arguments in their order, and borrows
them.  A bound function has references of its own to everything that it was made of, so it makes no
difference to it which of the handles are given back; and whenever it is called, it does what a call
with the leading arguments in front does. -/
theorem calls_marshal (f : Handle) (this : Option Handle) :
    (∀ a : List Handle, a.length < 2 ^ 31 →
      (marshal a).count.toInt = a.length ∧
      (marshal a).pointer = (if a = [] then none else some (a.map (·.value))) ∧
      Host.Marshals (fun r =>
          .call r f.value ((this.map (·.value)).getD .undefined) (a.map (·.value)))
        f.context (Host.call f this a : Action (Recorded σ) Handle) ∧
      Host.Marshals (fun r => .construct r f.value (a.map (·.value))) f.context
        (Host.construct f a : Action (Recorded σ) Handle)) ∧
    ∀ (p : List Handle) (s₀ s₁ : Host (Recorded σ)) (b : BoundFunction),
      Host.bind f this p s₀ = (.ok b, s₁) →
      (∀ a : List Handle, p.length + a.length < 2 ^ 31 →
        Host.Marshals (fun r =>
            .call r f.value ((this.map (·.value)).getD .undefined) ((p ++ a).map (·.value)))
          f.context (Host.callBound b a : Action (Recorded σ) Handle)) ∧
      (Host.callBound b : List Handle → Action (Recorded σ) Handle) =
        (fun a => Host.call f this (p ++ a)) ∧
      ∀ ds : List Handle, ds ⊆ f :: this.toList ++ p →
        (∀ r, ((ds.flatMap Handle.refs).count r : Int) ≤ History.held r s₀.engine.history) →
        ∀ r, (b.refs.count r : Int) ≤ History.held r (ds.forM Host.drop s₁).2.engine.history := by
  constructor
  · intro a ha
    refine ⟨?_, ?_, Host.call_marshals ha, Host.construct_marshals ha⟩
    · rw [ArgBuffer.count_toInt (by rwa [length_marshal]), length_marshal]
    · simp only [ArgBuffer.pointer_eq, values_marshal, List.map_eq_nil_iff]
  · intro p s₀ s₁ b hbind
    obtain ⟨hb, hcontexts, hrooted, hheld⟩ := Host.bind_inv hbind
    have hcall : (Host.callBound b : List Handle → Action (Recorded σ) Handle) =
        fun a => Host.call f this (p ++ a) := by
      funext a
      rw [hb, Host.callBound_eq]
    refine ⟨fun a ha => ?_, hcall, fun ds hds howned r => ?_⟩
    · rw [hcall]
      exact Host.call_marshals (by rwa [List.length_append])
    · have hparts : ∀ h ∈ ds, h ∈ b.handles := fun h hh => hb ▸ Host.mem_handles_of_given (hds hh)
      -- What is given back was held before the function was bound, so what binding took remains.
      have hdrops := Host.drops_held (s := s₁)
        (fun h hh => hcontexts ▸ hrooted h (hparts h hh)) r
      have hr := howned r
      rw [hdrops, hheld r]
      omega

/-- An object is bound to itself, with as many leading arguments as fit in place, and given back;
the bound function still has two references to it, and passes one argument more than fits. -/
theorem calls_marshal_self :
    let f : Handle := ⟨0, .object 1⟩
    let p : List Handle := [⟨0, .int 1⟩, ⟨0, .null⟩, ⟨0, .bool true⟩, ⟨0, .int 4⟩]
    let s := (Host.newObject 0 inheritingHost.recorded).2
    let args : List Value := [.int 1, .null, .bool true, .int 4, .int 5]
    ∃ b s₁, Host.bind f (some f) p s = (.ok b, s₁) ∧
      Host.AsksOnce (.call 0 (.object 1) (.object 1) args) (Host.callBound b [⟨0, .int 5⟩])
        ([f].forM Host.drop s₁).2 ∧
      2 ≤ History.held (.value (.object 1)) ([f].forM Host.drop s₁).2.engine.history := by
  intro f p s args
  let b : BoundFunction := ⟨f, f, p⟩
  have hbound : (Host.bind f (some f) p s).1 = .ok b := by decide +kernel
  have hbind : Host.bind f (some f) p s = (.ok b, (Host.bind f (some f) p s).2) :=
    Prod.fst_eq_iff.1 hbound
  obtain ⟨hcalls, -, hkept⟩ := (calls_marshal f (some f)).2 p s _ b hbind
  -- The history gave the object once and took nothing, and it is all that is dropped.
  have howned : ∀ r, (([f].flatMap Handle.refs).count r : Int) ≤
      History.held r s.engine.history := by
    intro r
    have hrefs : [f].flatMap Handle.refs = [.value (.object 1)] := rfl
    have hhistory : History.held r s.engine.history =
        0 + List.count r [.value (.object 1)] - List.count r [] := rfl
    rw [hrefs, hhistory]
    simp
  refine ⟨b, _, hbind, ?_, ?_⟩
  · refine (hcalls [⟨0, .int 5⟩] (by decide)).once _ 0 ?_
    decide +kernel
  · exact hkept [f] (by simp) howned (.value (.object 1))

end Client

end ScriptHost
