/-!
# Loops that may go on for ever

A step of a loop goes on with something or comes to an end.  A loop that comes to no end has no outcome.
-/

namespace ScriptHost

namespace Loop

variable {α β : Type}

/-- From `a`, step after step, a loop comes to the end `b`. -/
inductive Comes (step : α → α ⊕ β) : α → β → Prop
  | here {a : α} {b : β} (h : step a = .inr b) : Comes step a b
  | later {a a' : α} {b : β} (h : step a = .inl a') (hb : Comes step a' b) : Comes step a b

/-- Where a loop that began at `a` has come to. -/
structure Place (step : α → α ⊕ β) (a : α) where
  place : α
  onWay : ∀ b, Comes step place b → Comes step a b

/-- What a loop that began at `a` has come to. -/
structure Outcome (step : α → α ⊕ β) (a : α) where
  outcome : Option β
  comes : ∀ b, outcome = some b → Comes step a b

variable {step : α → α ⊕ β} {a : α}

instance : Nonempty (Outcome step a) := ⟨⟨none, nofun⟩⟩

/-- One step of a loop that began at `a`. -/
def next (x : Place step a) : Place step a ⊕ Outcome step a :=
  match h : step x.place with
  | .inl a' => .inl ⟨a', fun b hb => x.onWay b (.later h hb)⟩
  | .inr b =>
    .inr ⟨some b, fun _ hb => x.onWay _ (.here (h.trans (congrArg _ (Option.some.inj hb))))⟩

theorem next_inl {x : Place step a} {a' : α} (h : step x.place = .inl a') :
    next x = .inl ⟨a', fun b hb => x.onWay b (.later h hb)⟩ := by
  unfold next
  split
  next h' =>
    cases h.symm.trans h'
    rfl
  next h' => cases h.symm.trans h'

theorem next_inr {x : Place step a} {b : β} (h : step x.place = .inr b) :
    ∃ o, next x = .inr o ∧ o.outcome = some b := by
  unfold next
  split
  next h' => cases h.symm.trans h'
  next h' =>
    cases h.symm.trans h'
    exact ⟨_, rfl, rfl⟩

/-- Goes on from where the loop has come to. -/
def goOn (x : Place step a) : Outcome step a := repeatM (m := Id) next x

theorem goOn_eq (x : Place step a) : goOn x = (next x).elim goOn id := by
  have hbody : goOn x = repeatM.body (m := Id) next goOn x := repeatM_eq_of_monadTail (m := Id) x
  rw [hbody, repeatM.body]
  cases next x <;> rfl

theorem goOn_of_comes {x : α} {b : β} (h : Comes step x b) (hx : ∀ b, Comes step x b → Comes step a b) :
    (goOn ⟨x, hx⟩).outcome = some b := by
  induction h with
  | here h =>
      obtain ⟨o, hnext, ho⟩ := next_inr (x := ⟨_, hx⟩) h
      rw [goOn_eq, hnext]
      exact ho
  | later h _ ih =>
      rw [goOn_eq, next_inl h]
      exact ih _

end Loop

open Loop (Comes)

variable {α β : Type} {step : α → α ⊕ β} {a : α} {b : β}

/-- What a loop comes to, if it comes to an end. -/
def untilEnd (step : α → α ⊕ β) (a : α) : Option β :=
  (Loop.goOn (⟨a, fun _ => id⟩ : Loop.Place step a)).outcome

theorem untilEnd_eq_some : untilEnd step a = some b ↔ Comes step a b :=
  ⟨(Loop.goOn ⟨a, fun _ => id⟩).comes b, fun h => Loop.goOn_of_comes h _⟩

theorem untilEnd_of_inr (h : step a = .inr b) : untilEnd step a = some b :=
  untilEnd_eq_some.2 (.here h)

theorem untilEnd_of_inl {a' : α} (h : step a = .inl a') : untilEnd step a = untilEnd step a' := by
  refine Option.ext fun b => ?_
  rw [untilEnd_eq_some, untilEnd_eq_some]
  constructor
  · rintro (hend | ⟨hgoes, hb⟩)
    · cases h.symm.trans hend
    · cases h.symm.trans hgoes
      exact hb
  · exact .later h

end ScriptHost
