import Std.Data.TreeMap
/-!
# Memory lent to engines

A region that is lent to an engine is pinned under a token of its own until the engine gives it
back.  Tokens are words that count up from one; as long as they have not run once around, none is
used twice and none is zero, which is no token.
-/

namespace ScriptHost

/-- The word by which an engine knows a region. -/
abbrev Token := UInt64

/-- A piece of host memory. -/
structure PinnedRegion where
  address : Nat
  length : Nat
deriving DecidableEq, Inhabited, Repr

/-- How many tokens there are before they run around. -/
def tokenLimit : Nat := UInt64.size - 1

/-- The regions that are lent, and how many tokens were drawn. -/
structure Pins where
  /-- The regions that are lent, by their tokens. -/
  regions : Std.TreeMap Token PinnedRegion := {}
  /-- How many tokens were drawn. -/
  drawn : Nat := 0
  /-- The first address that was never handed out. -/
  top : Nat := 1
  /-- Until they run around, the tokens in use are among those drawn. -/
  drawn_of_mem : drawn ≤ tokenLimit → ∀ t ∈ regions, 0 < t.toNat ∧ t.toNat ≤ drawn := by
    intro _ t ht
    exact absurd ht Std.TreeMap.not_mem_emptyc

namespace Pins

/-- Nothing is lent. -/
def empty : Pins := {}

instance : Inhabited Pins := ⟨empty⟩

/-- How many regions are lent. -/
def live (p : Pins) : Nat := p.regions.size

/-- The region that is lent under a token. -/
def region? (p : Pins) (token : Token) : Option PinnedRegion := p.regions.get? token

/-- The token that is drawn next. -/
def next (p : Pins) : Token := UInt64.ofNat (p.drawn + 1)

/-- The region that is lent next, if it has a length. -/
def fresh (p : Pins) (length : Nat) : PinnedRegion := ⟨p.top, length⟩

theorem toNat_next {p : Pins} (h : p.drawn < tokenLimit) : p.next.toNat = p.drawn + 1 := by
  have hlt : p.drawn + 1 < UInt64.size := by
    simp only [tokenLimit] at h
    omega
  rw [next, UInt64.toNat_ofNat', Nat.mod_eq_of_lt hlt]

/-- Lends a new region under the next token. -/
def lend (p : Pins) (length : Nat) : Pins where
  regions := p.regions.insert p.next (p.fresh length)
  drawn := p.drawn + 1
  top := p.top + length
  drawn_of_mem := by
    intro hdrawn t ht
    rcases Std.TreeMap.mem_insert.1 ht with heq | hold
    · have hnext : p.next = t := Std.LawfulEqCmp.eq_of_compare heq
      rw [← hnext, toNat_next hdrawn]
      exact ⟨Nat.succ_pos _, Nat.le_refl _⟩
    · obtain ⟨hpos, hle⟩ := p.drawn_of_mem (Nat.le_of_succ_le hdrawn) t hold
      exact ⟨hpos, Nat.le_succ_of_le hle⟩

/-- Takes a region back, if it is lent. -/
def giveBack (p : Pins) (token : Token) : Pins where
  regions := p.regions.erase token
  drawn := p.drawn
  top := p.top
  drawn_of_mem hdrawn t ht := p.drawn_of_mem hdrawn t (Std.TreeMap.mem_of_mem_erase ht)

/-- What becomes of the regions when an engine gives one back under a token that it may have made up
or used before. -/
def takeBack (p : Pins) (token : Token) : Pins :=
  if token == 0 then p
  else
    match p.region? token with
    | some _ => p.giveBack token
    | none => p

/-! ## Regions under a token -/

theorem region?_lend (p : Pins) (length : Nat) (t : Token) :
    (p.lend length).region? t = if p.next = t then some (p.fresh length) else p.region? t := by
  simp [region?, lend, Std.TreeMap.getElem?_insert, Std.LawfulEqCmp.compare_eq_iff_eq]

theorem region?_giveBack (p : Pins) (t u : Token) :
    (p.giveBack t).region? u = if t = u then none else p.region? u := by
  simp [region?, giveBack, Std.TreeMap.getElem?_erase, Std.LawfulEqCmp.compare_eq_iff_eq]

theorem mem_of_region? {p : Pins} {t : Token} {r : PinnedRegion} (h : p.region? t = some r) :
    t ∈ p.regions := by
  rw [Std.TreeMap.mem_iff_isSome_getElem?]
  simpa [region?] using congrArg Option.isSome h

/-- A token that was not drawn yet is not in use. -/
theorem region?_next {p : Pins} (h : p.drawn < tokenLimit) : p.region? p.next = none := by
  cases hr : p.region? p.next with
  | none => rfl
  | some r =>
      have hle := (p.drawn_of_mem (Nat.le_of_lt h) _ (mem_of_region? hr)).2
      rw [toNat_next h] at hle
      omega

@[simp] theorem drawn_takeBack (p : Pins) (t : Token) : (p.takeBack t).drawn = p.drawn := by
  unfold takeBack
  split
  · rfl
  · split <;> rfl

@[simp] theorem drawn_takeBacks (p : Pins) (ts : List Token) :
    (ts.foldl takeBack p).drawn = p.drawn := by
  induction ts generalizing p with
  | nil => rfl
  | cons t ts ih => rw [List.foldl_cons, ih, drawn_takeBack]

/-- What is left of regions when some are given back.  Zero is no token, so nothing is given back
under it. -/
def without (regions : Token → Option PinnedRegion) (gone : List Token) (t : Token) :
    Option PinnedRegion :=
  if t ∈ gone ∧ t ≠ 0 then none else regions t

@[simp] theorem without_nil (regions : Token → Option PinnedRegion) :
    without regions [] = regions := by
  funext t
  simp [without]

theorem without_cons (regions : Token → Option PinnedRegion) (t : Token) (ts : List Token) :
    without regions (t :: ts) = without (without regions [t]) ts := by
  funext u
  simp only [without, List.mem_cons]
  grind

theorem without_append (regions : Token → Option PinnedRegion) (ts us : List Token) :
    without regions (ts ++ us) = without (without regions us) ts := by
  funext t
  simp only [without, List.mem_append]
  grind

theorem region?_takeBack (p : Pins) (t : Token) :
    (p.takeBack t).region? = without p.region? [t] := by
  funext u
  simp only [without, List.mem_singleton]
  unfold takeBack
  split
  next hzero =>
    have ht : t = 0 := eq_of_beq hzero
    rw [if_neg]
    rintro ⟨rfl, hu⟩
    exact hu ht
  next hzero =>
    have hne : t ≠ 0 := fun h => hzero (beq_iff_eq.2 h)
    cases hr : p.region? t with
    | some r =>
        by_cases hu : u = t
        · rw [region?_giveBack, if_pos hu.symm, if_pos ⟨hu, hu ▸ hne⟩]
        · rw [region?_giveBack, if_neg (Ne.symm hu), if_neg fun h => hu h.1]
    | none =>
        by_cases hu : u = t
        · rw [if_pos ⟨hu, hu ▸ hne⟩, hu, hr]
        · rw [if_neg fun h => hu h.1]

/-- A region that is given back is gone, and no other one is. -/
theorem region?_takeBacks (p : Pins) (ts : List Token) :
    (ts.foldl takeBack p).region? = without p.region? ts := by
  induction ts generalizing p with
  | nil => simp
  | cons t ts ih =>
      rw [List.foldl_cons, ih, region?_takeBack, ← without_cons]

/-- It makes no difference whether a region is given back before others or after them. -/
theorem region?_giveBack_takeBacks (p : Pins) (t : Token) (ts : List Token) :
    ((ts.foldl takeBack p).giveBack t).region? = without (p.giveBack t).region? ts := by
  funext u
  rw [region?_giveBack, region?_takeBacks, without, without, region?_giveBack]
  by_cases hu : t = u
  · rw [if_pos hu, if_pos hu, ite_self]
  · rw [if_neg hu, if_neg hu]

/-- A region that was lent and given back leaves no trace, until the tokens run around. -/
theorem region?_giveBack_lend {p : Pins} (h : p.drawn < tokenLimit) (length : Nat) :
    ((p.lend length).giveBack p.next).region? = p.region? := by
  funext t
  rw [region?_giveBack, region?_lend]
  by_cases ht : p.next = t
  · rw [if_pos ht, ← ht, region?_next h]
  · rw [if_neg ht, if_neg ht]

/-! ## Counting regions -/

/-- Where the same regions are lent, as many are. -/
theorem live_congr {p q : Pins} (h : ∀ t, p.region? t = q.region? t) : p.live = q.live := by
  have hequiv : p.regions.Equiv q.regions := Std.TreeMap.Equiv.of_forall_constGet?_eq h
  exact hequiv.size_eq

theorem live_lend {p : Pins} (h : p.drawn < tokenLimit) (length : Nat) :
    (p.lend length).live = p.live + 1 := by
  have hnext : ¬p.regions.contains p.next := by
    intro hmem
    have hsome := Std.TreeMap.mem_iff_isSome_getElem?.1 (Std.TreeMap.contains_iff_mem.1 hmem)
    have hnone : p.regions[p.next]? = none := region?_next h
    rw [hnone] at hsome
    cases hsome
  rw [live, lend, Std.TreeMap.size_insert, if_neg hnext, live]

end Pins

end ScriptHost
