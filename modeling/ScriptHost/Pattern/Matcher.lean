import ScriptHost.Pattern.Tree
import ScriptHost.Text.Blank
import ScriptHost.Text.Case
/-!
# Matching regular expressions

A matcher tries what a pattern says at a place and hands the place reached on to what comes next;
when that fails, the next way is tried.  Looking back works the same way, toward the start.
-/

namespace ScriptHost

namespace Pattern

/-- Where a match stands: a position and the texts kept so far. -/
structure MatchState where
  pos : Nat
  kept : Array (Option (Nat × Nat))
deriving Inhabited

/-- What a match goes by. -/
structure Ground where
  text : Text
  flags : Flags
  names : List (Text × Nat)

namespace Ground

/-- Whether points are whole characters. -/
def unicode (g : Ground) : Bool := g.flags.unicode || g.flags.unicodeSets

/-- The point that comes next from a position, and the position after it. -/
def next? (g : Ground) (back : Bool) (pos : Nat) : Option (Nat × Nat) :=
  if back then
    if pos == 0 then none
    else
      let u := g.text.units[pos - 1]?.getD 0
      if g.unicode && pos ≥ 2 && Text.isTrail u then
        let v := g.text.units[pos - 2]?.getD 0
        if Text.isLead v then some (Text.pairValue v u, pos - 2) else some (u.toNat, pos - 1)
      else some (u.toNat, pos - 1)
  else if pos ≥ g.text.size then none
  else if g.unicode then
    let (n, w) := g.text.pointAt pos
    some (n, pos + w)
  else some (g.text.at' pos, pos + 1)

/-- The form in which a point is compared. -/
def canon (g : Ground) (n : Nat) : Nat := if g.flags.ignoreCase then Case.fold n else n

/-- Letters, digits and the underscore. -/
def isWord (n : Nat) : Bool :=
  (48 ≤ n && n ≤ 57) || (65 ≤ n && n ≤ 90) || (97 ≤ n && n ≤ 122) || n == 95

/-- Whether an item holds a point. -/
def itemHas (n : Nat) : ClassItem → Bool
  | .range a b => a ≤ n && n ≤ b
  | .digits neg => (48 ≤ n && n ≤ 57) != neg
  | .wordChars neg => isWord n != neg
  | .blanks neg => Blank.isBlank n != neg

/-- Whether a set holds a point. -/
def setHas (g : Ground) (items : List ClassItem) (n : Nat) : Bool :=
  items.any (itemHas n) ||
    (g.flags.ignoreCase &&
      (items.any (itemHas (Case.upperPoint n)) || items.any (itemHas (Case.lowerPoint n))))

/-- Whether a word starts or ends at a position. -/
def isBoundary (g : Ground) (pos : Nat) : Bool :=
  let before := pos > 0 && isWord (g.text.at' (pos - 1))
  let after := pos < g.text.size && isWord (g.text.at' pos)
  before != after

/-- Whether two stretches of text are the same, as far as case counts. -/
def sameText (g : Ground) (a b n : Nat) : Bool :=
  (List.range n).all fun i => g.canon (g.text.at' (a + i)) == g.canon (g.text.at' (b + i))

end Ground

/-- Forgets the texts of groups. -/
def forget (kept : Array (Option (Nat × Nat))) (first last : Nat) : Array (Option (Nat × Nat)) :=
  (List.range (last - first)).foldl (fun k i => k.setIfInBounds (first + i) none) kept

/-- Tries a pattern; `fuel` bounds how far one way of matching may go. -/
def tryNode (g : Ground) : Nat → Node → Bool → MatchState → (MatchState → Option MatchState) →
    Option MatchState
  | 0, _, _, _, _ => none
  | fuel + 1, n, back, s, k =>
    match n with
    | .empty => k s
    | .char p =>
      match g.next? back s.pos with
      | some (q, pos) => if g.canon p == g.canon q then k { s with pos := pos } else none
      | none => none
    | .any =>
      match g.next? back s.pos with
      | some (q, pos) =>
          if g.flags.dotAll || !Blank.isLineEnd q then k { s with pos := pos } else none
      | none => none
    | .set neg items =>
      match g.next? back s.pos with
      | some (q, pos) => if g.setHas items q != neg then k { s with pos := pos } else none
      | none => none
    | .seq a b =>
      if back then tryNode g fuel b back s fun s => tryNode g fuel a back s k
      else tryNode g fuel a back s fun s => tryNode g fuel b back s k
    | .alt a b =>
      match tryNode g fuel a back s k with
      | some r => some r
      | none => tryNode g fuel b back s k
    | .group i b =>
      let start := s.pos
      tryNode g fuel b back s fun s =>
        let range := if back then (s.pos, start) else (start, s.pos)
        k { s with kept := s.kept.setIfInBounds i (some range) }
    | .back i => reference i back s k
    | .backNamed name =>
      match g.names.find? (·.1 == name) with
      | some (_, i) => reference i back s k
      | none => k s
    | .loop least most greedy first last b =>
      let more : Option MatchState :=
        if most == some 0 then none
        else
          let start := s.pos
          tryNode g fuel b back { s with kept := forget s.kept first last } fun t =>
            -- A round that took nothing would be taken for ever.
            if t.pos == start && least == 0 then none
            else tryNode g fuel (.loop (least - 1) (most.map (· - 1)) greedy first last b) back t k
      if least > 0 then more
      else if greedy then
        match more with
        | some r => some r
        | none => k s
      else
        match k s with
        | some r => some r
        | none => more
    | .lineStart =>
      if s.pos == 0 || (g.flags.multiline && Blank.isLineEnd (g.text.at' (s.pos - 1))) then k s
      else none
    | .lineEnd =>
      if s.pos == g.text.size || (g.flags.multiline && Blank.isLineEnd (g.text.at' s.pos)) then k s
      else none
    | .boundary neg => if g.isBoundary s.pos != neg then k s else none
    | .look ahead neg b =>
      match tryNode g fuel b (!ahead) s some with
      -- What groups kept inside is kept; the position goes back.
      | some t => if neg then none else k { t with pos := s.pos }
      | none => if neg then k s else none
where
  /-- The text that a group kept, once more. -/
  reference (i : Nat) (back : Bool) (s : MatchState) (k : MatchState → Option MatchState) :
      Option MatchState :=
    match s.kept[i]?.join with
    -- A group that took no part matches as if it were empty.
    | none => k s
    | some (a, b) =>
      let n := b - a
      if back then
        if n ≤ s.pos && g.sameText a (s.pos - n) n then k { s with pos := s.pos - n } else none
      else if s.pos + n ≤ g.text.size && g.sameText a s.pos n then k { s with pos := s.pos + n }
      else none

/-- How many parts a pattern has. -/
def Node.weight : Node → Nat
  | .seq a b | .alt a b => a.weight + b.weight + 1
  | .group _ b | .look _ _ b => b.weight + 1
  | .loop least _ _ _ _ b => (b.weight + 1) * (least + 2)
  | _ => 1

end Pattern

/-- The match of a pattern at a position: the stretches that its groups kept, the whole first. -/
def Pattern.matchAt (p : Pattern) (t : Text) (pos : Nat) : Option (Array (Option (Nat × Nat))) :=
  let g : Pattern.Ground := ⟨t, p.flags, p.names⟩
  let fuel := (t.size + 2) * (p.node.weight + 2) * 2
  match Pattern.tryNode g fuel p.node false ⟨pos, .replicate p.groups none⟩ some with
  | some s => some (s.kept.setIfInBounds 0 (some (pos, s.pos)))
  | none => none

/-- The first match of a pattern at or after a position. -/
def Pattern.matchFrom (p : Pattern) (t : Text) : Nat → Nat → Option (Array (Option (Nat × Nat)))
  | 0, _ => none
  | fuel + 1, pos =>
    if pos > t.size then none
    else
      match p.matchAt t pos with
      | some m => some m
      | none => if p.flags.sticky then none else matchFrom p t fuel (pos + 1)

end ScriptHost
