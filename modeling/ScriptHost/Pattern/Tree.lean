import ScriptHost.Text.Units
/-!
# Patterns as trees

What a regular expression says, without its spelling.
-/

namespace ScriptHost

namespace Pattern

/-- One item between brackets, or an escape that stands for a set. -/
inductive ClassItem where
  /-- The points from one to another, both included. -/
  | range (low high : Nat)
  /-- Digits, or with `true` everything else. -/
  | digits (negated : Bool)
  /-- Letters, digits and the underscore, or everything else. -/
  | wordChars (negated : Bool)
  /-- Blanks, or everything else. -/
  | blanks (negated : Bool)
deriving DecidableEq, Inhabited, Repr

/-- Patterns. -/
inductive Node where
  | empty
  | char (point : Nat)
  /-- Any point but a line end. -/
  | any
  | set (negated : Bool) (items : List ClassItem)
  | seq (a b : Node)
  | alt (a b : Node)
  /-- A group whose text is kept under a number. -/
  | group (index : Nat) (body : Node)
  /-- The text that a group kept. -/
  | back (index : Nat)
  | backNamed (name : Text)
  /-- Repetition; the groups from `first` up to `last` forget their text in each round. -/
  | loop (least : Nat) (most : Option Nat) (greedy : Bool) (first last : Nat) (body : Node)
  | lineStart
  | lineEnd
  | boundary (negated : Bool)
  /-- What comes next, or with `ahead` false what came before, without moving on. -/
  | look (ahead negated : Bool) (body : Node)
deriving Inhabited

/-- The flags of a regular expression. -/
structure Flags where
  hasIndices : Bool := false
  global : Bool := false
  ignoreCase : Bool := false
  multiline : Bool := false
  dotAll : Bool := false
  unicode : Bool := false
  unicodeSets : Bool := false
  sticky : Bool := false
deriving DecidableEq, Inhabited, Repr

end Pattern

/-- A regular expression that was read. -/
structure Pattern where
  node : Pattern.Node := .empty
  flags : Pattern.Flags := {}
  /-- How many groups keep text, the whole match included. -/
  groups : Nat := 1
  /-- The names of groups. -/
  names : List (Text × Nat) := []
deriving Inhabited

end ScriptHost
