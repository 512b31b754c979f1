/-!
# Powers

Powers of two and of ten, which bound and scale numbers everywhere, and powers of integers.
-/

namespace ScriptHost

/-- Two to a power. -/
abbrev twoTo (n : Nat) : Nat := Nat.pow 2 n

/-- Ten to a power. -/
abbrev tenTo (n : Nat) : Nat := Nat.pow 10 n

/-- An integer to a power. -/
def intPower (a : Int) (n : Nat) : Int :=
  if a < 0 && n % 2 == 1 then -(Nat.pow a.natAbs n : Int) else Nat.pow a.natAbs n

end ScriptHost
