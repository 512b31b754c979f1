import ScriptHost.Text.Units
/-!
# Blank space

Which code points separate words in script text and in numerals: the ASCII blanks, the no-break
and zero-width marks, the Unicode space separators, and the line ends.
-/

namespace ScriptHost

namespace Blank

/-- The four line ends. -/
def isLineEnd (n : Nat) : Bool := n == 0x0A || n == 0x0D || n == 0x2028 || n == 0x2029

/-- Space separators outside ASCII, with the no-break space and the byte order mark. -/
def isWideSpace (n : Nat) : Bool :=
  n == 0xA0 || n == 0x1680 || (0x2000 ≤ n && n ≤ 0x200A) || n == 0x202F || n == 0x205F ||
    n == 0x3000 || n == 0xFEFF

/-- Blank space or a line end. -/
def isBlank (n : Nat) : Bool :=
  (0x09 ≤ n && n ≤ 0x0D) || n == 0x20 || isWideSpace n || isLineEnd n

end Blank

namespace Text

/-- How many blank units stand at the start. -/
def leadingBlanks (t : Text) : Nat :=
  (t.units.toList.takeWhile fun u => Blank.isBlank u.toNat).length

/-- The last position after which only blanks stand, at most `n`. -/
def trailingStop (t : Text) : Nat → Nat
  | 0 => 0
  | n + 1 => if Blank.isBlank (t.at' n) then trailingStop t n else n + 1

/-- The string without blanks at the start. -/
def trimStart (t : Text) : Text := t.slice t.leadingBlanks t.size

/-- The string without blanks at the end. -/
def trimEnd (t : Text) : Text := t.slice 0 (t.trailingStop t.size)

/-- The string without blanks at either end. -/
def trim (t : Text) : Text := t.trimEnd.trimStart

end Text

end ScriptHost
