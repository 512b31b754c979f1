import Mathlib.Algebra.Ring.Nat
import ScriptHost.Text.Units
/-!
# Texts on their way to the host

What a sequence of 16-bit units stands for, told unit by unit, and the bytes in which it leaves the
engine.  The bytes are those of UTF-8, but for unpaired surrogates, which are written the same way
although they are no characters.  A decoder that never fails puts a replacement character for bytes that
are not UTF-8.
-/

namespace ScriptHost

namespace Text

variable (t : Text)

/-- Whether a first half of a pair stands at a position. -/
def leadsAt (i : Nat) : Bool := t.units[i]?.any isLead

/-- Whether a second half of a pair stands at a position. -/
def trailsAt (i : Nat) : Bool := t.units[i]?.any isTrail

/-- The code point that begins at a position: none in the midst of a pair, and an unpaired surrogate
for itself. -/
def pointAt? (i : Nat) : Option Nat :=
  if i ≠ 0 ∧ t.leadsAt (i - 1) ∧ t.trailsAt i then none
  else if t.leadsAt i ∧ t.trailsAt (i + 1) then
    some (pairValue (t.units[i]?.getD 0) (t.units[i + 1]?.getD 0))
  else t.units[i]?.map UInt16.toNat

/-- The code points of a text, in order. -/
def codePoints : List Nat := (List.range t.size).filterMap t.pointAt?

end Text

/-- Whether a code point is a surrogate, which is no character. -/
def IsSurrogate (n : Nat) : Prop := 0xD800 ≤ n ∧ n < 0xE000

instance (n : Nat) : Decidable (IsSurrogate n) := inferInstanceAs (Decidable (_ ∧ _))

/-- What the host sees of a code point: the character, or three replacement characters. -/
def shownPoint (n : Nat) : List Char :=
  if IsSurrogate n then ['\uFFFD', '\uFFFD', '\uFFFD'] else [Char.ofNat n]

/-- The bytes of a code point; those of a surrogate are written as if it were a character. -/
def pointBytes (n : Nat) : List UInt8 :=
  if IsSurrogate n then
    [UInt8.ofNat (0xE0 + n / 0x1000), UInt8.ofNat (0x80 + n / 0x40 % 0x40),
      UInt8.ofNat (0x80 + n % 0x40)]
  else String.utf8EncodeChar (Char.ofNat n)

/-- The bytes in which a text leaves the engine. -/
def Text.bytes (t : Text) : List UInt8 := t.codePoints.flatMap pointBytes

namespace Utf8

/-- Bytes with which a character may begin. -/
def Begins (bs : List UInt8) : Prop := ∃ c : Char, bs <+: String.utf8EncodeChar c

/-- What a decoder reads that never fails.  Where no character stands, one replacement character is put
for the longest beginning of a character, or for a single byte. -/
inductive Lossy : List UInt8 → List Char → Prop
  | nil : Lossy [] []
  | char (c : Char) {rest : List UInt8} {cs : List Char} :
      Lossy rest cs → Lossy (String.utf8EncodeChar c ++ rest) (c :: cs)
  | replaced {b : UInt8} {bs rest : List UInt8} {cs : List Char} :
      (∀ c : Char, ¬String.utf8EncodeChar c <+: b :: (bs ++ rest)) →
      (bs ≠ [] → Begins (b :: bs)) →
      (∀ b' ∈ rest.head?, ¬Begins (b :: bs ++ [b'])) →
      Lossy rest cs → Lossy (b :: (bs ++ rest)) ('\uFFFD' :: cs)

end Utf8

/-- How many 16-bit units a host string takes. -/
def utf16Length (s : String) : Nat := (s.toList.map fun c => if c.toNat < 0x10000 then 1 else 2).sum

end ScriptHost
