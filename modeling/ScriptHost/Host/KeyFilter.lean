import ScriptHost.Text.Quoted
/-!
# Which own keys an enumeration reports

A set of up to four marks, written as bits.
-/

namespace ScriptHost

/-- A set of marks that choose own keys. -/
structure KeyFilter where
  /-- Report keys that are strings. -/
  strings : Bool := false
  /-- Report keys that are symbols. -/
  symbols : Bool := false
  /-- Report private names. -/
  privates : Bool := false
  /-- Leave out what is not enumerable. -/
  enumerableOnly : Bool := false
deriving DecidableEq, Inhabited, Repr

namespace KeyFilter

/-- The bit of string keys. -/
def stringsBit : Nat := 1
/-- The bit of symbol keys. -/
def symbolsBit : Nat := 2
/-- The bit of private names. -/
def privatesBit : Nat := 4
/-- The bit that leaves out what is not enumerable. -/
def enumerableBit : Nat := 16

/-- The set as bits. -/
def bits (f : KeyFilter) : Nat :=
  (if f.strings then stringsBit else 0) + (if f.symbols then symbolsBit else 0) +
    (if f.privates then privatesBit else 0) + (if f.enumerableOnly then enumerableBit else 0)

/-- The set that bits stand for; bits without a meaning are ignored. -/
def ofBitsTruncate (bits : Int32) : KeyFilter :=
  let has := fun (b : Nat) => bits.toUInt32.toNat / b % 2 == 1
  ⟨has stringsBit, has symbolsBit, has privatesBit, has enumerableBit⟩

/-- The set that bits stand for, if every bit has a meaning. -/
def ofBits? (bits : Int32) : Option KeyFilter :=
  let f := ofBitsTruncate bits
  if f.bits == bits.toUInt32.toNat then some f else none

/-- Every mark. -/
def all : KeyFilter := ⟨true, true, true, true⟩

/-- The marks as a list, in the order of their bits. -/
def names (f : KeyFilter) : List String :=
  (if f.strings then ["STRINGS"] else []) ++ (if f.symbols then ["SYMBOLS"] else []) ++
    (if f.privates then ["PRIVATE"] else []) ++
      (if f.enumerableOnly then ["ENUMERABLE_ONLY"] else [])

/-- The set in words. -/
def diagnostic (f : KeyFilter) : String :=
  "PropertyFilter(" ++ (if f.names.isEmpty then "0x0" else String.intercalate " | " f.names) ++ ")"

/-- A set built mark by mark from two others. -/
def zipWith (op : Bool → Bool → Bool) (a b : KeyFilter) : KeyFilter :=
  ⟨op a.strings b.strings, op a.symbols b.symbols, op a.privates b.privates,
    op a.enumerableOnly b.enumerableOnly⟩

/-- Marks in either set. -/
def union : KeyFilter → KeyFilter → KeyFilter := zipWith or
/-- Marks in both sets. -/
def inter : KeyFilter → KeyFilter → KeyFilter := zipWith and
/-- Marks in the first set only. -/
def diff : KeyFilter → KeyFilter → KeyFilter := zipWith fun a b => a && !b
/-- Marks in exactly one of the sets. -/
def symmetricDiff : KeyFilter → KeyFilter → KeyFilter := zipWith xor
/-- Marks that are not in the set. -/
def complement (f : KeyFilter) : KeyFilter := diff all f
/-- Whether the first set has every mark of the second. -/
def contains (a b : KeyFilter) : Bool := inter a b == b
/-- Whether the sets share a mark. -/
def intersects (a b : KeyFilter) : Bool := inter a b != {}

/-- String keys that are enumerable. -/
def enumerableStrings : KeyFilter := { strings := true, enumerableOnly := true }

end KeyFilter

end ScriptHost
