/-!
# Text as UTF-16 code units

Script strings are sequences of 16-bit units, so a surrogate may stand alone in them.  This file
holds the type, the passage from host strings (which never lose anything) and the passage back,
where every unpaired surrogate becomes three replacement characters, one for each byte of its
encoded form.
-/

namespace ScriptHost

/-- A script string: any sequence of 16-bit units, paired surrogates or not. -/
structure Text where
  /-- The units, in order. -/
  units : Array UInt16
deriving DecidableEq, Inhabited, Hashable

namespace Text

/-- The string without units. -/
def empty : Text := ⟨#[]⟩

/-- How many units the string has. -/
def size (t : Text) : Nat := t.units.size

/-- Whether the string has no units. -/
def isEmpty (t : Text) : Bool := t.units.isEmpty

/-- The unit at a position. -/
def get? (t : Text) (i : Nat) : Option UInt16 := t.units[i]?

/-- The number at a position, zero past the end. -/
def at' (t : Text) (i : Nat) : Nat := (t.units[i]?.getD 0).toNat

/-- One string after the other. -/
def append (a b : Text) : Text := ⟨a.units ++ b.units⟩

instance : Append Text := ⟨append⟩

/-- The string with one more unit. -/
def push (t : Text) (u : UInt16) : Text := ⟨t.units.push u⟩

/-- The units from `start` up to but not including `stop`. -/
def slice (t : Text) (start stop : Nat) : Text := ⟨t.units.extract start stop⟩

/-- A string of one unit. -/
def single (u : UInt16) : Text := ⟨#[u]⟩

/-! ## Surrogates -/

/-- First half of a pair. -/
def isLead (u : UInt16) : Bool := 0xD800 ≤ u.toNat && u.toNat < 0xDC00

/-- Second half of a pair. -/
def isTrail (u : UInt16) : Bool := 0xDC00 ≤ u.toNat && u.toNat < 0xE000

/-- The code point that a pair stands for. -/
def pairValue (lead trail : UInt16) : Nat :=
  0x10000 + (lead.toNat - 0xD800) * 0x400 + (trail.toNat - 0xDC00)

/-- The units of one code point. -/
def unitsOf (n : Nat) : List UInt16 :=
  if n < 0x10000 then [UInt16.ofNat n]
  else [UInt16.ofNat (0xD800 + (n - 0x10000) / 0x400),
    UInt16.ofNat (0xDC00 + (n - 0x10000) % 0x400)]

/-- The string with one more code point. -/
def pushPoint (t : Text) (n : Nat) : Text :=
  if n < 0x10000 then ⟨t.units.push (UInt16.ofNat n)⟩
  else ⟨(t.units.push (UInt16.ofNat (0xD800 + (n - 0x10000) / 0x400))).push
    (UInt16.ofNat (0xDC00 + (n - 0x10000) % 0x400))⟩

/-- The string made of the given characters. -/
def ofChars (cs : List Char) : Text :=
  cs.foldl (fun t c => t.pushPoint c.toNat) empty

/-- The string that a host string stands for. -/
def ofString (s : String) : Text := ofChars s.toList

/-- The code point that starts at a position, with the number of units it takes; an unpaired
surrogate stands for itself. -/
def pointAt (t : Text) (i : Nat) : Nat × Nat :=
  match t.get? i with
  | none => (0, 0)
  | some u =>
    if isLead u then
      match t.get? (i + 1) with
      | some v => if isTrail v then (pairValue u v, 2) else (u.toNat, 1)
      | none => (u.toNat, 1)
    else (u.toNat, 1)

/-- The code points of the string, unpaired surrogates standing for themselves. -/
def points (t : Text) : Array Nat :=
  let step := fun (st : Array Nat × Option UInt16) (u : UInt16) =>
    match st.2 with
    | some lead =>
      if isTrail u then (st.1.push (pairValue lead u), none)
      else if isLead u then (st.1.push lead.toNat, some u)
      else ((st.1.push lead.toNat).push u.toNat, none)
    | none => if isLead u then (st.1, some u) else (st.1.push u.toNat, none)
  let r := t.units.foldl step (#[], none)
  match r.2 with
  | some lead => r.1.push lead.toNat
  | none => r.1

/-! ## To a host string -/

/-- What stands for an unpaired surrogate in a host string. -/
def replacement : String := "\uFFFD\uFFFD\uFFFD"

/-- One unit more of the host string: `st.2` is a first half that still waits for its second. -/
def decodeStep (st : String × Option UInt16) (u : UInt16) : String × Option UInt16 :=
  match st.2 with
  | some lead =>
    if isTrail u then (st.1.push (Char.ofNat (pairValue lead u)), none)
    else if isLead u then (st.1 ++ replacement, some u)
    else ((st.1 ++ replacement).push (Char.ofNat u.toNat), none)
  | none =>
    if isLead u then (st.1, some u)
    else if isTrail u then (st.1 ++ replacement, none)
    else (st.1.push (Char.ofNat u.toNat), none)

/-- The host string: pairs are joined, an unpaired surrogate becomes `replacement`. -/
def toHostString (t : Text) : String :=
  let r := t.units.foldl decodeStep ("", none)
  match r.2 with
  | some _ => r.1 ++ replacement
  | none => r.1

instance : ToString Text := ⟨toHostString⟩

/-! ## Comparison and search -/

/-- Order of two unit sequences from a position on. -/
def compareFrom (a b : Array UInt16) : Nat → Nat → Ordering
  | 0, _ => .eq
  | fuel + 1, i =>
    match a[i]?, b[i]? with
    | none, none => .eq
    | none, some _ => .lt
    | some _, none => .gt
    | some x, some y => if x < y then .lt else if y < x then .gt else compareFrom a b fuel (i + 1)

/-- Order by units, a proper beginning first. -/
def compare (a b : Text) : Ordering := compareFrom a.units b.units (a.size + 1) 0

/-- Whether `part` stands in `t` at a position. -/
def matchesAt (t part : Text) (i : Nat) : Bool :=
  i + part.size ≤ t.size && t.units.extract i (i + part.size) == part.units

/-- The first position from `i` on where `part` stands. -/
def findFrom (t part : Text) : Nat → Nat → Option Nat
  | 0, _ => none
  | fuel + 1, i =>
    if i + part.size > t.size then none
    else if t.matchesAt part i then some i
    else findFrom t part fuel (i + 1)

/-- The first position at or after `start` where `part` stands. -/
def indexOf? (t part : Text) (start : Nat) : Option Nat :=
  findFrom t part (t.size + 1) start

/-- The last position at or before `start` where `part` stands. -/
def lastIndexOf? (t part : Text) : Nat → Option Nat
  | 0 => if t.matchesAt part 0 then some 0 else none
  | start + 1 =>
      if t.matchesAt part (start + 1) then some (start + 1) else lastIndexOf? t part start

/-- The string written `n` times, by halving. -/
def repeatTimes (t : Text) (n : Nat) : Text :=
  let rec go : Nat → Nat → Text
    | 0, _ => empty
    | _ + 1, 0 => empty
    | fuel + 1, n + 1 =>
      if n == 0 then t
      else
        let half := go fuel ((n + 1) / 2)
        if (n + 1) % 2 == 0 then half ++ half else half ++ half ++ t
  go (n.log2 + 2) n

/-- The strings in order, with `sep` between neighbours. -/
def joinWith (sep : Text) (parts : List Text) : Text :=
  match parts with
  | [] => empty
  | p :: ps => ps.foldl (fun acc q => acc ++ sep ++ q) p

/-- The characters of a string that holds ASCII only, others as they come. -/
def toAsciiList (t : Text) : List Char :=
  t.units.toList.map fun u => Char.ofNat u.toNat

/-- Whether every unit is an ASCII digit, and there is one. -/
def isDigits (t : Text) : Bool :=
  !t.isEmpty && t.units.all fun u => 48 ≤ u.toNat && u.toNat ≤ 57

/-- The number that a run of ASCII digits writes. -/
def digitsValue (t : Text) : Nat :=
  t.units.foldl (fun n u => n * 10 + (u.toNat - 48)) 0

end Text

/-- Writes a host string as a script string. -/
abbrev txt (s : String) : Text := Text.ofString s

end ScriptHost
