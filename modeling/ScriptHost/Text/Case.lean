import ScriptHost.Text.Units
/-!
# Upper and lower case

The case of letters in the Latin, Greek, Cyrillic and Armenian blocks and of the wide Latin forms,
with the few letters that turn into more than one.
-/

namespace ScriptHost

namespace Case

/-- Whether letters of a range alternate between upper and lower case, the upper ones even. -/
def isEvenPair (n : Nat) : Bool :=
  (0x100 ≤ n && n ≤ 0x12F) || (0x132 ≤ n && n ≤ 0x137) || (0x14A ≤ n && n ≤ 0x177) ||
    (0x182 ≤ n && n ≤ 0x185) || (0x1A0 ≤ n && n ≤ 0x1A5) || (0x1DE ≤ n && n ≤ 0x1EF) ||
    (0x1F8 ≤ n && n ≤ 0x21F) || (0x222 ≤ n && n ≤ 0x233) || (0x246 ≤ n && n ≤ 0x24F) ||
    (0x370 ≤ n && n ≤ 0x373) || (0x3D8 ≤ n && n ≤ 0x3EF) || (0x460 ≤ n && n ≤ 0x481) ||
    (0x48A ≤ n && n ≤ 0x4BF) || (0x4D0 ≤ n && n ≤ 0x52F) || (0x1E00 ≤ n && n ≤ 0x1E95) ||
    (0x1EA0 ≤ n && n ≤ 0x1EFF)

/-- The same, the upper ones odd. -/
def isOddPair (n : Nat) : Bool :=
  (0x139 ≤ n && n ≤ 0x148) || (0x179 ≤ n && n ≤ 0x17E) || (0x1CD ≤ n && n ≤ 0x1DC) ||
    (0x4C1 ≤ n && n ≤ 0x4CE)

/-- The lower case of a point. -/
def lowerPoint (n : Nat) : Nat :=
  if 0x41 ≤ n && n ≤ 0x5A then n + 32
  else if n < 0xC0 then n
  else if n ≤ 0xDE && n != 0xD7 then n + 32
  else if n == 0x130 then 0x69
  else if n == 0x178 then 0xFF
  else if isEvenPair n then (if n % 2 == 0 then n + 1 else n)
  else if isOddPair n then (if n % 2 == 1 then n + 1 else n)
  else if n == 0x386 then 0x3AC
  else if 0x388 ≤ n && n ≤ 0x38A then n + 37
  else if n == 0x38C then 0x3CC
  else if n == 0x38E || n == 0x38F then n + 63
  else if 0x391 ≤ n && n ≤ 0x3AB && n != 0x3A2 then n + 32
  else if 0x400 ≤ n && n ≤ 0x40F then n + 80
  else if 0x410 ≤ n && n ≤ 0x42F then n + 32
  else if n == 0x4C0 then 0x4CF
  else if 0x531 ≤ n && n ≤ 0x556 then n + 48
  else if n == 0x1E9E then 0xDF
  else if n == 0x2126 then 0x3C9
  else if n == 0x212A then 0x6B
  else if n == 0x212B then 0xE5
  else if 0x2160 ≤ n && n ≤ 0x216F then n + 16
  else if 0x24B6 ≤ n && n ≤ 0x24CF then n + 26
  else if 0xFF21 ≤ n && n ≤ 0xFF3A then n + 32
  else if 0x10400 ≤ n && n ≤ 0x10427 then n + 40
  else n

/-- The upper case of a point, where it is one point. -/
def upperPoint (n : Nat) : Nat :=
  if 0x61 ≤ n && n ≤ 0x7A then n - 32
  else if n == 0xB5 then 0x39C
  else if n < 0xE0 then n
  else if n ≤ 0xFE && n != 0xF7 then n - 32
  else if n == 0xFF then 0x178
  else if n == 0x131 then 0x49
  else if n == 0x17F then 0x53
  else if isEvenPair n then (if n % 2 == 1 then n - 1 else n)
  else if isOddPair n then (if n % 2 == 0 then n - 1 else n)
  else if n == 0x3AC then 0x386
  else if 0x3AD ≤ n && n ≤ 0x3AF then n - 37
  else if n == 0x3C2 then 0x3A3
  else if 0x3B1 ≤ n && n ≤ 0x3CB then n - 32
  else if n == 0x3CC then 0x38C
  else if n == 0x3CD || n == 0x3CE then n - 63
  else if 0x430 ≤ n && n ≤ 0x44F then n - 32
  else if 0x450 ≤ n && n ≤ 0x45F then n - 80
  else if n == 0x4CF then 0x4C0
  else if 0x561 ≤ n && n ≤ 0x586 then n - 48
  else if 0x2170 ≤ n && n ≤ 0x217F then n - 16
  else if 0x24D0 ≤ n && n ≤ 0x24E9 then n - 26
  else if 0xFF41 ≤ n && n ≤ 0xFF5A then n - 32
  else if 0x10428 ≤ n && n ≤ 0x1044F then n - 40
  else n

/-- The upper case of a point. -/
def upper (n : Nat) : List Nat :=
  if n == 0xDF then [0x53, 0x53]
  else if n == 0x149 then [0x2BC, 0x4E]
  else if n == 0x1F0 then [0x4A, 0x30C]
  else if n == 0xFB00 then [0x46, 0x46]
  else if n == 0xFB01 then [0x46, 0x49]
  else if n == 0xFB02 then [0x46, 0x4C]
  else [upperPoint n]

/-- The lower case of a point. -/
def lower (n : Nat) : List Nat := if n == 0x130 then [0x69, 0x307] else [lowerPoint n]

/-- Whether a point is a letter with a case. -/
def isCased (n : Nat) : Bool := lowerPoint n != n || upperPoint n != n

/-- The form in which points are compared when case does not count. -/
def fold (n : Nat) : Nat :=
  let u := upperPoint n
  if n ≥ 128 && u < 128 then n else u

end Case

namespace Text

/-- The text in upper case. -/
def toUpper (t : Text) : Text :=
  t.points.foldl (fun acc n => (Case.upper n).foldl pushPoint acc) empty

/-- The text in lower case; a sigma at the end of a word takes its final form. -/
def toLower (t : Text) : Text :=
  let ps := t.points
  (ps.foldl (fun (st : Text × Nat) n =>
    let i := st.2
    if n == 0x3A3 && i > 0 && Case.isCased (ps[i - 1]?.getD 0)
        && !(Case.isCased (ps[i + 1]?.getD 0)) then (st.1.pushPoint 0x3C2, i + 1)
    else ((Case.lower n).foldl pushPoint st.1, i + 1)) (empty, 0)).1

end Text

end ScriptHost
