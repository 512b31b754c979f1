import ScriptHost.Number.Shortest
import ScriptHost.Text.Quoted
/-!
# Documents

The host's own data: null, booleans, numbers, strings, arrays and objects, as they are written to
and read from interchange text.  Integers and other numbers are kept apart.  This file holds the
type and the printer.
-/

namespace ScriptHost

/-- A piece of host data. -/
inductive Document where
  | null
  | bool (b : Bool)
  /-- An integer, within 64 bits with or without sign. -/
  | integer (n : Int)
  /-- Any other number. -/
  | real (d : Float)
  | string (s : String)
  | array (items : List Document)
  /-- Members in the order in which they are written. -/
  | object (members : List (String × Document))
deriving Inhabited

namespace Document

/-- One character of a written string. -/
def escapeChar (c : Char) : String :=
  if c == '"' then "\\\""
  else if c == '\\' then "\\\\"
  else if c == '\n' then "\\n"
  else if c == '\r' then "\\r"
  else if c == '\t' then "\\t"
  else if c.toNat == 8 then "\\b"
  else if c.toNat == 12 then "\\f"
  else if c.toNat < 32 then "\\u" ++ Quoted.hexWidth 4 c.toNat
  else c.toString

/-- A written string. -/
def quote (s : String) : String := s.foldl (fun acc c => acc ++ escapeChar c) "\"" ++ "\""

/-- A finite number that is not zero: positional while the point stands at most 16 places right of
the first digit or at most 4 zeros left of it, with an exponent otherwise, and never without a
point or an exponent. -/
def layoutReal (digits : List Char) (point : Int) : String :=
  let k : Int := digits.length
  -- All digits stand left of the point; zeros fill up.
  if k ≤ point && point ≤ 16 then
    String.ofList (digits ++ List.replicate (point - k).toNat '0') ++ ".0"
  else if 0 < point && point ≤ 16 then
    String.ofList (digits.take point.toNat ++ '.' :: digits.drop point.toNat)
  else if -5 < point && point ≤ 0 then
    "0." ++ String.ofList (List.replicate (-point).toNat '0' ++ digits)
  else
    let e := point - 1
    let expo := (if e < 0 then "e-" else "e+") ++ toString e.natAbs
    match digits with
    | [] => expo
    | [d] => d.toString ++ expo
    | d :: ds => d.toString ++ "." ++ String.ofList ds ++ expo

/-- A written number. -/
def realText (d : Float) : String :=
  match Binary.shape d with
  | .nan | .infinite _ => "null"
  | .finite neg m q =>
    (if neg then "-" else "") ++
      (if m == 0 then "0.0"
       else
        let dec := Shortest.ofScaled .any m q
        layoutReal dec.chars dec.point)

mutual

/-- The document as interchange text, without blanks. -/
def render : Document → String
  | null => "null"
  | bool b => if b then "true" else "false"
  | integer n => toString n
  | real d => realText d
  | string s => quote s
  | array items => "[" ++ renderItems items ++ "]"
  | object members => "\x7b" ++ renderMembers members ++ "\x7d"

/-- Items with commas between them. -/
def renderItems : List Document → String
  | [] => ""
  | [d] => render d
  | d :: ds => render d ++ "," ++ renderItems ds

/-- Members with commas between them. -/
def renderMembers : List (String × Document) → String
  | [] => ""
  | [(k, d)] => quote k ++ ":" ++ render d
  | (k, d) :: ms => quote k ++ ":" ++ render d ++ "," ++ renderMembers ms

end

/-- A member put into its place among members in ascending order of keys; an equal key is
replaced. -/
def insertMember (key : String) (d : Document) : List (String × Document) → List (String × Document)
  | [] => [(key, d)]
  | (k, e) :: ms =>
    if key < k then (key, d) :: (k, e) :: ms
    else if key == k then (key, d) :: ms
    else (k, e) :: insertMember key d ms

mutual

/-- The document with the members of every object in ascending order of keys. -/
def sorted : Document → Document
  | array items => array (sortedItems items)
  | object members => object (sortedMembers members)
  | d => d

/-- Items with sorted objects. -/
def sortedItems : List Document → List Document
  | [] => []
  | d :: ds => sorted d :: sortedItems ds

/-- Members in ascending order of keys; of equal keys the last counts. -/
def sortedMembers : List (String × Document) → List (String × Document)
  | [] => []
  | (k, d) :: ms =>
    let rest := sortedMembers ms
    if rest.any (·.1 == k) then rest else insertMember k (sorted d) rest

end

/-- The member of an object with a key. -/
def member? (d : Document) (key : String) : Option Document :=
  match d with
  | object members => (members.find? (·.1 == key)).map (·.2)
  | _ => none

end Document

end ScriptHost
