import ScriptHost.Engine.Tag
import ScriptHost.Number.Binary64
import ScriptHost.Text.Units
/-!
# Values and property keys

Everything a script or the host handles is a `Value`.  Objects and symbols are numbers that name
an entry of the machine's tables.  A property key is an index, a name or a symbol; the passage from
text to keys makes indices out of canonical decimals, so that equal keys are equal terms.
-/

namespace ScriptHost

/-- A value of the engine. -/
inductive Value where
  | undefined
  | null
  | bool (b : Bool)
  /-- A number held as a 32-bit integer. -/
  | int (n : Int32)
  /-- A number held as a double. -/
  | float (d : Float)
  | string (t : Text)
  | symbol (id : Nat)
  | bigint (n : Int)
  | object (id : Nat)
  /-- What a binding holds before it is initialized. -/
  | uninitialized
  /-- The sentinel that stands in place of a result when something was thrown. -/
  | exception
deriving DecidableEq, Inhabited

namespace Value

/-- The tag of a value. -/
def tag : Value → Int
  | undefined => Tag.undefined
  | null => Tag.null
  | bool _ => Tag.bool
  | int _ => Tag.int
  | float _ => Tag.float
  | string _ => Tag.string
  | symbol _ => Tag.symbol
  | bigint _ => Tag.bigInt
  | object _ => Tag.object
  | uninitialized => Tag.uninitialized
  | exception => Tag.exception

/-- A number, held as an integer if it is one of 32 bits. -/
def ofInt (n : Int) : Value :=
  if -(twoTo 31) ≤ n && n < twoTo 31 then .int (Int32.ofInt n) else .float (Binary.ofInt n)

/-- A number, held as an integer if it is one of 32 bits and not the negative zero. -/
def ofFloat (d : Float) : Value :=
  match Binary.asInteger? d with
  | some n =>
    if -(twoTo 31) ≤ n && n < twoTo 31 && !Binary.isNegZero d then .int (Int32.ofInt n) else .float d
  | none => .float d

/-- A natural number as a value. -/
def ofNat (n : Nat) : Value := ofInt n

/-- A host string as a value. -/
def str (s : String) : Value := .string (Text.ofString s)

/-- Whether a value is null or undefined. -/
def isNullish : Value → Bool
  | undefined | null => true
  | _ => false

/-- Whether a value is undefined. -/
def isUndefined : Value → Bool
  | undefined => true
  | _ => false

/-- Whether a value is an object. -/
def isObject : Value → Bool
  | object _ => true
  | _ => false

/-- The number of an object. -/
def objectId? : Value → Option Nat
  | object id => some id
  | _ => none

/-- The number that a numeric value stands for. -/
def number? : Value → Option Float
  | int n => some (Binary.ofInt n.toInt)
  | float d => some d
  | _ => none

/-- Equality of values by content, numbers by their bits. -/
def same (a b : Value) : Bool := decide (a = b)

/-- The same value: like `===`, but a NaN equals itself and the zeros differ. -/
def sameValue (a b : Value) : Bool :=
  match a.number?, b.number? with
  | some x, some y => x.toBits == y.toBits || (x.isNaN && y.isNaN)
  | none, none => a.same b
  | _, _ => false

/-- The same value, where the two zeros are one. -/
def sameValueZero (a b : Value) : Bool :=
  match a.number?, b.number? with
  | some x, some y => x == y || (x.isNaN && y.isNaN)
  | none, none => a.same b
  | _, _ => false

/-- Equality of the operator `===`. -/
def strictEquals (a b : Value) : Bool :=
  match a.number?, b.number? with
  | some x, some y => x == y
  | none, none => a.same b
  | _, _ => false

end Value

/-! ## Property keys -/

/-- A property key. -/
inductive Key where
  /-- An index below `2 ^ 32 - 1`, in canonical decimal form. -/
  | index (n : Nat)
  /-- Any other string. -/
  | name (t : Text)
  /-- A symbol or a private name. -/
  | symbol (id : Nat)
  /-- No key: what stands for one that could not be made. -/
  | null
deriving DecidableEq, Inhabited

namespace Key

/-- One more than the largest index. -/
def indexLimit : Nat := twoTo 32 - 1

/-- The index that a text writes in canonical decimal form. -/
def indexOfText? (t : Text) : Option Nat :=
  if t.size == 0 || t.size > 10 then none
  else if !t.isDigits then none
  else if t.at' 0 == 48 && t.size != 1 then none
  else
    let n := t.digitsValue
    if n < indexLimit then some n else none

/-- The key that a text names. -/
def ofText (t : Text) : Key :=
  match indexOfText? t with
  | some n => .index n
  | none => .name t

/-- The key that a host string names; for strings that write no index. -/
def str (s : String) : Key := .name (Text.ofString s)

/-- A natural as a text in decimal form. -/
def natText (n : Nat) : Text := Text.ofString (toString n)

/-- The key of a natural. -/
def ofNat (n : Nat) : Key := if n < indexLimit then .index n else .name (natText n)

/-- The text of a key that is a string. -/
def text? : Key → Option Text
  | index n => some (natText n)
  | name t => some t
  | symbol _ | null => none

/-- The value that a key stands for. -/
def toValue : Key → Value
  | index n => .string (natText n)
  | name t => .string t
  | symbol id => .symbol id
  | null => .string Text.empty

/-- The one key for what a key stands for. -/
def interned : Key → Key
  | index n => ofNat n
  | name t => ofText t
  | symbol id => symbol id
  | null => ofText Text.empty

/-- Whether there is no key. -/
def isNull : Key → Bool
  | null => true
  | _ => false

/-- Whether a key is a symbol. -/
def isSymbol : Key → Bool
  | symbol _ => true
  | _ => false

end Key

/-! ## Well-known symbols -/

namespace WellKnown

/-- The symbols that every machine starts with, by their numbers. -/
def names : List String :=
  ["Symbol.toPrimitive", "Symbol.iterator", "Symbol.match", "Symbol.matchAll", "Symbol.replace",
    "Symbol.search", "Symbol.split", "Symbol.toStringTag", "Symbol.isConcatSpreadable",
    "Symbol.hasInstance", "Symbol.species", "Symbol.unscopables", "Symbol.asyncIterator"]

def toPrimitive : Nat := 0
def iterator : Nat := 1
def matcher : Nat := 2
def matchAll : Nat := 3
def replace : Nat := 4
def search : Nat := 5
def split : Nat := 6
def toStringTag : Nat := 7
def isConcatSpreadable : Nat := 8
def hasInstance : Nat := 9
def species : Nat := 10
def unscopables : Nat := 11
def asyncIterator : Nat := 12

end WellKnown

end ScriptHost
