/-!
# Value tags

The numbers by which the engine tells kinds of values apart.  Tags of values that live on the heap
are negative.
-/

namespace ScriptHost

namespace Tag

/-- Big integers. -/
def bigInt : Int := -9
/-- Symbols. -/
def symbol : Int := -8
/-- Strings. -/
def string : Int := -7
/-- Objects. -/
def object : Int := -1
/-- Numbers held as 32-bit integers. -/
def int : Int := 0
/-- Booleans. -/
def bool : Int := 1
/-- The null value. -/
def null : Int := 2
/-- The undefined value. -/
def undefined : Int := 3
/-- A binding that was not yet given a value. -/
def uninitialized : Int := 4
/-- A mark on the operand stack, never a value of a script. -/
def catchOffset : Int := 5
/-- The sentinel that says an exception is pending. -/
def exception : Int := 6
/-- Numbers held as doubles. -/
def float : Int := 7

/-- Whether values with this tag are counted references. -/
def isCounted (tag : Int) : Bool := tag < 0

/-- Whether the tag means a big integer.  Engines may keep small ones under a tag of their own, so
every tag from zero up that means nothing else counts. -/
def isBigInt (tag : Int) : Bool :=
  tag == bigInt ||
    (0 ≤ tag &&
      !([int, bool, null, undefined, uninitialized, catchOffset, exception, float].contains tag))

/-- Reads the answer of a yes-or-no question of the engine. -/
def truthy (answer : Int) : Bool := answer > 0

/-- The tags of values, in the order in which they are listed to the host. -/
def listed : List Int :=
  [bigInt, symbol, string, object, int, bool, null, undefined, uninitialized, exception, float]

end Tag

end ScriptHost
