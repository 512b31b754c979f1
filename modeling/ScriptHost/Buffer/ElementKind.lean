import ScriptHost.Host.Failure
/-!
# Element kinds of typed arrays

Twelve kinds, numbered from zero in the order of the constructors.
-/

namespace ScriptHost

/-- What the elements of a typed array are. -/
inductive ElementKind where
  | uint8Clamped | int8 | uint8 | int16 | uint16 | int32 | uint32
  | bigInt64 | bigUint64 | float16 | float32 | float64
deriving DecidableEq, Inhabited, Repr

namespace ElementKind

/-- Every kind, in the order of the numbers. -/
def all : List ElementKind :=
  [uint8Clamped, int8, uint8, int16, uint16, int32, uint32, bigInt64, bigUint64, float16, float32,
    float64]

theorem mem_all (k : ElementKind) : k ∈ all := by
  cases k <;> simp [all]

/-- The number of a kind. -/
def number : ElementKind → Nat
  | uint8Clamped => 0 | int8 => 1 | uint8 => 2 | int16 => 3 | uint16 => 4 | int32 => 5
  | uint32 => 6 | bigInt64 => 7 | bigUint64 => 8 | float16 => 9 | float32 => 10 | float64 => 11

/-- The kind with a number; any other number is refused. -/
def ofNumber (n : Int) : Except HostError ElementKind :=
  match n with
  | .ofNat k =>
    match all[k]? with
    | some kind => .ok kind
    | none => .error (.invalidElementKind n)
  | .negSucc _ => .error (.invalidElementKind n)

/-- Bytes of one element. -/
def size : ElementKind → Nat
  | uint8Clamped | int8 | uint8 => 1
  | int16 | uint16 | float16 => 2
  | int32 | uint32 | float32 => 4
  | bigInt64 | bigUint64 | float64 => 8

/-- The bare name of a kind. -/
def label : ElementKind → String
  | uint8Clamped => "Uint8Clamped" | int8 => "Int8" | uint8 => "Uint8" | int16 => "Int16"
  | uint16 => "Uint16" | int32 => "Int32" | uint32 => "Uint32" | bigInt64 => "BigInt64"
  | bigUint64 => "BigUint64" | float16 => "Float16" | float32 => "Float32" | float64 => "Float64"

/-- The name of the constructor among the globals. -/
def constructorName (k : ElementKind) : String := k.label ++ "Array"

/-- Whether elements are big integers. -/
def isBig : ElementKind → Bool
  | bigInt64 | bigUint64 => true
  | _ => false

end ElementKind

end ScriptHost
