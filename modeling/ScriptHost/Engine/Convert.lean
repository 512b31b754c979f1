import ScriptHost.Engine.Access
/-!
# Conversions

From values of any kind to primitive values, numbers, texts, keys and objects.  Objects are asked
for a primitive value first, which may run code of scripts.
-/

namespace ScriptHost

/-- What kind of primitive value a conversion would like. -/
inductive Preference where
  | any | number | text
deriving DecidableEq, Inhabited, Repr

/-- A natural number, or one beyond all of them. -/
inductive Bounded where
  | below (n : Int)
  | above
deriving DecidableEq, Inhabited, Repr

namespace Eval

/-! ## Primitive values -/

/-- The first of two methods that gives no object. -/
def ordinaryPrimitive (v : Value) (names : List String) : Eval Value := do
  match names with
  | [] => typeError "toPrimitive"
  | n :: ns => do
    let f ← getField v n
    if ← callable f then
      let r ← call f v #[]
      if r.isObject then ordinaryPrimitive v ns else pure r
    else ordinaryPrimitive v ns

/-- A primitive value for any value. -/
def toPrimitive (v : Value) (p : Preference) : Eval Value := do
  match v with
  | .object _ => do
    let f ← getOf v (.symbol WellKnown.toPrimitive)
    if f.isNullish then
      match p with
      | .text => ordinaryPrimitive v ["toString", "valueOf"]
      | _ => ordinaryPrimitive v ["valueOf", "toString"]
    else
      let hint := match p with
        | .any => "default"
        | .number => "number"
        | .text => "string"
      let r ← call f v #[.str hint]
      if r.isObject then typeError "toPrimitive" else pure r
  | .exception => throw .uninitialized
  | v => pure v

/-! ## Numbers -/

/-- The number that a primitive value stands for. -/
def numberOfPrimitive (v : Value) : Eval Value := do
  match v with
  | .int _ | .float _ => pure v
  | .bool b => pure (.int (if b then 1 else 0))
  | .null => pure (.int 0)
  | .string t =>
    pure (match Numeral.ofText? t with
      | some d => Value.ofFloat d
      | none => .float Binary.nan)
  | .symbol _ => typeError "cannot convert symbol to number"
  | .bigint _ => typeError "cannot convert BigInt to number"
  | .exception => throw .uninitialized
  | _ => pure (.float Binary.nan)

/-- The number that a value stands for, held as it comes. -/
def toNumber (v : Value) : Eval Value := do
  match v with
  | .object _ => do numberOfPrimitive (← toPrimitive v .number)
  | v => numberOfPrimitive v

/-- The number that a value stands for. -/
def toFloat (v : Value) : Eval Float := do pure (((← toNumber v).number?).getD Binary.nan)

/-- The number or big integer that a value stands for. -/
def toNumeric (v : Value) : Eval Value := do
  match ← toPrimitive v .number with
  | .bigint n => pure (.bigint n)
  | p => numberOfPrimitive p

/-- The number as a 32-bit integer. -/
def toInt32 (v : Value) : Eval Int32 := do
  match v with
  | .int n => pure n
  | v => pure (Binary.toInt32 (← toFloat v))

/-- The number as a 64-bit integer, wrapping. -/
def toInt64 (v : Value) : Eval Int64 := do
  match v with
  | .int n => pure n.toInt64
  | v => pure (Binary.toInt64 (← toFloat v))

/-- The integer part of a number: zero for NaN, none for the infinities with their sign. -/
def integerPart (d : Float) : Except Bool Int :=
  match Binary.shape d with
  | .nan => .ok 0
  | .infinite neg => .error neg
  | .finite neg m q => .ok (Binary.truncScaled neg m q)

/-- The integer part of a value, the infinities as integers far out of reach. -/
def toInteger (v : Value) : Eval Int := do
  match v with
  | .int n => pure n.toInt
  | v =>
    match integerPart (← toFloat v) with
    | .ok n => pure n
    | .error neg => pure (if neg then -(twoTo 1100) else twoTo 1100)

/-- The largest length. -/
def maxLength : Int := twoTo 53 - 1

/-- The length that a value stands for. -/
def toLength (v : Value) : Eval Nat := do
  let n ← toInteger v
  pure (if n < 0 then 0 else if n > maxLength then maxLength.toNat else n.toNat)

/-- The length of an object. -/
def lengthOf (id : Nat) : Eval Nat := do toLength (← getNamed id "length")

/-- A length or offset that must be one. -/
def toIndex (v : Value) (message : String) : Eval Nat := do
  let n ← toInteger v
  if n < 0 || n > maxLength then rangeError message else pure n.toNat

/-- A position relative to a length, counted from the end if negative; `absent` if undefined. -/
def relativeIndex (v : Value) (length absent : Nat) : Eval Nat := do
  match v with
  | .undefined => pure absent
  | v => do
    let n ← toInteger v
    pure (if n < 0 then (n + length).toNat else min n.toNat length)

/-! ## Big integers -/

/-- The big integer that a value stands for. -/
def toBigInt (v : Value) : Eval Int := do
  match ← (if v.isObject then toPrimitive v .number else pure v) with
  | .bigint n => pure n
  | .bool b => pure (if b then 1 else 0)
  | .string t =>
    match Numeral.integerOfText? t with
    | some n => pure n
    | none => raise .syntactic "invalid BigInt literal"
  | _ => typeError "cannot convert to BigInt"

/-! ## Texts and keys -/

/-- The text of a primitive value. -/
def textOfPrimitive (v : Value) : Eval Text := do
  match v with
  | .string t => pure t
  | .int n => pure (Text.ofString (toString n.toInt))
  | .float d => pure (Text.ofString (NumberText.ofFloat d))
  | .bool b => pure (if b then txt "true" else txt "false")
  | .null => pure (txt "null")
  | .undefined => pure (txt "undefined")
  | .bigint n => pure (Text.ofString (toString n))
  | .symbol _ => typeError "cannot convert symbol to string"
  | .exception => throw .uninitialized
  | .uninitialized => pure (txt "[uninitialized]")
  | _ => pure (txt "[unsupported type]")

/-- The text of a value. -/
def toText (v : Value) : Eval Text := do
  match v with
  | .string t => pure t
  | .object _ => do textOfPrimitive (← toPrimitive v .text)
  | v => textOfPrimitive v

/-- The key that a value names. -/
def toKey (v : Value) : Eval Key := do
  match v with
  | .int n =>
    if n ≥ 0 then pure (Key.ofNat n.toInt.toNat)
    else pure (.name (Text.ofString (toString n.toInt)))
  | .symbol id => pure (.symbol id)
  | .string t => pure (Key.ofText t)
  | v => do
    match ← toPrimitive v .text with
    | .symbol id => pure (.symbol id)
    | p => pure (Key.ofText (← textOfPrimitive p))

/-! ## Objects -/

/-- The object that stands for a primitive value. -/
def toObject (v : Value) : Eval Nat := do
  match v with
  | .object id => pure id
  | .bool b => alloc (.boolean b) .booleanPrototype
  | .int _ | .float _ => alloc (.number v) .numberPrototype
  | .string t => do
    let id ← alloc (.string t) .stringPrototype
    Mem.putProperty id (Key.str "length") (.frozen (Value.ofNat t.size))
    pure id
  | .symbol s => alloc (.symbol s) .symbolPrototype
  | .bigint n => alloc (.bigint n) .bigintPrototype
  | _ => typeError "Cannot convert undefined or null to object"

/-- An object that must be one. -/
def needObject (v : Value) : Eval Nat := do
  match v with
  | .object id => pure id
  | _ => typeError "not an object"

/-- The items of an object that looks like an array. -/
def listOf (v : Value) : Eval (Array Value) := do
  match v with
  | .object id => do
    let n ← lengthOf id
    if n > 65535 then rangeError "too many arguments in function call (only 65535 allowed)"
    let mut out := #[]
    for i in [0:n] do
      out := out.push (← getProp id (Key.ofNat i))
    pure out
  | _ => typeError "not a object"

/-- The word for the type of a value. -/
def typeOf (m : Machine) : Value → String
  | .undefined | .uninitialized | .exception => "undefined"
  | .null => "object"
  | .bool _ => "boolean"
  | .int _ | .float _ => "number"
  | .string _ => "string"
  | .symbol _ => "symbol"
  | .bigint _ => "bigint"
  | .object id => if m.isCallable id then "function" else "object"

/-- Whether a value is an array, or a proxy for one. -/
def isArrayIn (m : Machine) : Nat → Value → Except Unit Bool
  | 0, _ => .ok false
  | fuel + 1, .object id =>
    match m.body id with
    | .array => .ok true
    | .proxy (some t) _ _ _ => isArrayIn m fuel (.object t)
    | .proxy none _ _ _ => .error ()
    | _ => .ok false
  | _ + 1, _ => .ok false

/-- Whether a value is an array, or a proxy for one. -/
def isArray (v : Value) : Eval Bool := do
  match isArrayIn (← get) proxyDepth v with
  | .ok b => pure b
  | .error () => typeError "revoked proxy"

end Eval

end ScriptHost
