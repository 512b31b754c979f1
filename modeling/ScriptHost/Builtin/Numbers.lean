import ScriptHost.Builtin.Member
/-!
# Numbers

Numbers, big integers, booleans and the functions of mathematics.
-/

namespace ScriptHost

namespace Builtin

open Eval

/-! ## Numbers -/

/-- Makes a number, or an object that stands for one. -/
def numberConstructor (c : NativeCall) : Eval Value := do
  let v ← if c.args.size == 0 then pure (Value.int 0)
    else
      match ← toNumeric (c.arg 0) with
      | .bigint n => pure (Value.ofFloat (Binary.ofInt n))
      | v => pure v
  if c.target.isUndefined then pure v
  else do pure (.object (← allocFor (.number v) c.target .numberPrototype))

/-- The number that the receiver is or stands for. -/
def thisNumber (c : NativeCall) : Eval Value := do
  match c.this with
  | .int _ | .float _ => pure c.this
  | v =>
    match ← bodyOf v with
    | some (_, .number n) => pure n
    | _ => typeError "not a number"

/-- The longest beginning of a text that is a numeral. -/
def readFloat (t : Text) : Float :=
  match Numeral.scanSigned? t.trimStart.toAsciiList with
  | some (d, _) => d
  | none => Binary.nan

/-- The longest beginning of a text that is an integer in a base. -/
def readInt (t : Text) (radix : Int) : Value :=
  let cs := t.trimStart.toAsciiList
  let (neg, cs) := match cs with
    | '-' :: r => (true, r)
    | '+' :: r => (false, r)
    | r => (false, r)
  if radix != 0 && (radix < 2 || radix > 36) then .float Binary.nan
  else
    let (base, cs) := match cs with
      | '0' :: x :: r =>
        if (x == 'x' || x == 'X') && (radix == 0 || radix == 16) then (16, r) else (radix.toNat, cs)
      | _ => (radix.toNat, cs)
    let base := if base == 0 then 10 else base
    let ds := cs.takeWhile fun d => Numeral.digitValue d < base
    if ds.isEmpty then .float Binary.nan
    else
      let n := Numeral.ofDigits base ds
      if n == 0 && neg then .float Binary.negZero
      else Value.ofFloat (Binary.ofScaled neg n 0)

/-- Reads a number at the start of a text. -/
def parseFloatOf (c : NativeCall) : Eval Value := do
  pure (Value.ofFloat (readFloat (← toText (c.arg 0))))

/-- Reads an integer at the start of a text. -/
def parseIntOf (c : NativeCall) : Eval Value := do
  let t ← toText (c.arg 0)
  let r ← toInt32 (c.arg 1)
  pure (readInt t r.toInt)

/-- Whether a value is a number that is an integer. -/
def isIntegral (v : Value) : Bool :=
  match v.number? with
  | some d => (Binary.asInteger? d).isSome
  | none => false

/-- Functions of the constructor of numbers. -/
def numberStatics : Array Native := #[
  method "parseInt" 2 parseIntOf,
  method "parseFloat" 1 parseFloatOf,
  method "isNaN" 1 fun c => pure (.bool (match (c.arg 0).number? with
    | some d => d.isNaN
    | none => false)),
  method "isFinite" 1 fun c => pure (.bool (match (c.arg 0).number? with
    | some d => d.isFinite
    | none => false)),
  method "isInteger" 1 fun c => pure (.bool (isIntegral (c.arg 0))),
  method "isSafeInteger" 1 fun c => pure (.bool (match (c.arg 0).number?.bind Binary.asInteger? with
    | some n => n.natAbs < twoTo 53
    | none => false))]

/-- A base between 2 and 36. -/
def radixArg (v : Value) : Eval Nat := do
  if v.isUndefined then pure 10
  else
    let r ← toInteger v
    if r < 2 || r > 36 then rangeError "toString() radix argument must be between 2 and 36"
    pure r.toNat

/-- The text of a number in a base. -/
def numberInBase (d : Float) (radix : Nat) : String :=
  if radix == 10 then NumberText.ofFloat d
  else
    match Binary.shape d with
    | .finite _ _ _ => NumberText.inBase radix d
    | _ => NumberText.ofFloat d

/-- Digits asked for, between bounds. -/
def digitsArg (v : Value) (least : Int) (message : String) : Eval Nat := do
  let n ← toInteger v
  if n < least || n > 100 then rangeError message else pure n.toNat

/-- Shortest digits in exponent form. -/
def shortestScientific (neg : Bool) (m : Nat) (q : Int) : String :=
  if m == 0 then NumberText.scientific neg ['0'] 1
  else
    let dec := Shortest.ofScaled .nearest m q
    NumberText.scientific neg dec.chars dec.point

/-- What numbers inherit. -/
def numberPrototype : Array Native := #[
  method "toExponential" 1 fun c => do
    let d := ((← thisNumber c).number?).getD Binary.nan
    let f ← toInteger (c.arg 0)
    match Binary.shape d with
    | .finite neg m q => do
      if f < 0 || f > 100 then rangeError "toExponential() argument must be between 0 and 100"
      let neg := neg && m != 0
      if (c.arg 0).isUndefined then pure (.str (shortestScientific neg m q))
      else
        let (ds, point) := NumberText.significant m q (f.toNat + 1)
        pure (.str (NumberText.scientific neg ds point))
    | _ => pure (.str (NumberText.ofFloat d)),
  method "toFixed" 1 fun c => do
    let d := ((← thisNumber c).number?).getD Binary.nan
    let f ← digitsArg (c.arg 0) 0 "toFixed() digits argument must be between 0 and 100"
    match Binary.shape d with
    | .finite neg m q =>
      if d.abs ≥ 1e21 then pure (.str (NumberText.ofFloat d))
      else pure (.str (NumberText.fixed neg m q f))
    | _ => pure (.str (NumberText.ofFloat d)),
  method "toPrecision" 1 fun c => do
    let d := ((← thisNumber c).number?).getD Binary.nan
    if (c.arg 0).isUndefined then pure (.str (NumberText.ofFloat d))
    else
      let p ← toInteger (c.arg 0)
      match Binary.shape d with
      | .finite neg m q => do
        if p < 1 || p > 100 then rangeError "toPrecision() argument must be between 1 and 100"
        pure (.str (NumberText.precise (neg && m != 0) m q p.toNat))
      | _ => pure (.str (NumberText.ofFloat d)),
  method "toString" 1 fun c => do
    let d := ((← thisNumber c).number?).getD Binary.nan
    let r ← radixArg (c.arg 0)
    pure (.str (numberInBase d r)),
  method "toLocaleString" 0 fun c => do
    pure (.str (NumberText.ofFloat (((← thisNumber c).number?).getD Binary.nan))),
  method "valueOf" 0 fun c => thisNumber c]

/-! ## Booleans -/

/-- Makes a boolean, or an object that stands for one. -/
def booleanConstructor (c : NativeCall) : Eval Value := do
  let b := truthy (c.arg 0)
  if c.target.isUndefined then pure (.bool b)
  else do pure (.object (← allocFor (.boolean b) c.target .booleanPrototype))

/-- The boolean that the receiver is or stands for. -/
def thisBoolean (c : NativeCall) : Eval Bool := do
  match c.this with
  | .bool b => pure b
  | v =>
    match ← bodyOf v with
    | some (_, .boolean b) => pure b
    | _ => typeError "not a boolean"

/-- What booleans inherit. -/
def booleanPrototype : Array Native := #[
  method "toString" 0 fun c => do pure (.str (if ← thisBoolean c then "true" else "false")),
  method "valueOf" 0 fun c => do pure (.bool (← thisBoolean c))]

/-! ## Big integers -/

/-- Makes a big integer. -/
def bigintConstructor (c : NativeCall) : Eval Value := do
  if !c.target.isUndefined then typeError "not a constructor"
  match ← toPrimitive (c.arg 0) .number with
  | .int n => pure (.bigint n.toInt)
  | .float d =>
    match Binary.asInteger? d with
    | some n => pure (.bigint n)
    | none => rangeError (if d.isFinite then "cannot convert to BigInt: not an integer"
        else "cannot convert NaN or Infinity to BigInt")
  | v => do pure (.bigint (← toBigInt v))

/-- The big integer that the receiver is or stands for. -/
def thisBigInt (c : NativeCall) : Eval Int := do
  match c.this with
  | .bigint n => pure n
  | v =>
    match ← bodyOf v with
    | some (_, .bigint n) => pure n
    | _ => typeError "not a BigInt"

/-- Functions of the constructor of big integers. -/
def bigintStatics : Array Native := #[
  method "asUintN" 2 fun c => do
    let bits ← toIndex (c.arg 0) "invalid array index"
    let n ← toBigInt (c.arg 1)
    pure (.bigint (if bits > twoTo 20 && n ≥ 0 then n else n % (twoTo bits : Int))),
  method "asIntN" 2 fun c => do
    let bits ← toIndex (c.arg 0) "invalid array index"
    let n ← toBigInt (c.arg 1)
    pure (.bigint (if bits == 0 then 0 else if bits > twoTo 20 then n
      else Int.bmod n (twoTo bits)))]

/-- What big integers inherit. -/
def bigintPrototype : Array Native := #[
  method "toString" 0 fun c => do
    let n ← thisBigInt c
    let r ← radixArg (c.arg 0)
    pure (.str (NumberText.intInBase r n)),
  method "valueOf" 0 fun c => do pure (.bigint (← thisBigInt c)),
  method "toLocaleString" 0 fun c => do pure (.str (toString (← thisBigInt c)))]

/-! ## Mathematics -/

/-- A function of one number. -/
def math1 (name : String) (f : Float → Float) : Native :=
  method name 1 fun c => do pure (Value.ofFloat (f (← toFloat (c.arg 0))))

/-- Rounds to the nearest integer, halves upward; the sign of zero is kept. -/
def roundUp (d : Float) : Float :=
  if d.isNaN || d.isInf then d
  else
    let r := d.floor
    let x := if d - r ≥ 0.5 then r + 1 else r
    if x == 0 && (d < 0 || Binary.isNegZero d) then Binary.negZero else x

/-- The natural logarithm of a number and one, exact near zero. -/
def logOnePlus (d : Float) : Float :=
  let u := 1 + d
  if u == 1 then d else if u.isInf then u else d * u.log / (u - 1)

/-- The exponential less one, exact near zero. -/
def expLessOne (d : Float) : Float :=
  let u := d.exp
  if u == 1 then d
  else if u - 1 == -1 then -1
  else if u.isInf then u
  else (u - 1) * d / u.log

/-- The smaller of two numbers, where the negative zero is less than zero. -/
def least (a b : Float) : Float :=
  if a.isNaN || b.isNaN then Binary.nan
  else if a == 0 && b == 0 then (if Binary.isNegZero a then a else b)
  else if a < b then a else b

/-- The greater of two numbers. -/
def greatest (a b : Float) : Float :=
  if a.isNaN || b.isNaN then Binary.nan
  else if a == 0 && b == 0 then (if Binary.isNegZero a then b else a)
  else if a > b then a else b

/-- The length of a vector. -/
def hypotenuse (ds : List Float) : Float :=
  if ds.any (·.isInf) then Binary.infinity
  else if ds.any (·.isNaN) then Binary.nan
  else
    let m := ds.foldl (fun a d => greatest a d.abs) 0
    if m == 0 then 0
    else
      -- the sum is compensated, so that whole results come out whole
      let (s, c) := ds.foldl (fun (s, c) d =>
        let x := d / m
        let y := x * x - c
        let t := s + y
        (t, (t - s) - y)) ((0 : Float), (0 : Float))
      let _ := c
      s.sqrt * m

/-- Functions of mathematics. -/
def math : Array Native := #[
  method "min" 2 fun c => do
    let ds ← c.args.toList.mapM toFloat
    pure (Value.ofFloat (ds.foldl least Binary.infinity)),
  method "max" 2 fun c => do
    let ds ← c.args.toList.mapM toFloat
    pure (Value.ofFloat (ds.foldl greatest Binary.negInfinity)),
  math1 "abs" Float.abs,
  math1 "floor" Float.floor,
  math1 "ceil" Float.ceil,
  math1 "round" roundUp,
  math1 "sqrt" Float.sqrt,
  math1 "acos" Float.acos,
  math1 "asin" Float.asin,
  math1 "atan" Float.atan,
  method "atan2" 2 fun c => do
    let y ← toFloat (c.arg 0)
    let x ← toFloat (c.arg 1)
    pure (Value.ofFloat (Float.atan2 y x)),
  math1 "cos" Float.cos,
  math1 "exp" Float.exp,
  math1 "log" Float.log,
  method "pow" 2 fun c => do
    let x ← toFloat (c.arg 0)
    let y ← toFloat (c.arg 1)
    pure (Value.ofFloat (power x y)),
  math1 "sin" Float.sin,
  math1 "tan" Float.tan,
  math1 "trunc" Binary.truncate,
  math1 "sign" fun d => if d.isNaN || d == 0 then d else if d > 0 then 1 else -1,
  math1 "cosh" Float.cosh,
  math1 "sinh" Float.sinh,
  math1 "tanh" Float.tanh,
  math1 "acosh" Float.acosh,
  math1 "asinh" fun d => if d == 0 then d else Float.asinh d,
  math1 "atanh" Float.atanh,
  math1 "expm1" expLessOne,
  math1 "log1p" logOnePlus,
  math1 "log2" Float.log2,
  math1 "log10" Float.log10,
  math1 "cbrt" Float.cbrt,
  method "hypot" 2 fun c => do
    let ds ← c.args.toList.mapM toFloat
    pure (Value.ofFloat (hypotenuse ds)),
  -- Any number from 0 up to 1 would do; a fixed one keeps runs repeatable.
  method "random" 0 fun _ => pure (.float 0.5),
  math1 "f16round" fun d => Binary.widen Binary.half (Binary.narrow Binary.half d),
  math1 "fround" fun d => Binary.widen Binary.single (Binary.narrow Binary.single d),
  method "imul" 2 fun c => do
    let a ← toInt32 (c.arg 0)
    let b ← toInt32 (c.arg 1)
    pure (.int (a * b)),
  method "clz32" 1 fun c => do
    let n := (← toInt32 (c.arg 0)).toUInt32.toNat
    pure (Value.ofNat (if n == 0 then 32 else 31 - n.log2))]

end Builtin

end ScriptHost
