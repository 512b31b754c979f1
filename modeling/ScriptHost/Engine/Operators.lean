import ScriptHost.Engine.Change
/-!
# Operators

Arithmetic on numbers and big integers, which never mix; comparison and equality; and the operators
that look at objects.
-/

namespace ScriptHost

namespace Eval

open Script (UnaryOp BinaryOp)

/-! ## Numbers -/

/-- The remainder of a division toward zero; it has the sign of the dividend. -/
def remainder (a b : Float) : Float :=
  match Binary.shape a, Binary.shape b with
  | .finite neg m p, .finite _ n q =>
    if n == 0 then Binary.nan
    else
      let e := min p q
      let x := m * twoTo (p - e).toNat
      let y := n * twoTo (q - e).toNat
      Binary.ofScaled neg (x % y) e
  | .finite _ _ _, .infinite _ => a
  | _, _ => Binary.nan

/-- Powers, where a base of magnitude one has no infinite power. -/
def power (a b : Float) : Float :=
  if b.isNaN then b
  else if (a == 1 || a == -1) && b.isInf then Binary.nan
  else
    match Binary.asInteger? a, Binary.asInteger? b with
    | some x, some y =>
      -- exact while the result stays an exact integer
      if 0 ≤ y && y ≤ 64 && Nat.pow x.natAbs y.toNat < twoTo 53 && (x != 0) then
        Binary.ofInt (intPower x y.toNat)
      else a.pow b
    | _, _ => a.pow b

/-- How many places a shift moves. -/
def shiftCount (n : Int32) : Nat := n.toUInt32.toNat % 32

/-- A number as an unsigned 32-bit integer. -/
def toUInt32 (v : Value) : Eval Nat := do pure (← toInt32 v).toUInt32.toNat

/-! ## Big integers -/

/-- Throws away what is no result. -/
def invalidOperation {α : Type} : Eval α := rangeError "invalid operation"

/-- Division by a power of two, rounding down. -/
def shiftInt (n by' : Int) : Int :=
  if 0 ≤ by' then n * twoTo by'.toNat else n.fdiv (twoTo (-by').toNat)

/-- The bits of an integer in two's complement, combined with another's. -/
def bitwise (f : Bool → Bool → Bool) (a b : Int) : Int :=
  let width := max a.natAbs.log2 b.natAbs.log2 + 2
  let pa := (a % (twoTo width : Int)).toNat
  let pb := (b % (twoTo width : Int)).toNat
  let bits := (List.range width).foldl
    (fun acc i => if f (pa.testBit i) (pb.testBit i) then acc + twoTo i else acc) 0
  Int.bmod bits (twoTo width)

/-- An operator on big integers. -/
def bigBinary (op : BinaryOp) (a b : Int) : Eval Value := do
  match op with
  | .add => pure (.bigint (a + b))
  | .sub => pure (.bigint (a - b))
  | .mul => pure (.bigint (a * b))
  | .div => if b == 0 then invalidOperation else pure (.bigint (a.tdiv b))
  | .mod => if b == 0 then invalidOperation else pure (.bigint (a.tmod b))
  | .pow =>
    if b < 0 then invalidOperation
    -- Powers of 0, 1 and -1 are small however large the exponent is.
    else if a.natAbs ≤ 1 then
      pure (.bigint (if b % 2 == 0 then a * a + (if b == 0 then 1 - a * a else 0) else a))
    else if (a.natAbs.log2 + 1) * b.toNat > twoTo 24 then
      rangeError "BigInt is too large to allocate"
    else pure (.bigint (intPower a b.toNat))
  | .shl =>
    if b > twoTo 24 && a != 0 then rangeError "BigInt is too large to allocate"
    else if b < -(twoTo 24) then pure (.bigint (if a < 0 then -1 else 0))
    else pure (.bigint (shiftInt a b))
  | .sar =>
    if b < -(twoTo 24) && a != 0 then rangeError "BigInt is too large to allocate"
    else if b > twoTo 24 then pure (.bigint (if a < 0 then -1 else 0))
    else pure (.bigint (shiftInt a (-b)))
  | .bitAnd => pure (.bigint (bitwise and a b))
  | .bitOr => pure (.bigint (bitwise or a b))
  | .bitXor => pure (.bigint (bitwise xor a b))
  | _ => typeError "bigint operands are forbidden for >>>"

/-! ## Arithmetic -/

/-- An operator on doubles. -/
def floatBinary (op : BinaryOp) (x y : Float) : Value :=
  match op with
  | .add => .float (x + y)
  | .sub => .float (x - y)
  | .mul => .float (x * y)
  | .div => Value.ofFloat (x / y)
  | .mod => Value.ofFloat (remainder x y)
  | _ => Value.ofFloat (power x y)

/-- An operator on integers of 32 bits; none if the result has to be found on doubles. -/
def intBinary (op : BinaryOp) (x y : Int) : Option Value :=
  match op with
  | .add => some (Value.ofInt (x + y))
  | .sub => some (Value.ofInt (x - y))
  | .mul => if x * y == 0 && (x < 0 || y < 0) then none else some (Value.ofInt (x * y))
  | .mod => if x < 0 || y ≤ 0 then none else some (Value.ofInt (x % y))
  | _ => none

/-- An operator on two numbers or two big integers. -/
def arithmetic (op : BinaryOp) (a b : Value) : Eval Value := do
  match a, b with
  | .int x, .int y =>
    match intBinary op x.toInt y.toInt with
    | some v => pure v
    | none => pure (floatBinary op (Binary.ofInt x.toInt) (Binary.ofInt y.toInt))
  | .bigint x, .bigint y => bigBinary op x y
  | .bigint _, _ | _, .bigint _ => typeError "cannot convert to BigInt"
  | a, b => pure (floatBinary op (a.number?.getD Binary.nan) (b.number?.getD Binary.nan))

/-- An operator on the bits of two numbers or big integers. -/
def bitOperator (op : BinaryOp) (a b : Value) : Eval Value := do
  match a, b with
  | .bigint x, .bigint y => bigBinary op x y
  | .bigint _, _ | _, .bigint _ => typeError "cannot convert to BigInt"
  | a, b => do
    let x ← toInt32 a
    let y ← toInt32 b
    let n := shiftCount y
    pure (match op with
      | .shl => .int (x <<< Int32.ofNat n)
      | .sar => .int (x >>> Int32.ofNat n)
      | .shr => Value.ofNat (x.toUInt32.toNat / twoTo n)
      | .bitAnd => .int (x &&& y)
      | .bitOr => .int (x ||| y)
      | _ => .int (x ^^^ y))

/-- Addition, which joins texts if either side is one. -/
def addValues (a b : Value) : Eval Value := do
  match a, b with
  | .int _, .int _ => arithmetic .add a b
  | .string x, .string y => concatText x y
  | a, b => do
    let p ← toPrimitive a .any
    let q ← toPrimitive b .any
    match p, q with
    | .string x, q => do concatText x (← toText q)
    | p, .string y => do concatText (← toText p) y
    | p, q => do
      let x ← toNumeric p
      let y ← toNumeric q
      arithmetic .add x y

/-! ## Comparison -/

/-- Order of an integer and a double; none if the double is not a number. -/
def compareIntFloat (n : Int) (d : Float) : Option Ordering :=
  match Binary.shape d with
  | .nan => none
  | .infinite neg => some (if neg then .gt else .lt)
  | .finite neg m q =>
    let (x, y) :=
      if 0 ≤ q then (n, (m * twoTo q.toNat : Int)) else (n * twoTo (-q).toNat, (m : Int))
    some (compare x (if neg then -y else y))

/-- Order of two primitive values; none if they have none. -/
def comparePrimitives (a b : Value) : Eval (Option Ordering) := do
  match a, b with
  | .string x, .string y => pure (some (x.compare y))
  | .bigint x, .string y =>
    pure ((Numeral.integerOfText? y).map fun n => compare x n)
  | .string x, .bigint y => pure ((Numeral.integerOfText? x).map fun n => compare n y)
  | a, b => do
    let p ← toNumeric a
    let q ← toNumeric b
    match p, q with
    | .bigint x, .bigint y => pure (some (compare x y))
    | .bigint x, q => pure (compareIntFloat x (q.number?.getD Binary.nan))
    | p, .bigint y => pure ((compareIntFloat y (p.number?.getD Binary.nan)).map Ordering.swap)
    | p, q =>
      let x := p.number?.getD Binary.nan
      let y := q.number?.getD Binary.nan
      pure (if x < y then some .lt else if y < x then some .gt else if x == y then some .eq
        else none)

/-- The relational operators. -/
def compareValues (op : BinaryOp) (a b : Value) : Eval Value := do
  let p ← toPrimitive a .number
  let q ← toPrimitive b .number
  let r ← comparePrimitives p q
  pure (.bool (match op, r with
    | .lt, some .lt => true
    | .le, some .lt | .le, some .eq => true
    | .gt, some .gt => true
    | .ge, some .gt | .ge, some .eq => true
    | _, _ => false))

/-- Equality of primitive values of different kinds. -/
def loosePrimitives (a b : Value) : Bool :=
  match a, b with
  | .bigint x, .string t => Numeral.integerOfText? t == some x
  | .string t, .bigint x => Numeral.integerOfText? t == some x
  | .bigint x, b =>
    match b.number? with
    | some d => compareIntFloat x d == some .eq
    | none => false
  | a, .bigint y =>
    match a.number? with
    | some d => compareIntFloat y d == some .eq
    | none => false
  | .string t, b =>
    match b.number?, Numeral.ofText? t with
    | some y, some x => x == y
    | _, _ => false
  | a, .string t =>
    match a.number?, Numeral.ofText? t with
    | some x, some y => x == y
    | _, _ => false
  | _, _ => false

/-- Booleans count as numbers. -/
def unboolean : Value → Value
  | .bool b => .int (if b then 1 else 0)
  | v => v

/-- Equality of the operator `==`. -/
def looseEquals (a b : Value) : Eval Bool := do
  match a, b with
  | .object x, .object y => pure (x == y)
  | .object _, b =>
    if b.isNullish then pure false
    else do
      let p ← toPrimitive a .any
      pure (flat p b)
  | a, .object _ =>
    if a.isNullish then pure false
    else do
      let q ← toPrimitive b .any
      pure (flat a q)
  | a, b => pure (flat a b)
where
  /-- The same for values that are no objects. -/
  flat (a b : Value) : Bool :=
    -- Null and undefined equal each other and nothing else.
    if a.isNullish && b.isNullish then true
    else if a.isNullish || b.isNullish then false
    else
      match a, b with
      | .bool x, .bool y => x == y
      | a, b =>
        let x := unboolean a
        let y := unboolean b
        x.strictEquals y || loosePrimitives x y

/-! ## Objects -/

/-- Walks up the prototypes of an object in search of one. -/
def hasPrototype (goal : Nat) : Nat → Nat → Eval Bool
  | 0, _ => pure false
  | fuel + 1, o => do
    match ← protoOf o with
    | some p => if p == goal then pure true else hasPrototype goal fuel p
    | none => pure false

/-- Asks a constructor whether a value is an instance of it; one with no opinion of its own is judged
by a rule. -/
def askInstanceOf (rule : Value → Value → Eval Bool) (v f : Value) : Eval Bool := do
  match f with
  | .object _ => do
    let method ← getOf f (.symbol WellKnown.hasInstance)
    if !method.isNullish then
      pure (truthy (← call method f #[v]))
    else if !(← callable f) then typeError "invalid 'instanceof' right operand"
    else rule v f
  | _ => typeError "invalid 'instanceof' right operand"

/-- Whether the prototype member of a constructor stands among the prototypes of an object.  What is
bound asks what it is bound to. -/
def ordinaryInstanceOf : Nat → Value → Value → Eval Bool
  | 0, _, _ => stackOverflow
  | fuel + 1, v, f => do
    match f with
    | .object id =>
      if !(← callable f) then pure false
      else
        match ← body id with
        | .bound target _ _ => askInstanceOf (ordinaryInstanceOf fuel) v target
        | _ =>
          match v with
          | .object o => do
            match ← getNamed id "prototype" with
            | .object goal => hasPrototype goal ((← get).heap.size + 1) o
            | _ => typeError "operand 'prototype' property is not an object"
          | _ => pure false
    | _ => pure false

/-- The operator `instanceof`. -/
def instanceOf (v f : Value) : Eval Bool := askInstanceOf (ordinaryInstanceOf proxyDepth) v f

/-! ## All operators -/

/-- An operator with two operands. -/
def binary (op : BinaryOp) (a b : Value) : Eval Value := do
  match op with
  | .add => addValues a b
  | .sub | .mul | .div | .mod | .pow =>
    match a, b with
    | .int _, .int _ => arithmetic op a b
    | a, b => do
      let x ← toNumeric a
      let y ← toNumeric b
      arithmetic op x y
  | .shl | .sar | .shr | .bitAnd | .bitOr | .bitXor => do
    let x ← toNumeric a
    let y ← toNumeric b
    bitOperator op x y
  | .lt | .le | .gt | .ge => compareValues op a b
  | .eq => do pure (.bool (← looseEquals a b))
  | .ne => do pure (.bool (!(← looseEquals a b)))
  | .strictEq => pure (.bool (a.strictEquals b))
  | .strictNe => pure (.bool (!(a.strictEquals b)))
  | .instanceOf => do pure (.bool (← instanceOf a b))
  | .isIn => do
    match b with
    | .object id => do pure (.bool (← hasProperty id (← toKey a)))
    | _ => typeError "invalid 'in' operand"

/-- An operator with one operand. -/
def unary (op : UnaryOp) (a : Value) : Eval Value := do
  match op with
  | .plus =>
    match ← toPrimitive a .number with
    | .bigint _ => typeError "bigint argument with unary +"
    | p => toNumber p
  | .minus =>
    match ← toNumeric a with
    | .bigint n => pure (.bigint (-n))
    | .int n => if n == 0 then pure (.float Binary.negZero) else pure (Value.ofInt (-n.toInt))
    | v => pure (.float (-(v.number?.getD Binary.nan)))
  | .not => pure (.bool (!truthy a))
  | .bitNot =>
    match ← toNumeric a with
    | .bigint n => pure (.bigint (-n - 1))
    | v => do pure (.int (~~~(← toInt32 v)))
  | .void => pure .undefined
  | .typeOf => do pure (.str (typeOf (← get) a))

/-- A number or big integer, one step further. -/
def step (up : Bool) (v : Value) : Eval Value := do
  match ← toNumeric v with
  | .bigint n => pure (.bigint (if up then n + 1 else n - 1))
  | .int n => pure (Value.ofInt (if up then n.toInt + 1 else n.toInt - 1))
  | v => do
    let d := v.number?.getD Binary.nan
    pure (.float (if up then d + 1 else d - 1))

end Eval

end ScriptHost
