import ScriptHost.Builtin.Objects
/-!
# Arrays

The functions of arrays work on every object that has a length.
-/

namespace ScriptHost

namespace Builtin

open Eval

/-! ## Walking -/

/-- The key of a position. -/
def indexKey (i : Nat) : Key := Key.ofNat i

/-- The item at a position, if there is one. -/
def itemAt? (id i : Nat) : Eval (Option Value) := do
  if ← hasProperty id (indexKey i) then pure (some (← getProp id (indexKey i))) else pure none

/-- The item at a position. -/
def itemAt (id i : Nat) : Eval Value := getProp id (indexKey i)

/-- Does something with each position below a number. -/
def upTo (n : Nat) (f : Nat → Eval Unit) : Eval Unit := do
  for i in [0:n] do f i

/-- The receiver and its length. -/
def thisList (c : NativeCall) : Eval (Nat × Nat) := do
  let id ← thisObject c
  pure (id, ← lengthOf id)

/-- Sets the length of an object. -/
def putLength (id n : Nat) : Eval Unit := setProp id (Key.str "length") (Value.ofNat n)

/-- The first position below a number, in either direction, where a test holds of the item. -/
def search (id : Nat) (test : Nat → Value → Eval Bool) : List Nat → Eval (Option (Nat × Value))
  | [] => pure none
  | i :: is => do
    let v ← itemAt id i
    if ← test i v then pure (some (i, v)) else search id test is

/-- The same among positions that hold an item. -/
def searchPresent (id : Nat) (test : Nat → Value → Eval Bool) : List Nat →
    Eval (Option (Nat × Value))
  | [] => pure none
  | i :: is => do
    match ← itemAt? id i with
    | some v => if ← test i v then pure (some (i, v)) else searchPresent id test is
    | none => searchPresent id test is

/-- Asks the function that is the first argument about an item. -/
def ask (c : NativeCall) (id : Nat) : Nat → Value → Eval Bool := fun i v => do
  pure (truthy (← call (c.arg 0) (c.arg 1) #[v, Value.ofNat i, .object id]))

/-! ## Making -/

/-- A new array of a length for a constructor. -/
def arrayFor (target : Value) (n : Nat) : Eval Nat := do
  let p ← protoFor target .arrayPrototype
  let id ← newArrayWith #[] p
  storeLength id n true
  pure id

/-- Makes an array of a length or of items. -/
def arrayConstructor (c : NativeCall) : Eval Value := do
  let target := if c.target.isUndefined then .object c.callee else c.target
  let p ← protoFor target .arrayPrototype
  match c.args.toList with
  | [v] =>
    match v.number? with
    | some d => do
      let id ← newArrayWith #[] p
      match Binary.asInteger? d with
      | some n =>
        if 0 ≤ n && n < twoTo 32 then storeLength id n.toNat true
        else rangeError "invalid array length"
      | none => rangeError "invalid array length"
      pure (.object id)
    | none => do pure (.object (← newArrayWith #[v] p))
  | _ => do pure (.object (← newArrayWith c.args p))

/-- A new object of the kind of an array, with a length. -/
def arraySpecies (id n : Nat) : Eval Nat := do
  let plain : Eval Nat := do
    if n ≥ twoTo 32 then rangeError "invalid array length"
    let a ← newArrayWith #[] (← intrinsic .arrayPrototype)
    storeLength a n true
    pure a
  if !(← isArray (.object id)) then plain
  else
    let ctor ← getNamed id "constructor"
    let ctor ← match ctor with
      | .object _ => do
        let s ← getOf ctor (.symbol WellKnown.species)
        pure (if s == .null then .undefined else s)
      | v => pure v
    match ctor with
    | .undefined => plain
    | ctor => do
      if ctor == (← intrinsicValue .arrayConstructor) then plain
      else needObject (← construct ctor #[Value.ofNat n] ctor)

/-- Makes an object with a constructor if there is one, an array otherwise. -/
def makeWith (ctor : Value) (args : Array Value) : Eval Nat := do
  if (← get).constructs ctor then needObject (← construct ctor args ctor)
  else
    let a ← newArrayWith #[] (← intrinsic .arrayPrototype)
    match args[0]? with
    | some v =>
      match v.number? with
      | some d =>
        match integerPart d with
        | .ok n => storeLength a n.toNat true
        | .error _ => pure ()
      | none => pure ()
    | none => pure ()
    pure a

/-- Functions of the constructor of arrays. -/
def arrayStatics : Array Native := #[
  method "isArray" 1 fun c => do pure (.bool (← isArray (c.arg 0))),
  method "from" 1 fun c => do
    let f := c.arg 1
    let mapping := !f.isUndefined
    if mapping then
      if !(← callable f) then typeError "not a function"
    let mapped (i : Nat) (v : Value) : Eval Value :=
      if mapping then call f (c.arg 2) #[v, Value.ofNat i] else pure v
    match ← getMethod (c.arg 0) (.symbol WellKnown.iterator) with
    | some m => do
      -- How many items will come is not known, so the receiver is called without a length.
      let a ← makeWith c.this #[]
      let it ← openWith (c.arg 0) m
      let n ← foldItems it 0 fun i v => do
        createProp a (indexKey i) (← mapped i v)
        pure (i + 1)
      putLength a n
      pure (.object a)
    | none => do
      let src ← toObject (c.arg 0)
      let n ← lengthOf src
      let a ← makeWith c.this #[Value.ofNat n]
      reserve (16 * n)
      upTo n fun i => do createProp a (indexKey i) (← mapped i (← itemAt src i))
      putLength a n
      pure (.object a),
  method "of" 0 fun c => do
    let a ← makeWith c.this #[Value.ofNat c.args.size]
    for (v, i) in c.args.toList.zipIdx do
      createProp a (indexKey i) v
    putLength a c.args.size
    pure (.object a),
  getter "@species" returnThis]

/-! ## Sorting -/

/-- Merges two sorted lists; `le` tells whether the first may stay before the second. -/
def mergeWith (le : Value → Value → Eval Bool) : Nat → List Value → List Value → List Value →
    Eval (List Value)
  | 0, _, _, acc => pure acc.reverse
  | fuel + 1, xs, ys, acc => do
    match xs, ys with
    | [], ys => pure (acc.reverse ++ ys)
    | xs, [] => pure (acc.reverse ++ xs)
    | x :: xs, y :: ys => do
      if ← le x y then mergeWith le fuel xs (y :: ys) (x :: acc)
      else mergeWith le fuel (x :: xs) ys (y :: acc)

/-- Sorts a list, keeping the order of what compares equal. -/
def sortWith (le : Value → Value → Eval Bool) : Nat → List Value → Eval (List Value)
  | 0, xs => pure xs
  | fuel + 1, xs => do
    match xs with
    | [] => pure []
    | [x] => pure [x]
    | xs => do
      let h := xs.length / 2
      let a ← sortWith le fuel (xs.take h)
      let b ← sortWith le fuel (xs.drop h)
      mergeWith le (xs.length + 2) a b []

/-- Whether an item may stay before another, by a function or by their texts. -/
def sortOrder (f : Value) (a b : Value) : Eval Bool := do
  if f.isUndefined then
    let x ← toText a
    let y ← toText b
    pure (x.compare y != .gt)
  else
    let d ← toFloat (← call f .undefined #[a, b])
    pure (!(d > 0))

/-- Sorts values; undefined ones come last. -/
def sortValues (f : Value) (xs : Array Value) : Eval (Array Value) := do
  let defined := xs.toList.filter (!·.isUndefined)
  let sorted ← sortWith (sortOrder f) (defined.length + 1) defined
  pure (sorted.toArray ++ Array.replicate (xs.size - defined.length) .undefined)

/-! ## Joining -/

/-- The texts of items with a separator between them. -/
def joinItems (id n : Nat) (sep : Text) (localized : Bool) : Eval Value := do
  let mut out := Text.empty
  for i in [0:n] do
    if i > 0 then
      match ← concatText out sep with
      | .string t => out := t
      | _ => pure ()
    let v ← itemAt id i
    if !v.isNullish then
      let t ← if localized then toText (← invoke v (Key.str "toLocaleString") #[]) else toText v
      match ← concatText out t with
      | .string t => out := t
      | _ => pure ()
  pure (.string out)

/-- Adds the items of an array to another, going into arrays inside it. -/
def flatten (target : Nat) (mapper : Option (Value × Value)) : Nat → Nat → Nat → Nat → Nat →
    Eval Nat
  | 0, _, _, _, _ => stackOverflow
  | fuel + 1, src, n, start, depth => do
    let mut pos := start
    for i in [0:n] do
      match ← itemAt? src i with
      | some v => do
        let v ← match mapper with
          | some (f, this) => call f this #[v, Value.ofNat i, .object src]
          | none => pure v
        let inner ← if depth > 0 then isArray v else pure false
        match inner, v with
        | true, .object s => do
          -- Only the items of the outermost array are mapped.
          pos ← flatten target none fuel s (← lengthOf s) pos (depth - 1)
        | _, v => do
          createProp target (indexKey pos) v
          pos := pos + 1
      | none => pure ()
    pure pos

/-- A walk over the items of the receiver. -/
def walkArray (walk : Walk) (c : NativeCall) : Eval Value := do
  let id ← thisObject c
  pure (.object (← alloc (.arrayIterator (.object id) 0 walk) .arrayIteratorPrototype))

/-- Moves items within an object, from the front or from the back as the places overlap. -/
def moveItems (id source target count : Nat) : Eval Unit := do
  let order := if source < target then (List.range count).reverse else List.range count
  for i in order do
    match ← itemAt? id (source + i) with
    | some v => setProp id (indexKey (target + i)) v
    | none => deleteProp id (indexKey (target + i))

/-- Folds items from either end. -/
def reduceItems (c : NativeCall) (fromRight : Bool) : Eval Value := do
  let (id, n) ← thisList c
  let f ← functionArg c 0
  let order := if fromRight then (List.range n).reverse else List.range n
  let mut acc : Option Value := if c.args.size ≥ 2 then some (c.arg 1) else none
  for i in order do
    match ← itemAt? id i with
    | some v =>
      match acc with
      | some a => acc := some (← call f .undefined #[a, v, Value.ofNat i, .object id])
      | none => acc := some v
    | none => pure ()
  match acc with
  | some a => pure a
  | none => typeError "empty array"

/-- Checks that an array-like object may have a length. -/
def checkLength (n : Nat) : Eval Unit := do
  if n > maxLength.toNat then typeError "Array loo long"

/-- Checks that a copy with so many items can be made at once. -/
def checkCopy (n : Nat) : Eval Unit := do
  if n > 2147483647 then rangeError "Invalid array length"

/-- The items of an object with holes as undefined. -/
def allItems (id n : Nat) : Eval (Array Value) := do
  let mut out := #[]
  for i in [0:n] do
    out := out.push (← itemAt id i)
  pure out

/-- The position of an item and what is found there, from one end. -/
def findIn (c : NativeCall) (fromRight position : Bool) : Eval Value := do
  let (id, n) ← thisList c
  let _ ← functionArg c 0
  let order := if fromRight then (List.range n).reverse else List.range n
  match ← search id (ask c id) order with
  | some (i, v) => pure (if position then Value.ofNat i else v)
  | none => pure (if position then .int (-1) else .undefined)

/-- The items of a call that are put in place of others: where and how many go. -/
def spliceRange (c : NativeCall) (n : Nat) : Eval (Nat × Nat) := do
  let start ← relativeIndex (c.arg 0) n 0
  if c.args.size == 0 then pure (start, 0)
  else if c.args.size == 1 then pure (start, n - start)
  else
    let k ← toInteger (c.arg 1)
    pure (start, min (max k 0).toNat (n - start))

/-- What arrays inherit. -/
def arrayPrototype : Array Native := #[
  method "at" 1 fun c => do
    let (id, n) ← thisList c
    let i ← toInteger (c.arg 0)
    let i := if i < 0 then i + n else i
    if i < 0 || i ≥ n then pure .undefined else itemAt id i.toNat,
  method "with" 2 fun c => do
    let (id, n) ← thisList c
    let i ← toInteger (c.arg 0)
    let i := if i < 0 then i + n else i
    if i < 0 || i ≥ n then rangeError "invalid array index"
    checkCopy n
    let items ← allItems id n
    newArray (items.setIfInBounds i.toNat (c.arg 1)),
  method "concat" 1 fun c => do
    let id ← thisObject c
    let a ← arraySpecies id 0
    let mut pos := 0
    for v in #[Value.object id] ++ c.args do
      let spread ← match v with
        | .object o => do
          match ← getProp o (.symbol WellKnown.isConcatSpreadable) with
          | .undefined => isArray v
          | s => pure (truthy s)
        | _ => pure false
      match spread, v with
      | true, .object o => do
        let n ← lengthOf o
        checkLength (pos + n)
        for i in [0:n] do
          match ← itemAt? o i with
          | some x => createProp a (indexKey (pos + i)) x
          | none => pure ()
        pos := pos + n
      | _, v => do
        checkLength (pos + 1)
        createProp a (indexKey pos) v
        pos := pos + 1
    putLength a pos
    pure (.object a),
  method "every" 1 fun c => do
    let (id, n) ← thisList c
    let _ ← functionArg c 0
    let r ← searchPresent id (fun i v => do pure (!(← ask c id i v))) (List.range n)
    pure (.bool r.isNone),
  method "some" 1 fun c => do
    let (id, n) ← thisList c
    let _ ← functionArg c 0
    let r ← searchPresent id (ask c id) (List.range n)
    pure (.bool r.isSome),
  method "forEach" 1 fun c => do
    let (id, n) ← thisList c
    let _ ← functionArg c 0
    let _ ← searchPresent id (fun i v => do
      let _ ← ask c id i v
      pure false) (List.range n)
    pure .undefined,
  method "map" 1 fun c => do
    let (id, n) ← thisList c
    let f ← functionArg c 0
    let a ← arraySpecies id n
    upTo n fun i => do
      match ← itemAt? id i with
      | some v => createProp a (indexKey i) (← call f (c.arg 1) #[v, Value.ofNat i, .object id])
      | none => pure ()
    pure (.object a),
  method "filter" 1 fun c => do
    let (id, n) ← thisList c
    let _ ← functionArg c 0
    let a ← arraySpecies id 0
    let mut pos := 0
    for i in [0:n] do
      match ← itemAt? id i with
      | some v =>
        if ← ask c id i v then
          createProp a (indexKey pos) v
          pos := pos + 1
      | none => pure ()
    pure (.object a),
  method "reduce" 1 fun c => reduceItems c false,
  method "reduceRight" 1 fun c => reduceItems c true,
  method "fill" 1 fun c => do
    let (id, n) ← thisList c
    let start ← relativeIndex (c.arg 1) n 0
    let stop ← relativeIndex (c.arg 2) n n
    reserve (16 * (stop - start - ((← get).obj id).props.indices.size))
    for i in [start:stop] do
      setProp id (indexKey i) (c.arg 0)
    pure (.object id),
  method "find" 1 fun c => findIn c false false,
  method "findIndex" 1 fun c => findIn c false true,
  method "findLast" 1 fun c => findIn c true false,
  method "findLastIndex" 1 fun c => findIn c true true,
  method "indexOf" 1 fun c => do
    let (id, n) ← thisList c
    let start ← relativeIndex (c.arg 1) n 0
    let r ← searchPresent id (fun _ v => pure (v.strictEquals (c.arg 0)))
      ((List.range (n - start)).map (· + start))
    pure (match r with
      | some (i, _) => Value.ofNat i
      | none => .int (-1)),
  method "lastIndexOf" 1 fun c => do
    let (id, n) ← thisList c
    let start ← if c.args.size ≥ 2 then do
        let k ← toInteger (c.arg 1)
        pure (if k < 0 then k + n else min k (n - 1))
      else pure ((n : Int) - 1)
    if start < 0 then pure (.int (-1))
    else
      let r ← searchPresent id (fun _ v => pure (v.strictEquals (c.arg 0)))
        (List.range (min (start.toNat + 1) n)).reverse
      pure (match r with
        | some (i, _) => Value.ofNat i
        | none => .int (-1)),
  method "includes" 1 fun c => do
    let (id, n) ← thisList c
    let start ← relativeIndex (c.arg 1) n 0
    let r ← search id (fun _ v => pure (v.sameValueZero (c.arg 0)))
      ((List.range (n - start)).map (· + start))
    pure (.bool r.isSome),
  method "join" 1 fun c => do
    let (id, n) ← thisList c
    let sep ← if (c.arg 0).isUndefined then pure (txt ",") else toText (c.arg 0)
    joinItems id n sep false,
  method "toString" 0 fun c => do
    let id ← thisObject c
    let f ← getNamed id "join"
    if ← callable f then call f (.object id) #[] else defaultText (.object id),
  method "toLocaleString" 0 fun c => do
    let (id, n) ← thisList c
    joinItems id n (txt ",") true,
  method "pop" 0 fun c => do
    let (id, n) ← thisList c
    if n == 0 then
      putLength id 0
      pure .undefined
    else
      let v ← itemAt id (n - 1)
      deleteProp id (indexKey (n - 1))
      putLength id (n - 1)
      pure v,
  method "push" 1 fun c => do
    let (id, n) ← thisList c
    checkLength (n + c.args.size)
    for (v, i) in c.args.toList.zipIdx do
      setProp id (indexKey (n + i)) v
    putLength id (n + c.args.size)
    pure (Value.ofNat (n + c.args.size)),
  method "shift" 0 fun c => do
    let (id, n) ← thisList c
    if n == 0 then
      putLength id 0
      pure .undefined
    else
      let v ← itemAt id 0
      moveItems id 1 0 (n - 1)
      deleteProp id (indexKey (n - 1))
      putLength id (n - 1)
      pure v,
  method "unshift" 1 fun c => do
    let (id, n) ← thisList c
    let k := c.args.size
    checkLength (n + k)
    if k > 0 then
      moveItems id 0 k n
      for (v, i) in c.args.toList.zipIdx do
        setProp id (indexKey i) v
    putLength id (n + k)
    pure (Value.ofNat (n + k)),
  method "reverse" 0 fun c => do
    let (id, n) ← thisList c
    upTo (n / 2) fun i => do
      let j := n - 1 - i
      let a ← itemAt? id i
      let b ← itemAt? id j
      match b with
      | some b => setProp id (indexKey i) b
      | none => if a.isSome then deleteProp id (indexKey i)
      match a with
      | some a => setProp id (indexKey j) a
      | none => if b.isSome then deleteProp id (indexKey j)
    pure (.object id),
  method "toReversed" 0 fun c => do
    let (id, n) ← thisList c
    checkCopy n
    newArray (← allItems id n).reverse,
  method "sort" 1 fun c => do
    let f := c.arg 0
    if !f.isUndefined then
      if !(← callable f) then typeError "not a function"
    let (id, n) ← thisList c
    let mut items := #[]
    for i in [0:n] do
      match ← itemAt? id i with
      | some v => items := items.push v
      | none => pure ()
    let sorted ← sortValues f items
    for (v, i) in sorted.toList.zipIdx do
      setProp id (indexKey i) v
    for i in [sorted.size:n] do
      if ← hasProperty id (indexKey i) then deleteProp id (indexKey i)
    pure (.object id),
  method "toSorted" 1 fun c => do
    let f := c.arg 0
    if !f.isUndefined then
      if !(← callable f) then typeError "not a function"
    let (id, n) ← thisList c
    checkCopy n
    newArray (← sortValues f (← allItems id n)),
  method "slice" 2 fun c => do
    let (id, n) ← thisList c
    let start ← relativeIndex (c.arg 0) n 0
    let stop ← relativeIndex (c.arg 1) n n
    let count := stop - start
    let a ← arraySpecies id count
    upTo count fun i => do
      match ← itemAt? id (start + i) with
      | some v => createProp a (indexKey i) v
      | none => pure ()
    putLength a count
    pure (.object a),
  method "splice" 2 fun c => do
    let (id, n) ← thisList c
    let (start, gone) ← spliceRange c n
    let added := c.args.extract 2 c.args.size
    checkLength (n + added.size - gone)
    let a ← arraySpecies id gone
    upTo gone fun i => do
      match ← itemAt? id (start + i) with
      | some v => createProp a (indexKey i) v
      | none => pure ()
    putLength a gone
    if added.size != gone then
      moveItems id (start + gone) (start + added.size) (n - start - gone)
      for i in (List.range (gone - added.size)).reverse do
        deleteProp id (indexKey (n - (gone - added.size) + i))
    for (v, i) in added.toList.zipIdx do
      setProp id (indexKey (start + i)) v
    putLength id (n - gone + added.size)
    pure (.object a),
  method "toSpliced" 2 fun c => do
    let (id, n) ← thisList c
    let (start, gone) ← spliceRange c n
    let count := n - gone + (c.args.size - 2)
    if count > maxLength.toNat then typeError "invalid array length"
    if count > 4294967295 then rangeError "invalid array length"
    checkCopy count
    let items ← allItems id n
    newArray (items.extract 0 start ++ c.args.extract 2 c.args.size ++
      items.extract (start + gone) n),
  method "copyWithin" 2 fun c => do
    let (id, n) ← thisList c
    let target ← relativeIndex (c.arg 0) n 0
    let start ← relativeIndex (c.arg 1) n 0
    let stop ← relativeIndex (c.arg 2) n n
    moveItems id start target (min (stop - start) (n - target))
    pure (.object id),
  method "flatMap" 1 fun c => do
    let (id, n) ← thisList c
    let f ← functionArg c 0
    let a ← arraySpecies id 0
    let _ ← flatten a (some (f, c.arg 1)) proxyDepth id n 0 1
    pure (.object a),
  method "flat" 0 fun c => do
    let (id, n) ← thisList c
    let depth ← if (c.arg 0).isUndefined then pure 1 else toInteger (c.arg 0)
    let a ← arraySpecies id 0
    let _ ← flatten a none proxyDepth id n 0 depth.toNat
    pure (.object a),
  method "values" 0 (walkArray .values),
  method "keys" 0 (walkArray .keys),
  method "entries" 0 (walkArray .entries)]

/-- What a walk gives for a position. -/
def walkResult (walk : Walk) (i : Nat) (v : Eval Value) : Eval Value := do
  match walk with
  | .keys => iterResult (Value.ofNat i) false
  | .values => do iterResult (← v) false
  | .entries => do iterResult (← newArray #[Value.ofNat i, ← v]) false

/-- What walks over arrays inherit. -/
def arrayIterator : Array Native := #[
  method "next" 0 fun c => do
    match ← bodyOf c.this with
    | some (id, .arrayIterator target pos walk) => do
      match target with
      | .object t => do
        let n ← match ← body t with
          | .typed v => do
            if v.region.isNone then typeError "ArrayBuffer is detached or resized"
            pure v.count
          | _ => lengthOf t
        if pos < n then
          setBody id (.arrayIterator target (pos + 1) walk)
          walkResult walk pos (itemAt t pos)
        else
          setBody id (.arrayIterator .undefined pos walk)
          iterResult .undefined true
      | _ => iterResult .undefined true
    | _ => typeError "Array Iterator object expected"]

end Builtin

end ScriptHost
