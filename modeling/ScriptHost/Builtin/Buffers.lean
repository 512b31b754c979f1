import ScriptHost.Builtin.Arrays
/-!
# Buffers and their views

A buffer shows a region of memory.  A typed array remembers which region it shows and how many
elements are in reach; resizing a buffer brings its typed arrays up to date, and taking the memory
away leaves them without reach.
-/

namespace ScriptHost

namespace Builtin

open Eval

/-! ## Buffers -/

/-- The longest buffer. -/
def bufferLimit : Nat := twoTo 31 - 1

/-- New memory of zeros. -/
def zeros (n : Nat) : ByteArray := ⟨.replicate n 0⟩

/-- A new buffer over a region. -/
def newBufferOver (b : Buffer) (proto : Option Nat) : Eval Nat := allocWith (.buffer b) proto

/-- A new buffer of zeros, with room to grow.  It has memory for one byte at least, so that there is
something to point to. -/
def newBuffer (length : Nat) (maxLength : Option Nat) (shared : Bool) (proto : Option Nat) :
    Eval Nat := do
  let room := maxLength.getD length
  if length > bufferLimit || room > bufferLimit then rangeError "invalid array buffer length"
  reserve room
  let r ← Mem.newRegion (zeros (max length 1))
  newBufferOver
    { region := some r, length := length, maxLength := maxLength, shared := shared } proto

/-- A buffer that must be one. -/
def needBuffer (v : Value) (shared : Option Bool) : Eval (Nat × Buffer) := do
  let word := if shared == some true then "SharedArrayBuffer object expected"
    else "ArrayBuffer object expected"
  match ← bodyOf v with
  | some (id, .buffer b) =>
      if shared.isSome && shared != some b.shared then typeError word else pure (id, b)
  | _ => typeError word

/-- Says that memory was taken away. -/
def detached {α : Type} : Eval α := typeError "ArrayBuffer is detached"

/-- Says that a view is out of reach. -/
def outOfReach {α : Type} : Eval α := typeError "ArrayBuffer is detached or resized"

/-- How far a buffer may grow, as the options of its constructor say. -/
def maxLengthOption (v : Value) : Eval (Option Nat) := do
  match v with
  | .object o => do
    match ← getNamed o "maxByteLength" with
    | .undefined => pure none
    | m => do pure (some (← toIndex m "invalid array buffer max length"))
  | _ => pure none

/-- Makes a buffer. -/
def bufferConstructor (shared : Bool) (c : NativeCall) : Eval Value := do
  needsNew c
  let n ← toIndex (c.arg 0) "invalid array buffer length"
  let room ← maxLengthOption (c.arg 1)
  match room with
  | some m => if n > m then rangeError "invalid array buffer length"
  | none => pure ()
  let p ← protoFor c.target (if shared then .sharedBufferPrototype else .bufferPrototype)
  pure (.object (← newBuffer n room shared p))

/-- Brings the typed arrays of a buffer up to date after its length changed. -/
def refreshViews (buffer : Nat) (length : Nat) (region : Option RegionId) : Eval Unit :=
  modify fun m =>
    { m with heap := m.heap.map fun o =>
      match o.body with
      | .typed v =>
        if v.buffer != buffer then o
        -- A view without a length of its own follows the buffer; any other is lost when it no
        -- longer fits, and comes back when it does.
        else if v.tracks then
          if length ≥ v.offset + v.kind.size then
            { o with body := .typed { v with
                length := length - v.offset, count := (length - v.offset) / v.kind.size
                region := region } }
          else { o with body := .typed { v with count := 0, region := none } }
        else if length ≥ v.offset + v.length then
          { o with body := .typed { v with count := v.length / v.kind.size, region := region } }
        else { o with body := .typed { v with count := 0, region := none } }
      | .dataView v =>
        if v.buffer == buffer && v.tracks && v.offset < length then
          { o with body := .dataView { v with length := length - v.offset } }
        else o
      | _ => o }

/-- Gives back lent memory. -/
def releaseToken (b : Buffer) : Eval Unit :=
  match b.token with
  | some t => modify fun m => { m with released := m.released.push t }
  | none => pure ()

/-- Takes the memory of a buffer away. -/
def detach (id : Nat) (b : Buffer) : Eval Unit := do
  releaseToken b
  setBody id (.buffer { b with region := none, length := 0 })
  modify fun m =>
    { m with heap := m.heap.map fun o =>
      match o.body with
      | .typed v =>
          if v.buffer == id then { o with body := .typed { v with count := 0, region := none } }
          else o
      | _ => o }

/-- Memory cut or filled with zeros to a length. -/
def resized (b : ByteArray) (n : Nat) : ByteArray :=
  if n ≤ b.size then b.extract 0 n else b ++ zeros (n - b.size)

/-- Moves the memory of a buffer to a new one. -/
def transfer (keepRoom : Bool) (c : NativeCall) : Eval Value := do
  let (id, b) ← needBuffer c.this (some false)
  let n ← if (c.arg 0).isUndefined then pure b.length
    else toIndex (c.arg 0) "invalid array buffer length"
  match b.region with
  | none => detached
  | some r => do
    let room := if keepRoom then b.maxLength else none
    match room with
    | some m => if n > m then rangeError "invalid array buffer length"
    | none => if n > bufferLimit then rangeError "invalid array buffer length"
    let proto ← intrinsic .bufferPrototype
    if n == 0 then
      detach id b
      pure (.object (← newBuffer 0 room false proto))
    else
      -- Memory that keeps its size changes hands as it is.
      let r ← if n == b.length then pure r
        else do
          reserve n
          let bytes := (← get).region r
          Mem.newRegion (resized bytes n)
      setBody id (.buffer { b with region := none, length := 0 })
      pure (.object (← newBufferOver { region := some r, length := n, maxLength := room } proto))

/-- A copy of a stretch of a buffer. -/
def sliceBuffer (shared : Bool) (c : NativeCall) : Eval Value := do
  let (id, b) ← needBuffer c.this (some shared)
  if b.region.isNone then detached
  let start ← relativeIndex (c.arg 0) b.length 0
  let stop ← relativeIndex (c.arg 1) b.length b.length
  let n := stop - start
  let ctor ← speciesOf c.this (← intrinsicValue
    (if shared then .sharedBufferConstructor else .bufferConstructor))
  let v ← construct ctor #[Value.ofNat n] ctor
  let (nid, nb) ← needBuffer v (some shared)
  if nid == id then typeError "cannot use identical ArrayBuffer"
  if nb.length < n then typeError "new ArrayBuffer is too small"
  -- The constructor may be a script's own, and may have detached the buffer meanwhile.
  match ← body id with
  | .buffer b =>
    match b.region, nb.region with
    | some r, some q => do
      let bytes := (← get).region r
      writeRegion q fun d => ElementKind.writeBytes d 0 (bytes.extract start (start + n)).toList
      pure v
    | _, _ => detached
  | _ => pure v

/-- Functions of the constructor of buffers. -/
def bufferStatics : Array Native := #[
  method "isView" 1 fun c => do
    match ← bodyOf (c.arg 0) with
    | some (_, .typed _) | some (_, .dataView _) => pure (.bool true)
    | _ => pure (.bool false),
  getter "@species" returnThis]

/-- How many bytes a buffer has. -/
def byteLength (shared : Bool) (c : NativeCall) : Eval Value := do
  pure (Value.ofNat (← needBuffer c.this (some shared)).2.length)

/-- What buffers inherit. -/
def bufferPrototype : Array Native := #[
  getter "byteLength" (byteLength false),
  getter "maxByteLength" fun c => do
    let (_, b) ← needBuffer c.this (some false)
    pure (Value.ofNat (if b.region.isNone then 0 else b.maxLength.getD b.length)),
  getter "resizable" fun c => do
    let (_, b) ← needBuffer c.this (some false)
    pure (.bool b.maxLength.isSome),
  getter "detached" fun c => do
    let (_, b) ← needBuffer c.this (some false)
    pure (.bool b.region.isNone),
  method "slice" 2 (sliceBuffer false),
  method "resize" 1 fun c => do
    let (id, b) ← needBuffer c.this (some false)
    match b.maxLength with
    | none => typeError "array buffer is not resizable"
    | some room => do
      let n ← toIndex (c.arg 0) "invalid array buffer length"
      if n > room then rangeError "invalid array buffer length"
      match b.region with
      | none => detached
      | some r => do
        writeRegion r fun d => resized d n
        setBody id (.buffer { b with length := n })
        refreshViews id n (some r)
        pure .undefined,
  method "transfer" 0 (transfer true),
  method "transferToFixedLength" 0 (transfer false)]

/-- What shared buffers inherit. -/
def sharedBufferPrototype : Array Native := #[
  getter "byteLength" (byteLength true),
  getter "maxByteLength" fun c => do
    let (_, b) ← needBuffer c.this (some true)
    pure (Value.ofNat (b.maxLength.getD b.length)),
  getter "growable" fun c => do
    let (_, b) ← needBuffer c.this (some true)
    pure (.bool b.maxLength.isSome),
  method "grow" 1 fun c => do
    let (id, b) ← needBuffer c.this (some true)
    match b.maxLength, b.region with
    | some room, some r => do
      let n ← toIndex (c.arg 0) "invalid array buffer length"
      if n > room || n < b.length then rangeError "invalid array buffer length"
      writeRegion r fun d => resized d n
      setBody id (.buffer { b with length := n })
      refreshViews id n (some r)
      pure .undefined
    | _, _ => typeError "array buffer is not growable",
  method "slice" 2 (sliceBuffer true)]

/-! ## Typed arrays -/

/-- Makes a typed array over a stretch of a buffer. -/
def newTyped (kind : ElementKind) (buffer offset length : Nat) (tracks : Bool)
    (region : Option RegionId) (proto : Option Nat) : Eval Nat :=
  allocWith (.typed ⟨kind, buffer, offset, length, tracks, length / kind.size, region⟩) proto

/-- Makes a typed array over a buffer, or a stretch of it. -/
def typedOver (kind : ElementKind) (id : Nat) (b : Buffer) (offset length : Value)
    (proto : Option Nat) : Eval Nat := do
  let off ← toIndex offset "invalid offset"
  if off % kind.size != 0 then rangeError "invalid offset"
  let asked ← if length.isUndefined then pure none
    else do pure (some (← toIndex length "invalid length"))
  -- Reading the arguments may run scripts, so the buffer is looked at anew.
  let b := match ← body id with
    | .buffer b => b
    | _ => b
  if b.region.isNone then detached
  match asked with
  | none => do
    if off > b.length then rangeError "invalid offset"
    if b.maxLength.isSome then newTyped kind id off (b.length - off) true b.region proto
    else
      if (b.length - off) % kind.size != 0 then rangeError "invalid length"
      newTyped kind id off (b.length - off) false b.region proto
  | some n => do
    if off > b.length then rangeError "invalid offset"
    if off + n * kind.size > b.length then rangeError "invalid length"
    newTyped kind id off (n * kind.size) false b.region proto

/-- Makes a typed array of a number of zeros. -/
def typedOfLength (kind : ElementKind) (n : Nat) (proto : Option Nat) : Eval Nat := do
  let bytes := n * kind.size
  let b ← newBuffer bytes none false (← intrinsic .bufferPrototype)
  match ← body b with
  | .buffer x => newTyped kind b 0 bytes false x.region proto
  | _ => pure b

/-- Makes a typed array of values. -/
def typedOfValues (kind : ElementKind) (vs : Array Value) (proto : Option Nat) : Eval Nat := do
  let id ← typedOfLength kind vs.size proto
  for (v, i) in vs.toList.zipIdx do
    let x ← toElement kind v
    storeElement id i x
  pure id

/-- A typed array that must be one. -/
def needTyped (v : Value) : Eval (Nat × TypedView) := do
  match ← bodyOf v with
  | some (id, .typed t) => pure (id, t)
  | _ => typeError "not a TypedArray"

/-- Whether the buffer of a view has lost its memory. -/
def viewDetached (m : Machine) (t : TypedView) : Bool :=
  match m.body t.buffer with
  | .buffer b => b.region.isNone
  | _ => true

/-- Whether a view is out of reach. -/
def viewLost (m : Machine) (t : TypedView) : Bool :=
  match m.body t.buffer with
  | .buffer b =>
    b.region.isNone || t.offset > b.length || (!t.tracks && t.offset + t.length > b.length)
  | _ => true

/-- A typed array that must be one in reach. -/
def reachTyped (v : Value) : Eval (Nat × TypedView) := do
  let (id, t) ← needTyped v
  if viewLost (← get) t then outOfReach
  pure (id, t)

/-- Makes a typed array of a kind. -/
def elementConstructor (kind : ElementKind) (c : NativeCall) : Eval Value := do
  needsNew c
  let fallback := Intrinsic.elementPrototype kind
  match c.arg 0 with
  | .object src => do
    match ← body src with
    | .buffer b => do
      let p ← protoFor c.target fallback
      pure (.object (← typedOver kind src b (c.arg 1) (c.arg 2) p))
    | .typed t => do
      if viewLost (← get) t then outOfReach
      let p ← protoFor c.target fallback
      if t.kind.isBig != kind.isBig then typeError "cannot convert to BigInt"
      let vs ← allItems src t.count
      pure (.object (← typedOfValues kind vs p))
    | _ => do
      -- What can be walked over is walked over; any other object counts as a list.
      let vs ← match ← getMethod (c.arg 0) (.symbol WellKnown.iterator) with
        | some m => do
          let it ← openWith (c.arg 0) m
          foldItems it #[] fun xs x => pure (xs.push x)
        | none => do
          let n ← toInteger (← getNamed src "length")
          if n > bufferLimit then rangeError "invalid array buffer length"
          allItems src (max n 0).toNat
      let p ← protoFor c.target fallback
      pure (.object (← typedOfValues kind vs p))
  | v => do
    let n ← toIndex v "invalid array index"
    if n * kind.size > bufferLimit then rangeError "invalid array buffer length"
    let p ← protoFor c.target fallback
    pure (.object (← typedOfLength kind n p))

/-- Refuses to make a typed array of no kind. -/
def typedArrayConstructor (_ : NativeCall) : Eval Value := typeError "cannot be called"

/-- A new typed array for a constructor. -/
def typedFor (ctor : Value) (args : Array Value) (least : Option Nat) : Eval Nat := do
  let v ← construct ctor args ctor
  let (id, t) ← reachTyped v
  match least with
  | some n => if t.count < n then typeError "TypedArray length is too small"
  | none => pure ()
  pure id

/-- A new typed array of the same kind as another. -/
def typedSpecies (v : Value) (args : Array Value) (least : Option Nat) : Eval Nat := do
  let (_, t) ← needTyped v
  let ctor ← speciesOf v (← intrinsicValue (.elementConstructor t.kind))
  let id ← typedFor ctor args least
  match ← body id with
  | .typed u => if u.kind.isBig != t.kind.isBig then typeError "TypedArray content type mismatch"
  | _ => pure ()
  pure id

/-- Functions of the constructor of typed arrays. -/
def typedArrayStatics : Array Native := #[
  method "from" 1 fun c => do
    if !(← get).constructs c.this then typeError "not a constructor"
    let f := c.arg 1
    let mapping := !f.isUndefined
    if mapping then
      if !(← callable f) then typeError "not a function"
    let vs ← match ← getMethod (c.arg 0) (.symbol WellKnown.iterator) with
      | some m => do
        let it ← openWith (c.arg 0) m
        foldItems it #[] fun xs x => pure (xs.push x)
      | none => do
        let src ← toObject (c.arg 0)
        allItems src (← lengthOf src)
    let id ← typedFor c.this #[Value.ofNat vs.size] (some vs.size)
    for (v, i) in vs.toList.zipIdx do
      let x ← if mapping then call f (c.arg 2) #[v, Value.ofNat i] else pure v
      setProp id (indexKey i) x
    pure (.object id),
  method "of" 0 fun c => do
    if !(← get).constructs c.this then typeError "not a constructor"
    let id ← typedFor c.this #[Value.ofNat c.args.size] (some c.args.size)
    for (v, i) in c.args.toList.zipIdx do
      setProp id (indexKey i) v
    pure (.object id),
  getter "@species" returnThis]

/-- Order of two elements: numbers by value with the negative zero first and NaN last. -/
def elementOrder (a b : Value) : Bool :=
  match a, b with
  | .bigint x, .bigint y => x ≤ y
  | a, b =>
    let x := a.number?.getD Binary.nan
    let y := b.number?.getD Binary.nan
    if x.isNaN then y.isNaN
    else if y.isNaN then true
    else if x == 0 && y == 0 then Binary.isNegZero x || !Binary.isNegZero y
    else x ≤ y

/-- Elements in order, by a function or by value. -/
def sortElements (f : Value) (vs : Array Value) : Eval (Array Value) := do
  let le : Value → Value → Eval Bool :=
    if f.isUndefined then fun a b => pure (elementOrder a b) else sortOrder f
  pure (← sortWith le (vs.size + 1) vs.toList).toArray

/-- The receiver as a typed array and its length. -/
def thisTyped (c : NativeCall) : Eval (Nat × Nat) := do
  let (id, t) ← reachTyped c.this
  pure (id, t.count)

/-- A walk over a typed array. -/
def walkTyped (walk : Walk) (c : NativeCall) : Eval Value := do
  let (id, _) ← thisTyped c
  pure (.object (← alloc (.arrayIterator (.object id) 0 walk) .arrayIteratorPrototype))

/-- A method of arrays for a typed array, which is checked first. -/
def likeArray (name : String) : Native :=
  match arrayPrototype.find? (·.name == name) with
  | some n => { n with run := fun c => do
      let _ ← thisTyped c
      n.run c }
  | none => method name 0 fun _ => pure .undefined

/-- How many elements of a typed array are in reach. -/
def elementCount (c : NativeCall) : Eval Value := do
  let (_, t) ← needTyped c.this
  if viewLost (← get) t && !(viewDetached (← get) t) then pure (.int 0)
  else pure (Value.ofNat t.count)

/-- What typed arrays inherit. -/
def typedArrayPrototype : Array Native := #[
  getter "length" elementCount,
  likeArray "at",
  method "with" 2 fun c => do
    let (id, n) ← thisTyped c
    let (_, t) ← needTyped c.this
    let i ← toInteger (c.arg 0)
    let i := if i < 0 then i + n else i
    let x ← toElement t.kind (c.arg 1)
    if i < 0 || i ≥ n then rangeError "invalid array index"
    let vs ← allItems id n
    pure (.object (← typedOfValues t.kind (vs.setIfInBounds i.toNat x)
      (← intrinsic (.elementPrototype t.kind)))),
  getter "buffer" fun c => do pure (.object (← needTyped c.this).2.buffer),
  getter "byteLength" fun c => do
    let (_, t) ← needTyped c.this
    if viewLost (← get) t then pure (.int 0)
    else pure (Value.ofNat (if t.tracks then t.count * t.kind.size else t.length)),
  getter "byteOffset" fun c => do
    let (_, t) ← needTyped c.this
    if viewLost (← get) t then pure (.int 0) else pure (Value.ofNat t.offset),
  method "set" 1 fun c => do
    let (id, t) ← needTyped c.this
    let off ← toInteger (c.arg 1)
    if off < 0 then rangeError "invalid array index"
    if viewLost (← get) t then outOfReach
    let src ← toObject (c.arg 0)
    let n ← match ← body src with
      | .typed u => pure u.count
      | _ => lengthOf src
    if off + n > t.count then rangeError "invalid array length"
    let vs ← allItems src n
    for (v, i) in vs.toList.zipIdx do
      let x ← toElement t.kind v
      storeElement id (off.toNat + i) x
    pure .undefined,
  method "values" 0 (walkTyped .values),
  method "keys" 0 (walkTyped .keys),
  method "entries" 0 (walkTyped .entries),
  getter "@toStringTag" fun c => do
    match ← bodyOf c.this with
    | some (_, .typed t) => pure (.str t.kind.constructorName)
    | _ => pure .undefined,
  likeArray "copyWithin",
  likeArray "every",
  likeArray "some",
  likeArray "forEach",
  method "map" 1 fun c => do
    let (id, n) ← thisTyped c
    let f ← functionArg c 0
    let a ← typedSpecies c.this #[Value.ofNat n] (some n)
    upTo n fun i => do
      let v ← itemAt id i
      setProp a (indexKey i) (← call f (c.arg 1) #[v, Value.ofNat i, .object id])
    pure (.object a),
  method "filter" 1 fun c => do
    let (id, n) ← thisTyped c
    let _ ← functionArg c 0
    let mut kept := #[]
    for i in [0:n] do
      let v ← itemAt id i
      if ← ask c id i v then kept := kept.push v
    let a ← typedSpecies c.this #[Value.ofNat kept.size] (some kept.size)
    for (v, i) in kept.toList.zipIdx do
      setProp a (indexKey i) v
    pure (.object a),
  likeArray "reduce",
  likeArray "reduceRight",
  method "fill" 1 fun c => do
    let (id, t) ← reachTyped c.this
    let x ← toElement t.kind (c.arg 0)
    let start ← relativeIndex (c.arg 1) t.count 0
    let stop ← relativeIndex (c.arg 2) t.count t.count
    for i in [start:stop] do
      storeElement id i x
    pure c.this,
  likeArray "find",
  likeArray "findIndex",
  likeArray "findLast",
  likeArray "findLastIndex",
  likeArray "reverse",
  method "toReversed" 0 fun c => do
    let (id, n) ← thisTyped c
    let (_, t) ← needTyped c.this
    let vs ← allItems id n
    pure (.object (← typedOfValues t.kind vs.reverse (← intrinsic (.elementPrototype t.kind)))),
  method "slice" 2 fun c => do
    let (id, n) ← thisTyped c
    let start ← relativeIndex (c.arg 0) n 0
    let stop ← relativeIndex (c.arg 1) n n
    let count := stop - start
    let a ← typedSpecies c.this #[Value.ofNat count] (some count)
    upTo count fun i => do setProp a (indexKey i) (← itemAt id (start + i))
    pure (.object a),
  method "subarray" 2 fun c => do
    let (_, t) ← needTyped c.this
    let n := t.count
    let start ← relativeIndex (c.arg 0) n 0
    let stop ← relativeIndex (c.arg 1) n n
    let offset := t.offset + start * t.kind.size
    let args := #[Value.object t.buffer, Value.ofNat offset]
    let args :=
      -- Part of a view that follows its buffer follows it too, unless an end is given.
      if t.tracks && (c.arg 1).isUndefined then args else args.push (Value.ofNat (stop - start))
    pure (.object (← typedSpecies c.this args none)),
  method "sort" 1 fun c => do
    let f := c.arg 0
    if !f.isUndefined then
      if !(← callable f) then typeError "not a function"
    let (id, n) ← thisTyped c
    let sorted ← sortElements f (← allItems id n)
    for (v, i) in sorted.toList.zipIdx do
      setProp id (indexKey i) v
    pure c.this,
  method "toSorted" 1 fun c => do
    let f := c.arg 0
    if !f.isUndefined then
      if !(← callable f) then typeError "not a function"
    let (id, n) ← thisTyped c
    let (_, t) ← needTyped c.this
    let sorted ← sortElements f (← allItems id n)
    pure (.object (← typedOfValues t.kind sorted (← intrinsic (.elementPrototype t.kind)))),
  likeArray "join",
  likeArray "toLocaleString",
  likeArray "indexOf",
  likeArray "lastIndexOf",
  likeArray "includes"]

/-! ## Views of bytes -/

/-- Makes a view of bytes. -/
def dataViewConstructor (c : NativeCall) : Eval Value := do
  needsNew c
  let (id, b) ← needBuffer (c.arg 0) none
  let off ← if (c.arg 1).isUndefined then pure 0 else toIndex (c.arg 1) "invalid offset"
  if b.region.isNone then detached
  if off > b.length then rangeError "invalid byteOffset"
  let asked ← if (c.arg 2).isUndefined then pure none else do
    pure (some (← toIndex (c.arg 2) "invalid byteLength"))
  match asked with
  | some n => if off + n > b.length then rangeError "invalid byteLength"
  | none => pure ()
  let tracks := asked.isNone && b.maxLength.isSome
  let p ← protoFor c.target .dataViewPrototype
  pure (.object (← allocWith (.dataView ⟨id, off, asked.getD (b.length - off), tracks⟩) p))

/-- A view of bytes that must be one. -/
def needView (v : Value) : Eval (ByteView × Buffer) := do
  match ← bodyOf v with
  | some (_, .dataView d) => do
    match ← body d.buffer with
    | .buffer b => pure (d, b)
    | _ => typeError "DataView object expected"
  | _ => typeError "DataView object expected"

/-- Whether a view of bytes is out of reach. -/
def byteViewLost (d : ByteView) (b : Buffer) : Bool :=
  b.region.isNone || d.offset > b.length || (!d.tracks && d.offset + d.length > b.length)

/-- Reads an element through a view of bytes. -/
def viewGet (kind : ElementKind) (c : NativeCall) : Eval Value := do
  let _ ← needView c.this
  let pos ← toIndex (c.arg 0) "invalid array index"
  let little := truthy (c.arg 1)
  let (d, b) ← needView c.this
  match b.region with
  | none => detached
  | some r => do
    if byteViewLost d b then outOfReach
    if pos + kind.size > d.length then rangeError "out of bound"
    let bytes := ElementKind.bytesAt ((← get).region r) (d.offset + pos) kind.size
    pure (kind.decodeBits (ElementKind.ofLittle (if little then bytes else bytes.reverse)))

/-- Writes an element through a view of bytes. -/
def viewSet (kind : ElementKind) (c : NativeCall) : Eval Value := do
  let _ ← needView c.this
  let pos ← toIndex (c.arg 0) "invalid array index"
  let x ← toElement kind (c.arg 1)
  let little := truthy (c.arg 2)
  let (d, b) ← needView c.this
  match b.region with
  | none => detached
  | some r => do
    if byteViewLost d b then outOfReach
    if pos + kind.size > d.length then rangeError "out of bound"
    let bytes := kind.encode x
    writeRegion r fun m => ElementKind.writeBytes m (d.offset + pos)
      (if little then bytes else bytes.reverse)
    pure .undefined

/-- The kinds that views of bytes can read and write. -/
def viewKinds : List ElementKind :=
  [.int8, .uint8, .int16, .uint16, .int32, .uint32, .bigInt64, .bigUint64, .float16, .float32,
    .float64]

/-- What views of bytes inherit. -/
def dataViewPrototype : Array Native := #[
  getter "buffer" fun c => do pure (.object (← needView c.this).1.buffer),
  getter "byteLength" fun c => do
    let (d, b) ← needView c.this
    if byteViewLost d b then outOfReach
    pure (Value.ofNat (if d.tracks then b.length - d.offset else d.length)),
  getter "byteOffset" fun c => do
    let (d, b) ← needView c.this
    if byteViewLost d b then outOfReach
    pure (Value.ofNat d.offset)]
  ++ (viewKinds.map fun k => method ("get" ++ k.label) 1 (viewGet k)).toArray
  ++ (viewKinds.map fun k => method ("set" ++ k.label) 2 (viewSet k)).toArray

end Builtin

end ScriptHost
