import ScriptHost.Host.Collections
/-!
# Buffers and typed arrays

A buffer holds a copy of the host's bytes, or is made over memory that the host lends; that memory
stays pinned until the engine gives it back.  The bytes of a buffer, and of the part of it that a
typed array looks at, can be copied out or worked on in place.
-/

namespace ScriptHost

/-- What a typed array looks at; the buffer is a reference of its own. -/
structure ArrayInfo where
  buffer : Handle
  offset : Nat
  /-- Bytes in view. -/
  length : Nat
  elementSize : Nat
deriving Inhabited

/-- Bytes of a buffer that the host works on in place. -/
structure SharedBytes where
  region : Nat
  offset : Nat
  length : Nat
deriving DecidableEq, Inhabited, Repr

namespace Host

variable {σ : Type} [Engine σ]

/-! ## Making buffers -/

/-- A buffer over a copy of bytes. -/
def newArrayBuffer (c : ContextId) (bytes : ByteArray) : Action σ Handle := do
  check c (← ask (.copyBuffer (← live c) bytes))

/-- Pins a new region; gives its address and its token. -/
def pin (length : Nat) : Action σ (Nat × Token) := do
  let pins := (← getThe (Host σ)).pins
  modify fun h => { h with pins := pins.lend length }
  report (.regionLent length)
  pure ((pins.fresh length).address, pins.next)

/-- Unpins a region that was never lent. -/
def unpin (token : Token) : Action σ Unit :=
  modify fun h => { h with pins := h.pins.giveBack token }

/-- A buffer over memory that is lent until the engine gives it back.  No bytes have no memory, so
for them it is a buffer over a copy. -/
def newSharedBuffer (c : ContextId) (bytes : ByteArray) : Action σ Handle := do
  if bytes.size == 0 then newArrayBuffer c bytes
  else
    -- The memory is pinned before the context is looked at.
    let (address, token) ← pin bytes.size
    let v : Value ← ask (.lendBuffer (← live c) bytes address token)
    -- An engine that made no buffer will never give the memory back.
    if v == .exception then unpin token
    check c v

/-! ## Making typed arrays -/

/-- The constructor of a kind, which the engine may lack. -/
def arrayConstructor (c : ContextId) (k : ElementKind) : Action σ Handle := do
  let f := (← context c).cache.elements k
  if f.isObject then pure ⟨c, f⟩ else fail (.missingGlobal k.constructorName)

/-- A typed array of zeros. -/
def newTypedArray (c : ContextId) (k : ElementKind) (length : UInt32) : Action σ Handle := do
  construct (← arrayConstructor c k) [← newUInt32 c length]

/-- A typed array that looks at a whole buffer. -/
def newTypedArrayOver (c : ContextId) (k : ElementKind) (buffer : Handle) : Action σ Handle := do
  construct (← arrayConstructor c k) [buffer]

/-- A typed array over a copy of bytes. -/
def newTypedArrayOf (c : ContextId) (k : ElementKind) (bytes : ByteArray) : Action σ Handle := do
  holding (← newArrayBuffer c bytes) (newTypedArrayOver c k)

/-! ## Looking at buffers -/

/-- What a buffer or a typed array looks at. -/
def arrayInfo (h : Handle) : Action σ ArrayInfo := do
  if ← isArrayBuffer h then
    -- A buffer is asked for its length as any object is, by a property that scripts may define
    -- anew.
    let n ← length h
    pure ⟨← dupe h, 0, n, 1⟩
  else if (← elementKind? h).isNone then
    fail (.contractViolation "typed_array_info"
      ("expected ArrayBuffer or TypedArray, got " ++ (← typeName h)))
  else
    let i ← orViolation h.context "typed_array_info" (← ask (.viewInfo (← live h.context) h.value))
    pure ⟨⟨h.context, i.buffer⟩, i.offset, i.length, i.elementSize⟩

/-- The bytes of a buffer from an offset on; all of them, if no length is given. -/
def byteViewOf (h : Handle) (offset : Nat) (length : Option Nat) : Action σ SharedBytes := do
  let r ← orThrow h.context (← ask (.bufferRegion (← live h.context) h.value))
  pure ⟨r.id, offset, length.getD r.size⟩

/-- The bytes that a buffer has or a typed array looks at. -/
def byteView (h : Handle) : Action σ SharedBytes := do
  if ← isArrayBuffer h then byteViewOf h 0 none
  else if (← elementKind? h).isSome then
    let i ← arrayInfo h
    -- The place of the view is taken as it was told; it is not compared with the size of the
    -- region.
    holding i.buffer fun b => byteViewOf b i.offset (some i.length)
  else fail (.wrongType "ArrayBuffer or TypedArray" (← typeName h))

/-- Reads the bytes in view. -/
def readView (v : SharedBytes) : Action σ ByteArray := ask (.readRegion v.region v.offset v.length)

/-- Writes bytes into a view. -/
def writeView (v : SharedBytes) (start : Nat) (bytes : ByteArray) : Action σ Unit :=
  ask (.writeRegion v.region (v.offset + start) bytes)

/-- A copy of the bytes that a buffer has or a typed array looks at. -/
def toByteArray (h : Handle) : Action σ ByteArray := do readView (← byteView h)

end Host

end ScriptHost
