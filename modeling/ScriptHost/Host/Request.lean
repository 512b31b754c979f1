import ScriptHost.Engine.Options
import ScriptHost.Engine.Value
import ScriptHost.Host.KeyFilter
import ScriptHost.Host.Pins
/-!
# Requests to an engine

The host never touches an engine but through requests.  A request is data, and what an answer to it
looks like is read off the request, so an engine is a function, and whatever the host does can be
told from the requests that it made.  References are counted: what a request gives to the host and
takes from it is part of its meaning.
-/

namespace ScriptHost

/-- The number of a realm. -/
abbrev RealmId := Nat

/-- A memory region that an engine shows to the host. -/
structure Region where
  /-- The number of the region. -/
  id : Nat
  /-- How many bytes it has. -/
  size : Nat
deriving DecidableEq, Inhabited, Repr

/-- What an engine tells of a typed array. -/
structure ViewInfo where
  /-- The buffer, as a reference of its own. -/
  buffer : Value
  offset : Nat
  /-- Bytes in view. -/
  length : Nat
  elementSize : Nat
deriving Inhabited

/-- How an attempt to do one piece of waiting work came out. -/
inductive JobEnd where
  /-- There was none. -/
  | idle
  | done
  /-- It threw, in a realm. -/
  | failed (realm : RealmId)
deriving DecidableEq, Inhabited, Repr

/-! ## References -/

/-- A thing that the host can hold a reference to. -/
inductive Ref where
  | value (v : Value)
  | key (k : Key)
deriving DecidableEq, Inhabited

/-- Whether references to a value are counted. -/
def Value.isCounted (v : Value) : Bool := Tag.isCounted v.tag

/-- The reference to a value, if it is counted. -/
def Ref.ofValue (v : Value) : List Ref := if v.isCounted then [.value v] else []

/-- The reference to a key, if it is one. -/
def Ref.ofKey (k : Key) : List Ref := if k.isNull then [] else [.key k]

/-- The reference itself, if it is counted. -/
def Ref.counted : Ref → List Ref
  | .value v => ofValue v
  | .key k => ofKey k

/-! ## Requests -/

/-- Something that the host asks of an engine. -/
inductive Request where
  /-- Makes a realm with everything in it. -/
  | openRealm
  /-- Makes a realm with some features only. -/
  | openBare (features : List Feature)
  | closeRealm (realm : RealmId)
  | globalObject (realm : RealmId)
  /-- Asks for a second reference. -/
  | retain (realm : RealmId) (ref : Ref)
  /-- Gives references back. -/
  | release (realm : RealmId) (refs : List Ref)
  /-- Takes what was thrown off the engine. -/
  | takeException (realm : RealmId)
  | newText (realm : RealmId) (text : String)
  | newBig (realm : RealmId) (n : Int)
  | newObject (realm : RealmId)
  | newArray (realm : RealmId)
  | newError (realm : RealmId)
  | keyOfText (realm : RealmId) (text : String)
  | keyOfIndex (realm : RealmId) (n : UInt32)
  | keyOfValue (realm : RealmId) (v : Value)
  | valueOfKey (realm : RealmId) (k : Key)
  | textOfKey (realm : RealmId) (k : Key)
  | get (realm : RealmId) (target : Value) (k : Key)
  | getNamed (realm : RealmId) (target : Value) (name : String)
  /-- Writes a property; the reference to the value passes to the engine whatever comes of it. -/
  | set (realm : RealmId) (target : Value) (k : Key) (v : Value)
  | has (realm : RealmId) (target : Value) (k : Key)
  /-- Whether an object has a property of its own. -/
  | hasOwn (realm : RealmId) (target : Value) (k : Key)
  | delete (realm : RealmId) (target : Value) (k : Key)
  | ownKeys (realm : RealmId) (target : Value) (filter : KeyFilter)
  | call (realm : RealmId) (f this : Value) (args : List Value)
  | construct (realm : RealmId) (f : Value) (args : List Value)
  | isInstance (realm : RealmId) (v constructor : Value)
  | isError (realm : RealmId) (v : Value)
  | isFunction (realm : RealmId) (v : Value)
  | isConstructor (realm : RealmId) (v : Value)
  | toBool (realm : RealmId) (v : Value)
  | toInt32 (realm : RealmId) (v : Value)
  | toUInt32 (realm : RealmId) (v : Value)
  | toInt64 (realm : RealmId) (v : Value)
  | toFloat (realm : RealmId) (v : Value)
  | toBigInt64 (realm : RealmId) (v : Value)
  | toText (realm : RealmId) (v : Value)
  | evaluate (realm : RealmId) (source file : String) (mode : EvalMode)
  | readJson (realm : RealmId) (text file : String)
  | writeJson (realm : RealmId) (v : Value)
  /-- Makes a buffer over a copy of bytes. -/
  | copyBuffer (realm : RealmId) (bytes : ByteArray)
  /-- Makes a buffer over memory of the host at an address, which the engine knows by a token. -/
  | lendBuffer (realm : RealmId) (bytes : ByteArray) (address : Nat) (token : Token)
  /-- The memory of a buffer. -/
  | bufferRegion (realm : RealmId) (v : Value)
  /-- What a typed array looks at. -/
  | viewInfo (realm : RealmId) (v : Value)
  | readRegion (region offset length : Nat)
  | writeRegion (region offset : Nat) (bytes : ByteArray)
  /-- Does one piece of waiting work. -/
  | runJob
  /-- Frees what cannot be reached. -/
  | collect
  /-- Frees everything. -/
  | shutDown
deriving Inhabited

namespace Request

/-- The realm that a request is made in. -/
def realm? : Request → Option RealmId
  | openRealm | openBare _ | readRegion _ _ _ | writeRegion _ _ _ | runJob | collect | shutDown =>
      none
  | closeRealm r | globalObject r | retain r _ | release r _ | takeException r | newText r _
  | newBig r _ | newObject r | newArray r | newError r | keyOfText r _ | keyOfIndex r _
  | keyOfValue r _ | valueOfKey r _ | textOfKey r _ | get r _ _ | getNamed r _ _ | set r _ _ _
  | has r _ _ | hasOwn r _ _ | delete r _ _ | ownKeys r _ _ | call r _ _ _ | construct r _ _
  | isInstance r _ _ | isError r _ | isFunction r _ | isConstructor r _ | toBool r _ | toInt32 r _
  | toUInt32 r _ | toInt64 r _ | toFloat r _ | toBigInt64 r _ | toText r _ | evaluate r _ _ _
  | readJson r _ _ | writeJson r _ | copyBuffer r _ | lendBuffer r _ _ _
  | bufferRegion r _
  | viewInfo r _ => some r

/-- What the answer to a request is.  A value may be the sentinel, and what is absent was not
given, because something was thrown. -/
def Reply : Request → Type
  | openRealm | openBare _ => Option RealmId
  | closeRealm _ | retain _ _ | release _ _ | writeRegion _ _ _ | collect | shutDown => Unit
  | globalObject _ | takeException _ | newText _ _ | newBig _ _ | newObject _ | newArray _
  | newError _ | valueOfKey _ _ | textOfKey _ _ | get _ _ _ | getNamed _ _ _ | call _ _ _ _
  | construct _ _ _ | evaluate _ _ _ _ | readJson _ _ _ | writeJson _ _ | copyBuffer _ _
  | lendBuffer _ _ _ _ => Value
  | keyOfText _ _ | keyOfIndex _ _ => Key
  | keyOfValue _ _ => Option Key
  | set _ _ _ _ | has _ _ _ | hasOwn _ _ _ | delete _ _ _ | isInstance _ _ _ => Option Bool
  | ownKeys _ _ _ => Option (List Key)
  | isError _ _ | isFunction _ _ | isConstructor _ _ | toBool _ _ => Bool
  | toInt32 _ _ => Option Int32
  | toUInt32 _ _ => Option UInt32
  | toInt64 _ _ | toBigInt64 _ _ => Option Int64
  | toFloat _ _ => Option Float
  | toText _ _ => Option String
  | bufferRegion _ _ => Option Region
  | viewInfo _ _ => Option ViewInfo
  | readRegion _ _ _ => ByteArray
  | runJob => JobEnd

/-- The references that an answer gives to the host. -/
def given : (q : Request) → Reply q → List Ref
  | retain _ r, _ => r.counted
  | globalObject _, v | takeException _, v | newText _ _, v | newBig _ _, v | newObject _, v
  | newArray _, v | newError _, v | valueOfKey _ _, v | textOfKey _ _, v | get _ _ _, v
  | getNamed _ _ _, v | call _ _ _ _, v | construct _ _ _, v | evaluate _ _ _ _, v
  | readJson _ _ _, v | writeJson _ _, v | copyBuffer _ _, v | lendBuffer _ _ _ _, v =>
      Ref.ofValue v
  | keyOfText _ _, k | keyOfIndex _ _, k => Ref.ofKey k
  | keyOfValue _ _, k =>
    match k with
    | some k => Ref.ofKey k
    | none => []
  | ownKeys _ _ _, ks =>
    match ks with
    | some ks => ks.flatMap Ref.ofKey
    | none => []
  | viewInfo _ _, i =>
    match i with
    | some i => Ref.ofValue i.buffer
    | none => []
  -- All other answers are plain data.
  | _, _ => []

/-- The references that a request takes from the host. -/
def taken : Request → List Ref
  | release _ rs => rs.flatMap Ref.counted
  | set _ _ _ v => Ref.ofValue v
  | _ => []

/-- The references by which a request names things to the engine. -/
def uses : Request → List Ref
  | retain _ r => r.counted
  | release _ rs => rs.flatMap Ref.counted
  | keyOfValue _ v | getNamed _ v _ | ownKeys _ v _ | isError _ v | isFunction _ v
  | isConstructor _ v | toBool _ v | toInt32 _ v | toUInt32 _ v | toInt64 _ v | toFloat _ v
  | toBigInt64 _ v | toText _ v | writeJson _ v | bufferRegion _ v | viewInfo _ v => Ref.ofValue v
  | valueOfKey _ k | textOfKey _ k => Ref.ofKey k
  | get _ v k | has _ v k | hasOwn _ v k | delete _ v k => Ref.ofValue v ++ Ref.ofKey k
  | set _ t k v => Ref.ofValue t ++ Ref.ofKey k ++ Ref.ofValue v
  | call _ f this args => Ref.ofValue f ++ Ref.ofValue this ++ args.flatMap Ref.ofValue
  | construct _ f args => Ref.ofValue f ++ args.flatMap Ref.ofValue
  | isInstance _ v f => Ref.ofValue v ++ Ref.ofValue f
  | openRealm | openBare _ | closeRealm _ | globalObject _ | takeException _ | newText _ _
  | newBig _ _ | newObject _ | newArray _ | newError _ | keyOfText _ _ | keyOfIndex _ _
  | evaluate _ _ _ _ | readJson _ _ _ | copyBuffer _ _ | lendBuffer _ _ _ _ | readRegion _ _ _
  | writeRegion _ _ _ | runJob | collect | shutDown => []

end Request

/-! ## Engines -/

/-- What an engine says to a request, what becomes of it, and the tokens of lent memory that it
gave up on the way. -/
structure Response (q : Request) (σ : Type) where
  reply : q.Reply
  state : σ
  freed : List Token := []

/-- States of an engine that answers requests. -/
class Engine (σ : Type) where
  answer : (q : Request) → σ → Response q σ

end ScriptHost
