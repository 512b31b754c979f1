import ScriptHost.Host.Contexts
import ScriptHost.Host.Exchange
/-!
# What a client can ask of the host

A client works with items: values, keys, bound functions, and references that it took out of their
handles.  An operation may consume an item and may use others, and what it yields is either the
client's own or a view, which borrows.
-/

namespace ScriptHost

/-! ## References in handles -/

/-- The reference that the owner of a value has. -/
def Handle.refs (h : Handle) : List Ref := Ref.ofValue h.value

/-- The reference that the owner of a key has. -/
def KeyHandle.refs (k : KeyHandle) : List Ref := Ref.ofKey k.key

/-- The references that the owner of a bound function has. -/
def BoundFunction.refs (b : BoundFunction) : List Ref := b.handles.flatMap Handle.refs

/-- The contexts of a host by their names. -/
abbrev Contexts := Std.TreeMap ContextId Context

/-- The references in a table of references, of which some may be to things that are not counted. -/
def Ref.inTable (table : Array Ref) : List Ref := table.toList.flatMap Ref.counted

/-- The references that wait for the end of a context. -/
def Context.waiting (x : Context) : List Ref := Ref.inTable x.deferred

namespace Contexts

/-- The context under a name; a freed one if there is none. -/
def entry (X : Contexts) (c : ContextId) : Context := X[c]?.getD { realm := none }

/-- Whether a context is there and was not freed. -/
def isLive (X : Contexts) (c : ContextId) : Bool := (X.entry c).realm.isSome

/-- The references that wait for the ends of contexts. -/
def waiting (X : Contexts) : List Ref := X.toList.flatMap fun p => p.2.waiting

end Contexts

namespace Client

/-- Something that a client works with. -/
inductive Item where
  | value (h : Handle)
  | key (k : KeyHandle)
  | bound (b : BoundFunction)
  /-- A reference that was taken out of its handle. -/
  | bare (r : Ref)
deriving DecidableEq, Inhabited

namespace Item

/-- The references of an item, by the contexts in which they are given back.  A bare reference is
given back in none. -/
def parts : Item → List (ContextId × List Ref)
  | value h => [(h.context, h.refs)]
  | key k => [(k.context, k.refs)]
  | bound b => b.handles.map fun h => (h.context, h.refs)
  | bare _ => []

/-- The references that the owner of an item has. -/
def refs : Item → List Ref
  | bare r => r.counted
  | i => i.parts.flatMap (·.2)

/-- Whether an item belongs to a context. -/
def isOf (c : ContextId) (i : Item) : Bool := i.parts.any (·.1 == c)

end Item

/-! ## Kinds of operations -/

/-- A value that is made of what the caller tells. -/
inductive Maker where
  | null | undefined | uninitialized | exception
  | bool (b : Bool)
  | int32 (n : Int32)
  | uint32 (n : UInt32)
  | int64 (n : Int64)
  | bigInt64 (n : Int64)
  | bigUInt64 (n : UInt64)
  | bigInt (n : Int)
  | float (d : Float)
  | string (s : String)
  | symbol
  | object | array | map | set | weakMap | weakSet
  | error (message : String)
  | arrayBuffer (bytes : ByteArray)
  | sharedBuffer (bytes : ByteArray)
  | typedArray (kind : ElementKind) (length : UInt32)
  | typedArrayOf (kind : ElementKind) (bytes : ByteArray)
  | parseJson (text : String)
  | serialize (data : HostData)
  | eval (source : String)
  | evalAsync (source : String)
  | evalWith (source file : String) (mode : EvalMode)

/-- A value that is got from others. -/
inductive Getter where
  | dupe (h : Handle)
  | symbolOf (c : ContextId) (description : Handle)
  | typedArrayOver (c : ContextId) (kind : ElementKind) (buffer : Handle)
  | keyValue (k : KeyHandle)
  | get (h : Handle) (name : PropertyName)
  | call (f : Handle) (this : Option Handle) (args : List Handle)
  | construct (f : Handle) (args : List Handle)
  | callMethod (h : Handle) (name : String) (args : List Handle)
  | callBound (b : BoundFunction) (args : List Handle)
  /-- The buffer that a typed array looks at. -/
  | bufferOf (h : Handle)

/-- A key. -/
inductive KeyMaker where
  | text (c : ContextId) (s : String)
  | index (c : ContextId) (n : UInt32)
  | ofValue (h : Handle)
  | dupe (k : KeyHandle)

/-- A question about a value, or something that is done to it and yields nothing. -/
inductive Question where
  | isError | isFunction | isConstructor | typeName | diagnostic | record
  | isArray | isMap | isSet | isWeakMap | isWeakSet | isArrayBuffer | elementKind
  | isTypedArray (kind : ElementKind)
  | length | isEmpty | keys | toJson | bytes
  | toBool | toInt32 | toUInt32 | toInt64 | toFloat | toBigInt64 | toBigInt | toText
  | deserialize (schema : Schema)
  | isInstance (constructor : Handle)
  | has (name : PropertyName)
  | delete (name : PropertyName)
  /-- Writes into the memory that the value looks at. -/
  | write (start : Nat) (data : ByteArray)

/-- Something that a client asks of the host. -/
inductive Operation where
  | make (c : ContextId) (m : Maker)
  | get (g : Getter)
  | key (k : KeyMaker)
  | ownKeys (h : Handle) (filter : KeyFilter)
  | bind (f : Handle) (this : Option Handle) (leading : List Handle)
  | ask (h : Handle) (q : Question)
  | keyText (k : KeyHandle)
  | keyDiagnostic (k : KeyHandle)
  | boundDiagnostic (b : BoundFunction)
  /-- Writes a property; the value is consumed. -/
  | set (h : Handle) (name : PropertyName) (v : Handle)
  | drop (i : Item)
  | keepToEnd (h : Handle)
  | keepKeyToEnd (k : KeyHandle)
  /-- Takes the reference out of a value. -/
  | bareValue (h : Handle)
  /-- Takes the reference out of a key. -/
  | bareKey (k : KeyHandle)
  | global (c : ContextId)
  | runJobs (c : ContextId)
  | runGc
  | openContext (c : ContextId)
  | openBare (c : ContextId) (features : Option (List Feature))
  | freeContext (c : ContextId)
  | dropContext (c : ContextId)

/-! ## Carrying operations out -/

/-- What an operation yields: items for the client to own, and views. -/
structure Yield where
  owned : List Item := []
  views : List Item := []

variable {σ : Type} [Engine σ]

/-- Makes a value. -/
def Maker.run (c : ContextId) : Maker → Action σ Handle
  | null => pure (Host.newNull c)
  | undefined => pure (Host.newUndefined c)
  | uninitialized => pure (Host.newUninitialized c)
  | exception => pure (Host.newException c)
  | bool b => pure (Host.newBool c b)
  | int32 n => pure (Host.newInt32 c n)
  | uint32 n => Host.newUInt32 c n
  | int64 n => Host.newInt64 c n
  | bigInt64 n => Host.newBigInt64 c n
  | bigUInt64 n => Host.newBigUInt64 c n
  | bigInt n => Host.newBigInt c n
  | float d => pure (Host.newFloat c d)
  | string s => Host.newString c s
  | symbol => Host.newSymbol c none
  | object => Host.newObject c
  | array => Host.newArray c
  | map => Host.newMap c
  | set => Host.newSet c
  | weakMap => Host.newWeakMap c
  | weakSet => Host.newWeakSet c
  | error m => Host.newError c m
  | arrayBuffer b => Host.newArrayBuffer c b
  | sharedBuffer b => Host.newSharedBuffer c b
  | typedArray k n => Host.newTypedArray c k n
  | typedArrayOf k b => Host.newTypedArrayOf c k b
  | parseJson s => Host.parseJson c s
  | serialize d => Host.serialize c d
  | eval s => Host.eval c s
  | evalAsync s => Host.evalAsync c s
  | evalWith s file mode => Host.evalWith c s file mode

/-- Gets a value. -/
def Getter.run : Getter → Action σ Handle
  | dupe h => Host.dupe h
  | symbolOf c d => Host.newSymbol c (some d)
  | typedArrayOver c k b => Host.newTypedArrayOver c k b
  | keyValue k => Host.keyValue k
  | get h n => Host.get h n
  | call f this args => Host.call f this args
  | construct f args => Host.construct f args
  | callMethod h name args => Host.callMethod h name args
  | callBound b args => Host.callBound b args
  | bufferOf h => do pure (← Host.arrayInfo h).buffer

/-- Makes a key. -/
def KeyMaker.run : KeyMaker → Action σ KeyHandle
  | text c s => Host.newKey c s
  | index c n => Host.newIndexKey c n
  | ofValue h => Host.toKey h
  | dupe k => Host.dupeKey k

/-- Asks about a value; what the answer is does not matter here. -/
def Question.run (h : Handle) : Question → Action σ Unit
  | isError => discard (Host.isError h)
  | isFunction => discard (Host.isFunction h)
  | isConstructor => discard (Host.isConstructor h)
  | typeName => discard (Host.typeName h)
  | diagnostic => discard (Host.diagnostic h)
  | record => discard (Host.errorRecord? h)
  | isArray => discard (Host.isArray h)
  | isMap => discard (Host.isMap h)
  | isSet => discard (Host.isSet h)
  | isWeakMap => discard (Host.isWeakMap h)
  | isWeakSet => discard (Host.isWeakSet h)
  | isArrayBuffer => discard (Host.isArrayBuffer h)
  | elementKind => discard (Host.elementKind? h)
  | isTypedArray k => discard (Host.isTypedArray h k)
  | length => discard (Host.length h)
  | isEmpty => discard (Host.isEmpty h)
  | keys => discard (Host.keys h)
  | toJson => discard (Host.toJson h)
  | bytes => discard (Host.toByteArray h)
  | toBool => discard (Host.toBool h)
  | toInt32 => discard (Host.toInt32 h)
  | toUInt32 => discard (Host.toUInt32 h)
  | toInt64 => discard (Host.toInt64 h)
  | toFloat => discard (Host.toFloat h)
  | toBigInt64 => discard (Host.toBigInt64 h)
  | toBigInt => discard (Host.toBigInt h)
  | toText => discard (Host.toText h)
  | deserialize s => discard (Host.deserialize h s)
  | isInstance f => discard (Host.isInstance h f.value)
  | has n => discard (Host.has h n)
  | delete n => discard (Host.delete h n)
  | write start data => do Host.writeView (← Host.byteView h) start data

/-- Gives back everything that an item holds; a bare reference is out of reach. -/
def Item.drop : Item → Action σ Unit
  | value h => Host.drop h
  | key k => Host.dropKey k
  | bound b => Host.dropBound b
  | bare _ => pure ()

/-- Carries an operation out. -/
def Operation.run : Operation → Action σ Yield
  | make c m => do pure { owned := [.value (← m.run c)] }
  | get g => do pure { owned := [.value (← g.run)] }
  | key k => do pure { owned := [.key (← k.run)] }
  | ownKeys h f => do pure { owned := (← Host.ownKeys h f).map .key }
  | bind f this leading => do pure { owned := [.bound (← Host.bind f this leading)] }
  | ask h q => do q.run h; pure {}
  | keyText k => do discard (Host.keyText k); pure {}
  | keyDiagnostic k => do discard (Host.keyDiagnostic k); pure {}
  | boundDiagnostic b => do discard (Host.boundDiagnostic b); pure {}
  | set h n v => do Host.set h n v; pure {}
  | drop i => do i.drop; pure {}
  | keepToEnd h => do pure { views := [.value (← Host.keepToEnd h)] }
  | keepKeyToEnd k => do pure { views := [.key (← Host.keepKeyToEnd k)] }
  | bareValue h => pure { owned := [.bare (.value h.value)] }
  | bareKey k => pure { owned := [.bare (.key k.key)] }
  | global c => do pure { views := [.value (← Host.globalOf c)] }
  | runJobs c => do discard (Host.runPendingJobs c); pure {}
  | runGc => do Host.runGc; pure {}
  | openContext c => do Host.newContext c; pure {}
  | openBare c features => do Host.newBareContext c features; pure {}
  | freeContext c => do Host.freeContext c; pure {}
  | dropContext c => do Host.dropContext c; pure {}

/-! ## What an operation needs -/

/-- The key by which a property is named, if it is. -/
def nameItems : PropertyName → List Item
  | .key k => [.key k]
  | .text _ | .index _ => []

/-- The item that an operation consumes. -/
def Operation.consumed : Operation → Option Item
  | set _ _ v => some (.value v)
  | drop i => match i with
    | .bare _ => none
    | i => some i
  | keepToEnd h | bareValue h => some (.value h)
  | keepKeyToEnd k | bareKey k => some (.key k)
  | _ => none

/-- The items that an operation borrows, each with the context in which it is used. -/
def Getter.uses : Getter → List (ContextId × Item)
  | dupe h | bufferOf h => [(h.context, .value h)]
  | symbolOf c h | typedArrayOver c _ h => [(c, .value h)]
  | keyValue k => [(k.context, .key k)]
  | get h n => (.value h :: nameItems n).map (h.context, ·)
  | call f this args => (f :: this.toList ++ args).map fun h => (f.context, .value h)
  | construct f args => (f :: args).map fun h => (f.context, .value h)
  | callMethod f _ args => (f :: args).map fun h => (f.context, .value h)
  | callBound b args => (.bound b :: args.map .value).map (b.func.context, ·)

/-- The items that a key is made of. -/
def KeyMaker.uses : KeyMaker → List (ContextId × Item)
  | text _ _ | index _ _ => []
  | ofValue h => [(h.context, .value h)]
  | dupe k => [(k.context, .key k)]

/-- The items that a question borrows beside the value that it is about. -/
def Question.items : Question → List Item
  | isInstance f => [.value f]
  | has n | delete n => nameItems n
  | _ => []

/-- The items that an operation borrows, each with the context in which it is used. -/
def Operation.uses : Operation → List (ContextId × Item)
  | get g => g.uses
  | key k => k.uses
  | ownKeys h _ => [(h.context, .value h)]
  | bind f this leading => (f :: this.toList ++ leading).map fun h => (h.context, .value h)
  | ask h q => (.value h :: q.items).map (h.context, ·)
  | keyText k | keyDiagnostic k => [(k.context, .key k)]
  | boundDiagnostic b => [(b.func.context, .bound b)]
  | set h n _ => (.value h :: nameItems n).map (h.context, ·)
  | _ => []

/-- The context in which an operation lends memory. -/
def Operation.lends? : Operation → Option ContextId
  | make c (.sharedBuffer _) => some c
  | _ => none

/-- The context that an operation makes. -/
def Operation.opened? : Operation → Option ContextId
  | openContext c | openBare c _ => some c
  | _ => none

/-- The context that an operation ends. -/
def Operation.closed? : Operation → Option ContextId
  | freeContext c | dropContext c => some c
  | _ => none

end Client

end ScriptHost
