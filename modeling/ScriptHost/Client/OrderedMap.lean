import ScriptHost.Engine.Answer
import ScriptHost.Host.Properties
/-!
# Ordered maps, and objects used as such

An ordered map keeps its keys in the order in which they came.  A client can use an object as one,
with texts and symbols for keys, and has several ways of saying which key it means.  This file tells
what the map answers and what the client does to the object.
-/

namespace ScriptHost

/-! ## Ordered maps -/

/-- A finite map, the oldest key first. -/
abbrev OrderedMap (α β : Type) := List (α × β)

namespace OrderedMap

variable {α β : Type} [DecidableEq α]

/-- The map with a value under a key.  A new key comes last, an old one keeps its place. -/
def set (m : OrderedMap α β) (a : α) (b : β) : OrderedMap α β :=
  if (m.lookup a).isSome then m.map fun e => if e.1 = a then (a, b) else e else m ++ [(a, b)]

/-- The map without a key. -/
def erase (m : OrderedMap α β) (a : α) : OrderedMap α β := m.filter (·.1 ≠ a)

end OrderedMap

/-! ## What properties are called -/

/-- What a property is called. -/
inductive Label where
  | text (t : Text)
  | symbol (id : Nat)
deriving DecidableEq, Inhabited

namespace Label

/-- The text, if it is one. -/
def text? : Label → Option Text
  | text t => some t
  | symbol _ => none

/-- What a key stands for. -/
def ofKey : Key → Label
  | .index n => text (Key.natText n)
  | .name t => text t
  | .symbol id => symbol id
  | .null => text Text.empty

/-- What a value stands for when it is made a key, if it takes no script to tell. -/
def ofValue? : Value → Option Label
  | .undefined => some (text (txt "undefined"))
  | .null => some (text (txt "null"))
  | .bool b => some (text (txt (if b then "true" else "false")))
  | .int n => some (text (.ofString (toString n.toInt)))
  | .float d => some (text (.ofString (NumberText.ofFloat d)))
  | .string t => some (text t)
  | .symbol id => some (symbol id)
  | .bigint n => some (text (.ofString (toString n)))
  | .object _ | .uninitialized | .exception => none

/-- The value for what a property is called: a number if it writes one that is small enough. -/
def toValue : Label → Value
  | .text t => (Key.ofText t).handleIndex?.elim (.string t) fun n => .int (Int32.ofInt n)
  | .symbol id => .symbol id

end Label

namespace OrderedMap

variable {β : Type}

/-- The texts among the keys, the oldest first. -/
def texts (m : OrderedMap Label β) : List Text := m.filterMap fun e => e.1.text?

/-- The number below `2 ^ 32 - 1` that a text writes in canonical decimal form. -/
def decimal? (t : Text) : Option Nat :=
  if t.digitsValue < twoTo 32 - 1 ∧ t = Key.natText t.digitsValue then some t.digitsValue else none

/-- The texts among the keys as they are listed: numbers in order, then the others, the oldest
first. -/
def listing (m : OrderedMap Label β) : List Text :=
  (m.texts.filterMap decimal?).mergeSort.map Key.natText ++
    m.texts.filter fun t => (decimal? t).isNone

end OrderedMap

/-! ## Ways to say which property is meant -/

/-- A key that was made for what a property is called, in any context and at any time. -/
inductive KeyHandle.Made : KeyHandle → Label → Prop where
  | ofText {c : ContextId} {s : String} {k : KeyHandle} (h : Host ScriptEngine) :
      (Host.newKey c s h).1 = .ok k → Made k (.text (.ofString s))
  | ofIndex {c : ContextId} {n : UInt32} {k : KeyHandle} (h : Host ScriptEngine) :
      (Host.newIndexKey c n h).1 = .ok k → Made k (.text (Key.natText n.toNat))
  | ofValue {v : Handle} {k : KeyHandle} (h : Host ScriptEngine) :
      (Host.toKey v h).1 = .ok k → Made k ((Label.ofValue? v.value).getD (.ofKey k.key))

/-- A key that a client was given for what a property is called, in any context and at any time. -/
inductive KeyHandle.Given : KeyHandle → Label → Prop where
  | made {k : KeyHandle} {l : Label} (hk : k.Made l) : Given k l
  | listed {h : Handle} {f : KeyFilter} {ks : List KeyHandle} {k : KeyHandle}
      (s : Host ScriptEngine) (hks : (Host.ownKeys h f s).1 = .ok ks) (hk : k ∈ ks) :
      Given k (.ofKey k.key)
  | duped {k k' : KeyHandle} {l : Label} (s : Host ScriptEngine) (hk : Given k l)
      (hk' : (Host.dupeKey k s).1 = .ok k') : Given k' l
  | kept {k k' : KeyHandle} {l : Label} (s : Host ScriptEngine) (hk : Given k l)
      (hk' : (Host.keepKeyToEnd k s).1 = .ok k') : Given k' l

namespace Client

/-- A way to have a key made that takes no script. -/
inductive KeySource : Label → Type where
  | text (s : String) : KeySource (.text (.ofString s))
  | index (n : UInt32) : KeySource (.text (Key.natText n.toNat))
  | value {l : Label} (v : Value) (hv : Label.ofValue? v = some l) : KeySource l

/-- Has the key made in a context. -/
def KeySource.run {l : Label} (c : ContextId) : KeySource l → Action ScriptEngine KeyHandle
  | text s => Host.newKey c s
  | index n => Host.newIndexKey c n
  | value v _ => Host.toKey ⟨c, v⟩

/-- A way to say which property is meant. -/
inductive Path : Label → Type where
  | text (s : String) : Path (.text (.ofString s))
  | index (n : Nat) (hn : n ≤ maxIndex) : Path (.text (Key.natText n))
  | key {l : Label} (k : KeyHandle) (hk : k.Made l) : Path l

/-- The name that is handed to the host. -/
def Path.name {l : Label} : Path l → PropertyName
  | text s => .text s
  | index n _ => .index n
  | key k _ => .key k

/-! ## Accesses -/

/-- Something that a client does with the properties of an object, or to be able to name them. -/
inductive Access where
  | get {l : Label} (p : Path l)
  | set {l : Label} (p : Path l) (v : Handle) (hv : v.value ≠ .exception ∧ v.value ≠ .uninitialized)
  | has {l : Label} (p : Path l)
  | delete {l : Label} (p : Path l)
  | keys
  | makeKey {l : Label} (k : KeySource l)

namespace Access

/-- What the client is told. -/
inductive Answer where
  | value (v : Value)
  | flag (b : Bool)
  | texts (l : List String)
  | label (l : Label)
  | done
deriving DecidableEq

/-- What the property is called, if one is meant. -/
def label? : Access → Option Label
  | get (l := l) _ | set (l := l) _ _ _ | has (l := l) _ | delete (l := l) _ => some l
  | keys | makeKey _ => none

/-- What the client does.  A value that it writes is passed on; of the object itself it passes a
second reference on, since it goes on using the object. -/
def run (h : Handle) : Access → Action ScriptEngine Answer
  | get p => do pure (.value (← Host.get h p.name).value)
  | set p v _ => do
    Host.set h p.name (← if v.value = h.value then Host.dupe h else pure v)
    pure .done
  | has p => do pure (.flag (← Host.has h p.name))
  | delete p => do pure (.flag (← Host.delete h p.name))
  | keys => do pure (.texts (← Host.keys h))
  | makeKey k => do pure (.label (.ofKey (← k.run h.context).key))

/-- What a map answers, and the map after that. -/
def step (m : OrderedMap Label Value) : Access → Answer × OrderedMap Label Value
  | get (l := l) _ => (.value ((m.lookup l).getD .undefined), m)
  | set (l := l) _ v _ => (.done, m.set l v.value)
  | has (l := l) _ => (.flag (m.lookup l).isSome, m)
  | delete (l := l) _ => (.flag (m.lookup l).isSome, m.erase l)
  | keys => (.texts (m.listing.map Text.toHostString), m)
  | makeKey (l := l) _ => (.label l, m)

/-- The map after accesses, one after the other. -/
def after (m : OrderedMap Label Value) (as : List Access) : OrderedMap Label Value :=
  as.foldl (fun m a => (a.step m).2) m

/-- What a map answers, one access after the other. -/
def answers (m : OrderedMap Label Value) : List Access → List Answer
  | [] => []
  | a :: as => (a.step m).1 :: answers (a.step m).2 as

end Access

end Client

end ScriptHost
