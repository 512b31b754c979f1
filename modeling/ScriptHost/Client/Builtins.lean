import ScriptHost.Engine.Answer
import ScriptHost.Host.State
/-!
# Built-in objects that nobody changed

What a host relies on when it asks the engine what a value is: the constructors that a context looked
up, the objects that their instances inherit from, and the functions found there.  All of this is
told by the prototypes of objects and by the first property found along them, so it holds of a
context in which scripts changed other things as they liked.
-/

namespace ScriptHost

/-! ## Looking along prototypes -/

/-- Whether the properties of an object are just those in its table, and stay so when other objects
are freed. -/
def Body.isPlain : Body → Bool
  | .proxy _ _ _ _ | .string _ | .typed _ | .arguments _ | .module _ | .weakMap _ | .weakSet _
  | .weakRef _ | .registry _ _ _ | .freed => false
  | _ => true

namespace Machine

variable (m : Machine)

/-- An object whose properties are just those in its table. -/
def IsPlain (id : Nat) : Prop := id < m.heap.size ∧ (m.body id).isPlain = true

instance (id : Nat) : Decidable (m.IsPlain id) := inferInstanceAs (Decidable (_ ∧ _))

/-- The prototypes of an object, the nearest first, are these, all of them plain. -/
def Descends : Nat → List Nat → Prop
  | id, [] => (m.obj id).proto = none
  | id, p :: ps => (m.obj id).proto = some p ∧ m.IsPlain p ∧ Descends p ps

/-- What the first of some objects that has a property with a key has there. -/
def firstProperty (k : Key) (ids : List Nat) : Option Property :=
  ids.findSome? fun id => (m.obj id).props.get? k

/-- An object is a function of a realm that the engine supplies. -/
def Performs (r : RealmId) (run : NativeCall → Eval Value) (f : Nat) : Prop :=
  ∃ ref n, m.body f = .native ref r ∧ Builtin.supply ref.family ref.index = some n ∧ n.run = run

/-- A constructor that the engine supplies.  What it makes inherits from an object, and what inherits
from that counts as its instance. -/
structure Makes (f p : Nat) : Prop where
  plain : m.IsPlain f
  native : ∃ ref r, m.body f = .native ref r
  prototype : ((m.obj f).props.get? (Key.str "prototype")).bind Property.value? = some (.object p)
  judge : ∃ ps g r, m.Descends f ps ∧
    (m.firstProperty (.symbol WellKnown.hasInstance) (f :: ps)).bind Property.value? =
      some (.object g) ∧ m.Performs r Builtin.hasInstance g

end Machine

/-! ## What a context relies on -/

namespace Cache

variable (x : Cache)

/-- The constructors that a context looked up and asks what values are instances of, each with what
its instances inherit from. -/
def makers : List (Value × Intrinsic) :=
  [(x.array, .arrayPrototype), (x.map, .mapPrototype), (x.set, .setPrototype),
    (x.buffer, .bufferPrototype)] ++
  ElementKind.all.map fun k => (x.elements k, .elementPrototype k)

/-- The objects among these constructors. -/
def objects : List Nat := x.makers.filterMap fun f => f.1.objectId?

end Cache

namespace Machine

variable (m : Machine) (x : Cache) (proto : Intrinsic → Nat)

/-- An object that is an instance of one constructor that a context looked up, and of no other. -/
def InstanceOf (i : Intrinsic) (id : Nat) : Prop :=
  ∃ ps, m.Descends id ps ∧ ∀ f j, (.object f, j) ∈ x.makers → (proto j ∈ ps ↔ j = i)

/-- What inherits from a built-in object is an instance of one constructor only, and has a property
that the engine finds out when it is read. -/
structure Furnishes (r : RealmId) (i : Intrinsic) (k : Key) (run : NativeCall → Eval Value) :
    Prop where
  plain : m.IsPlain (proto i)
  ancestors : ∃ ps, m.Descends (proto i) ps ∧ (∀ f j, (.object f, j) ∈ x.makers → proto j ∉ ps) ∧
    ∃ g s, (m.firstProperty k (proto i :: ps)).map Property.content = some (.accessor (some g) s) ∧
      m.Performs r run g

/-- The built-in objects that a context relies on when it is asked about buffers and typed arrays are
as the engine made them. -/
structure Untouched (r : RealmId) : Prop where
  realm : ∃ realm, m.realms[r]? = some realm ∧ realm.isAlive = true ∧
    realm.intrinsic? .bufferPrototype = some (proto .bufferPrototype) ∧
    realm.intrinsic? .rangeErrorPrototype = some (proto .rangeErrorPrototype)
  makes : ∀ f i, (.object f, i) ∈ x.makers → m.Makes f (proto i)
  distinct : ∀ f g i j, (.object f, i) ∈ x.makers → (.object g, j) ∈ x.makers →
    proto i = proto j → i = j
  buffers : x.buffer.isObject = true ∧ x.byteLength = Key.str "byteLength" ∧
    m.Furnishes x proto r .bufferPrototype x.byteLength (Builtin.byteLength false)
  elements : ∀ f k, x.elements k = .object f → m.Performs r (Builtin.elementConstructor k) f ∧
    m.constructs (.object f) = true ∧ x.length = Key.str "length" ∧
    m.Furnishes x proto r (.elementPrototype k) x.length Builtin.elementCount
  rangeErrors : m.IsPlain (proto .rangeErrorPrototype) ∧
    ∃ ps, m.Descends (proto .rangeErrorPrototype) ps ∧
      (m.firstProperty (Key.str "name") (proto .rangeErrorPrototype :: ps)).bind Property.value? =
        some (.str "RangeError")

/-- The built-in objects of a context are untouched, and there is room for a call. -/
structure Serves (r : RealmId) : Prop where
  untouched : m.Untouched x proto r
  room : ∀ limit ∈ m.limits.stack, Eval.stackBytes ⟨.undefined, none, {}⟩ ≤ limit

/-- An object that is no proxy. -/
def NoProxy (id : Nat) : Prop := ∀ t h c b, m.body id ≠ .proxy t h c b

/-- An object of which a context knows what it is an instance of. -/
structure Knows (i : Intrinsic) (id : Nat) : Prop where
  instance_of : m.InstanceOf x proto i id
  no_proxy : m.NoProxy id

/-- There is room for more bytes. -/
def HasRoom (n : Nat) : Prop :=
  ∀ limit ∈ m.limits.memory,
    Eval.bytesInUse m + n ≤ limit ∨ Eval.bytesInUse (Eval.countProperties m) + n ≤ limit

/-- There is room for a text of so many units, at most after everything was counted anew. -/
def HasTextRoom (n : Nat) : Prop :=
  m.HasRoom n ∧ ∀ limit ∈ m.limits.memory, m.textBytes + n ≤ limit ∨
    Eval.bytesInUse (Eval.countProperties m) + (Eval.countTexts m).textBytes + n ≤ limit

/-- A buffer of so many bytes, which cannot be resized, with memory of its own. -/
structure IsBuffer (b g n : Nat) : Prop where
  body : ∃ token, m.body b = .buffer { region := some g, length := n, token := token }
  sole : ∀ id b', m.body id = .buffer b' → b'.region = some g → id = b

/-- A buffer of so many bytes, none if its memory was taken away, that inherits what buffers do and
has no other size of its own. -/
structure IsSized (b n : Nat) : Prop where
  body : ∃ buffer, m.body b = .buffer buffer ∧ buffer.shared = false ∧ buffer.length = n
  proto : (m.obj b).proto = some (proto .bufferPrototype)
  own : (m.obj b).props.get? x.byteLength = none

/-- A typed array that looks at whole elements of a buffer of so many bytes. -/
structure IsView (b g n : Nat) (v : TypedView) (t : Nat) : Prop where
  body : m.body t = .typed v
  buffer : v.buffer = b
  region : v.region = some g
  tracks : v.tracks = false
  within : v.offset + v.length ≤ n
  count : v.length = v.count * v.kind.size

end Machine

namespace ScriptEngine

/-- An engine in which a context has the built-in objects that it looked up, as they were made, and in
which there is room for a call. -/
structure Ready (e : ScriptEngine) (r : RealmId) (x : Cache) (proto : Intrinsic → Nat) :
    Prop where
  serves : e.machine.Serves x proto r
  held : ∀ id ∈ x.objects, 0 < e.ledger.count (.value (.object id))
  /-- The memory of buffers is there. -/
  regions : ∀ id b g, e.machine.body id = .buffer b → b.region = some g → g < e.machine.regions.size

/-- A buffer of so many bytes can be made. -/
def CanAllocate (e : ScriptEngine) (n : Nat) : Prop :=
  n ≤ Builtin.bufferLimit ∧ e.machine.HasRoom n

end ScriptEngine

end ScriptHost
