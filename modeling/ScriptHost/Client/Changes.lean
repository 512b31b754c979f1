import ScriptHost.Client.Builtins
/-!
# What changes when a property is written or deleted

What can be told of the properties of all objects between two moments, and which objects and keys
writing and deleting are told about.
-/

namespace ScriptHost

/-- What may be found in place of a property that nobody changed: the prototype of a function is made
when it is first looked at. -/
inductive Property.Settles (p : Property) : Property → Prop
  | same : Settles p p
  | made {id : Nat} (h : p.content = .lazyPrototype) :
      Settles p { p with content := .data (.object id) true }

/-- The object that a value is, if it is one. -/
def Value.objects (v : Value) : List Nat := v.objectId?.toList

namespace Machine

/-! ## Between two moments -/

/-- An object was freed meanwhile, or it shows memory that was given up with a buffer. -/
def Gone (m m' : Machine) (id : Nat) : Prop :=
  m'.body id = .freed ∨ ∃ t g i b, m.body id = .typed t ∧ t.region = some g ∧
    m.body i = .buffer b ∧ b.region = some g ∧ m'.body i = .freed

/-- Every object that there was and that is not gone has the own properties that it had, but for
some. -/
def SameBut (changed : Nat → Key → Prop) (m m' : Machine) : Prop :=
  ∀ id < m.heap.size, ¬m.Gone m' id → ∀ k, ¬changed id k →
    Option.Rel Property.Settles (m.own? id k) (m'.own? id k)

/-- Between two moments properties other than some were left alone, and of some objects that are in
use none was freed. -/
structure Keeps (inUse : List Nat) (changed : Nat → Key → Prop) (m m' : Machine) : Prop where
  same : m.SameBut changed m'
  alive : ∀ id ∈ inUse, m'.body id = .freed → m.body id = .freed

/-- No property. -/
def nowhere : Nat → Key → Prop := fun _ _ => False

/-- The property of one object under one key. -/
def place (id : Nat) (k : Key) : Nat → Key → Prop := fun j k' => j = id ∧ k' = k

/-! ## Objects that are written -/

/-- An object, no array, that is plain as its prototypes are, and with no functions to call under a
key anywhere along them. -/
structure Simple (m : Machine) (k : Key) (id : Nat) (ps : List Nat) : Prop where
  plain : m.IsPlain id
  noArray : m.body id ≠ .array
  descends : m.Descends id ps
  noAccessor : ∀ j ∈ id :: ps, ∀ p, (m.obj j).props.get? k = some p →
    ∀ getter setter, p.content ≠ .accessor getter setter

/-- What some objects, the first one first, have under a key is data, and no object. -/
def ShowsData (m : Machine) (k : Key) (ids : List Nat) : Prop :=
  ∀ p, m.firstProperty k ids = some p → ∃ v, p.value? = some v ∧ v.objectId? = none

/-- The type errors that the engine raises in a realm are told without running anything: what they
inherit under the keys that the host reads is data, and no object. -/
def TellsTypeErrors (m : Machine) (r : RealmId) : Prop :=
  ∀ p, (m.realms[r]?.getD {}).intrinsic? .typeErrorPrototype = some p →
    ∃ ps, m.IsPlain p ∧ m.Descends p ps ∧
      ∀ k ∈ [Key.str "name", Key.str "cause"], m.ShowsData k (p :: ps)

end Machine

end ScriptHost
