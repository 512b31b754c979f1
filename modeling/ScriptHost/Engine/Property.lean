import Std.Data.TreeMap
import ScriptHost.Engine.Value
/-!
# Properties

What an object keeps under a key, and the tables of keys.  Indices are kept in order; other keys
in the order in which they came.
-/

namespace ScriptHost

/-- What a property holds. -/
inductive Content where
  /-- A value, which may be replaced if `writable`. -/
  | data (value : Value) (writable : Bool)
  /-- Functions that are called to read and to write. -/
  | accessor (getter setter : Option Nat)
  /-- The prototype of a function, made when it is first looked at. -/
  | lazyPrototype
deriving DecidableEq, Inhabited

/-- A property of an object. -/
structure Property where
  content : Content
  enumerable : Bool := true
  configurable : Bool := true
deriving DecidableEq, Inhabited

namespace Property

/-- An ordinary property, as assignment makes it. -/
def plain (v : Value) : Property := ⟨.data v true, true, true⟩

/-- A property that enumeration passes over, as builtin members have. -/
def hidden (v : Value) : Property := ⟨.data v true, false, true⟩

/-- A property that cannot be changed or seen by enumeration. -/
def frozen (v : Value) : Property := ⟨.data v false, false, false⟩

/-- A property that only redefinition can change. -/
def fixedValue (v : Value) : Property := ⟨.data v false, false, true⟩

/-- Whether the value of a property may be replaced. -/
def isWritable (p : Property) : Bool :=
  match p.content with
  | .data _ w => w
  | .accessor _ _ => false
  | .lazyPrototype => true

/-- The value of a property that holds one. -/
def value? (p : Property) : Option Value :=
  match p.content with
  | .data v _ => some v
  | _ => none

end Property

/-- What a definition says about a property; what it leaves out stays as it was. -/
structure Descriptor where
  value : Option Value := none
  writable : Option Bool := none
  getter : Option (Option Nat) := none
  setter : Option (Option Nat) := none
  enumerable : Option Bool := none
  configurable : Option Bool := none
deriving Inhabited

namespace Descriptor

/-- Whether it speaks of functions to call. -/
def isAccessor (d : Descriptor) : Bool := d.getter.isSome || d.setter.isSome

/-- Whether it speaks of a value. -/
def isData (d : Descriptor) : Bool := d.value.isSome || d.writable.isSome

/-- Everything about a property. -/
def ofProperty (p : Property) : Descriptor :=
  let d : Descriptor := { enumerable := some p.enumerable, configurable := some p.configurable }
  match p.content with
  | .data v w => { d with value := some v, writable := some w }
  | .accessor g s => { d with getter := some g, setter := some s }
  | .lazyPrototype => { d with value := some .undefined, writable := some true }

/-- The property that a definition makes where there was none. -/
def toProperty (d : Descriptor) : Property :=
  let content := if d.isAccessor then .accessor (d.getter.getD none) (d.setter.getD none)
    else .data (d.value.getD .undefined) (d.writable.getD false)
  ⟨content, d.enumerable.getD false, d.configurable.getD false⟩

/-- The property after a definition that was allowed. -/
def applyTo (d : Descriptor) (p : Property) : Property :=
  let content := match p.content with
    | .data v w =>
      if d.isAccessor then .accessor (d.getter.getD none) (d.setter.getD none)
      else .data (d.value.getD v) (d.writable.getD w)
    | .accessor g s =>
      if d.isData then .data (d.value.getD .undefined) (d.writable.getD false)
      else .accessor (d.getter.getD g) (d.setter.getD s)
    | .lazyPrototype => .data (d.value.getD .undefined) (d.writable.getD true)
  ⟨content, d.enumerable.getD p.enumerable, d.configurable.getD p.configurable⟩

/-- Whether a definition may change a property that cannot be configured. -/
def allowedBy (d : Descriptor) (p : Property) : Bool :=
  p.configurable ||
    (d.configurable != some true && (d.enumerable.isNone || d.enumerable == some p.enumerable) &&
      match p.content with
      | .data v w =>
        !d.isAccessor && (w || (d.writable != some true &&
          match d.value with
          | none => true
          | some x => v.sameValue x))
      | .accessor g s =>
        !d.isData && (d.getter.isNone || d.getter == some g) &&
          (d.setter.isNone || d.setter == some s)
      | .lazyPrototype => !d.isAccessor)

/-- The definition of an ordinary property. -/
def plain (v : Value) : Descriptor :=
  { value := some v, writable := some true, enumerable := some true, configurable := some true }

end Descriptor

/-- The properties of an object. -/
structure PropertyTable where
  indices : Std.TreeMap Nat Property := {}
  /-- Names and symbols, in the order in which they came. -/
  members : Array (Key × Property) := #[]
deriving Inhabited

namespace PropertyTable

/-- The property under a key. -/
def get? (t : PropertyTable) : Key → Option Property
  | .index n => t.indices.get? n
  | k => (t.members.find? (·.1 == k)).map (·.2)

/-- The table with a property under a key; a new key comes last. -/
def put (t : PropertyTable) (k : Key) (p : Property) : PropertyTable :=
  match k with
  | .index n => { t with indices := t.indices.insert n p }
  | k =>
    match t.members.findIdx? (·.1 == k) with
    | some i => { t with members := t.members.setIfInBounds i (k, p) }
    | none => { t with members := t.members.push (k, p) }

/-- The table without a key. -/
def erase (t : PropertyTable) (k : Key) : PropertyTable :=
  match k with
  | .index n => { t with indices := t.indices.erase n }
  | k => { t with members := t.members.filter (·.1 != k) }

/-- The keys: indices in order, then names, then symbols, each in the order in which they came. -/
def keys (t : PropertyTable) : List Key :=
  t.indices.keys.map .index ++ (t.members.toList.map (·.1)).filter (!·.isSymbol) ++
    (t.members.toList.map (·.1)).filter (·.isSymbol)

/-- Every property. -/
def all (t : PropertyTable) : List Property :=
  t.indices.values ++ t.members.toList.map (·.2)

end PropertyTable

end ScriptHost
