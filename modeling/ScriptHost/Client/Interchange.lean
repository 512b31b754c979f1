import ScriptHost.Client.Builtins
import ScriptHost.Client.Operation
/-!
# Documents that travel as text

A document is handed to the engine as text and comes back as text.  Such a journey may change the order
of members.  It loses nothing of a document whose integers are numbers of double precision and whose
members have different keys, as long as nothing that its objects inherit says how they are written.
-/

namespace ScriptHost

namespace Document

/-- A document without reals whose integers are at most `2 ^ 53` in size and whose objects have each key
once. -/
inductive Portable : Document → Prop
  | null : Portable null
  | bool (b : Bool) : Portable (bool b)
  | integer {n : Int} (hn : n.natAbs ≤ 9007199254740992) : Portable (integer n)
  | string (s : String) : Portable (string s)
  | array {items : List Document} (hitems : ∀ d ∈ items, Portable d) : Portable (array items)
  | object {members : List (String × Document)} (hkeys : (members.map Prod.fst).Nodup)
      (hmembers : ∀ e ∈ members, Portable e.2) : Portable (object members)

/-- The second document is the first one with the members of objects in any order: the same if objects
are maps. -/
inductive Rearranges : Document → Document → Prop
  | null : Rearranges null null
  | bool (b : Bool) : Rearranges (bool b) (bool b)
  | integer (n : Int) : Rearranges (integer n) (integer n)
  | string (s : String) : Rearranges (string s) (string s)
  | array {pairs : List (Document × Document)} (hitems : ∀ p ∈ pairs, Rearranges p.1 p.2) :
      Rearranges (array (pairs.map Prod.fst)) (array (pairs.map Prod.snd))
  | object {pairs : List (String × Document × Document)} {members : List (String × Document)}
      (hmembers : ∀ p ∈ pairs, Rearranges p.2.1 p.2.2)
      (horder : members.Perm (pairs.map fun p => (p.1, p.2.2))) :
      Rearranges (object (pairs.map fun p => (p.1, p.2.1))) (object members)

mutual

/-- How deep arrays and objects are nested. -/
def nesting : Document → Nat
  | array items => nestingItems items + 1
  | object members => nestingMembers members + 1
  | _ => 0

/-- The deepest nesting of items. -/
def nestingItems : List Document → Nat
  | [] => 0
  | d :: ds => max (nesting d) (nestingItems ds)

/-- The deepest nesting of members. -/
def nestingMembers : List (String × Document) → Nat
  | [] => 0
  | (_, d) :: ms => max (nesting d) (nestingMembers ms)

end

end Document

/-- A walk along prototypes, from an object on if there is one, ends without a property with a key. -/
inductive Machine.Without (m : Machine) (k : Key) : Option Nat → Prop
  | ended : Without m k none
  | next {id : Nat} (hid : id < m.heap.size) (hproxy : m.NoProxy id) (hown : m.own? id k = none)
      (hrest : Without m k (m.obj id).proto) : Without m k (some id)

/-- There is room for one object more and then for a text of so many units. -/
def Machine.HasWritingRoom (m : Machine) (n : Nat) : Prop :=
  ∀ limit ∈ m.limits.memory, Eval.bytesInUse m + 64 + n ≤ limit ∧ m.textBytes + n ≤ limit

/-- A context is live and there is room for a call, and nothing that objects and arrays inherit in it
tells how they are written. -/
structure Host.Exchanges (s : Host ScriptEngine) (c : ContextId) (r : RealmId) : Prop where
  live : (Contexts.entry s.contexts c).realm = some r
  room : ∀ limit ∈ s.engine.machine.limits.stack, Eval.stackBytes ⟨.undefined, none, {}⟩ ≤ limit
  inherits : ∀ i ∈ [Intrinsic.objectPrototype, Intrinsic.arrayPrototype],
    s.engine.machine.Without (Key.str "toJSON")
      ((s.engine.machine.realms[r]?.getD {}).intrinsic? i)

end ScriptHost
