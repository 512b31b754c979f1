import Std.Data.TreeMap
import ScriptHost.Client.Builtins
import ScriptHost.Client.Operation
import ScriptHost.Host.Collections
/-!
# Arrays that are filled by index

A client makes an array, sets and deletes items by index, in any order and as far apart as it likes, and
asks what there is.  This file tells what a sparse array answers, what the client does to the array of
the engine, and what it relies on: that the constructor of arrays judges by prototypes, and that
these have no items of their own.
-/

namespace ScriptHost

/-! ## Sparse arrays -/

/-- Items at some indices, and a length that is beyond all of them. -/
structure SparseArray (α : Type) where
  items : Std.TreeMap Nat α
  length : Nat
  within : ∀ i ∈ items, i < length

namespace SparseArray

variable {α : Type}

/-- The array without items. -/
def empty : SparseArray α where
  items := {}
  length := 0
  within _ hi := absurd hi Std.TreeMap.not_mem_emptyc

/-- The array with an item at an index.  It grows to have room for the item. -/
def set (a : SparseArray α) (i : Nat) (x : α) : SparseArray α where
  items := a.items.insert i x
  length := max a.length (i + 1)
  within j hj := by
    rcases Std.TreeMap.mem_insert.1 hj with heq | hold
    · have hij : i = j := Nat.compare_eq_eq.1 heq
      omega
    · have hlt := a.within j hold
      omega

/-- The array without an item at an index.  It does not shrink. -/
def erase (a : SparseArray α) (i : Nat) : SparseArray α where
  items := a.items.erase i
  length := a.length
  within j hj := a.within j (Std.TreeMap.mem_of_mem_erase hj)

end SparseArray

/-- A value that can be written: neither of the two that stand for none. -/
abbrev Storable := { v : Value // v ≠ .exception ∧ v ≠ .uninitialized }

/-- An index by which an item can be named. -/
abbrev ItemIndex := { i : Nat // (i : Int) ≤ maxIndex }

/-! ## Accesses -/

namespace Client

/-- Something that a client does with the items of an array. -/
inductive ItemAccess where
  | set (i : ItemIndex) (v : Storable)
  | delete (i : ItemIndex)
  | get (i : ItemIndex)
  | has (i : ItemIndex)
  | length
  | isEmpty
  | keys

namespace ItemAccess

/-- What the client is told. -/
inductive Answer where
  | value (v : Value)
  | flag (b : Bool)
  | count (n : Nat)
  | texts (l : List String)
  | done
deriving DecidableEq

/-- What the client does.  It goes on using what it writes, so it passes a second reference on. -/
def run (h : Handle) : ItemAccess → Action ScriptEngine Answer
  | set i v => do
    Host.set h (.index i.1) (← Host.dupe ⟨h.context, v.1⟩)
    pure .done
  | delete i => do pure (.flag (← Host.delete h (.index i.1)))
  | get i => do pure (.value (← Host.get h (.index i.1)).value)
  | has i => do pure (.flag (← Host.has h (.index i.1)))
  | length => do pure (.count (← Host.length h))
  | isEmpty => do pure (.flag (← Host.isEmpty h))
  | keys => do pure (.texts (← Host.keys h))

/-- What a sparse array answers, and the array after that. -/
def step (a : SparseArray Storable) : ItemAccess → Answer × SparseArray Storable
  | set i v => (.done, a.set i.1 v)
  | delete i => (.flag (a.items[i.1]?).isSome, a.erase i.1)
  | get i => (.value ((a.items[i.1]?).elim .undefined (·.1)), a)
  | has i => (.flag (a.items[i.1]?).isSome, a)
  | length => (.count a.length, a)
  | isEmpty => (.flag (a.length == 0), a)
  | keys => (.texts (a.items.keys.map fun i => (Key.natText i).toHostString), a)

/-- The array after accesses, one after the other. -/
def after (a : SparseArray Storable) (xs : List ItemAccess) : SparseArray Storable :=
  xs.foldl (fun a x => (x.step a).2) a

/-- What a sparse array answers, one access after the other. -/
def answers (a : SparseArray Storable) : List ItemAccess → List Answer
  | [] => []
  | x :: xs => (x.step a).1 :: answers (x.step a).2 xs

/-! ## What accesses leave behind -/

/-- What the access leaves at an index, an item or none, if it changes anything there. -/
def leaves (i : Nat) : ItemAccess → Option (Option Storable)
  | set j v => if j.1 = i then some (some v) else none
  | delete j => if j.1 = i then some none else none
  | get _ | has _ | length | isEmpty | keys => none

/-- What was set at an index last, if it was not deleted since. -/
def standing (xs : List ItemAccess) (i : Nat) : Option Storable :=
  (xs.reverse.findSome? (leaves i)).join

/-- One more than the index that is set, if one is. -/
def extent : ItemAccess → Nat
  | set i _ => i.1 + 1
  | delete _ | get _ | has _ | length | isEmpty | keys => 0

/-- One more than the largest index that was set, if one was. -/
def reach (xs : List ItemAccess) : Nat := (xs.map extent).foldr max 0

end ItemAccess

end Client

/-! ## What is relied on -/

namespace Machine

/-- Arrays of a realm inherit from plain objects that have no items, and a constructor judges by that
what is an array. -/
structure FurnishesArrays (m : Machine) (r : RealmId) (f p : Nat) (ps : List Nat) : Prop where
  realm : ∃ realm, m.realms[r]? = some realm ∧ realm.intrinsic? .arrayPrototype = some p
  makes : m.Makes f p
  plain : m.IsPlain p
  inherits : m.Descends p ps
  bare : ∀ j ∈ p :: ps, ∀ i, (m.obj j).props.get? (.index i) = none

/-- There is room for a call. -/
def HasCallRoom (m : Machine) : Prop :=
  ∀ limit ∈ m.limits.stack, Eval.stackBytes ⟨.undefined, none, {}⟩ ≤ limit

instance (m : Machine) : Decidable m.HasCallRoom :=
  inferInstanceAs (Decidable (∀ limit ∈ m.limits.stack, _))

end Machine

/-- A host in which a context can tell arrays from other values, and these are bare when they are
new. -/
structure Host.ServesArrays (s : Host ScriptEngine) (c : ContextId) (r : RealmId) (f p : Nat)
    (ps : List Nat) : Prop where
  live : (Contexts.entry s.contexts c).realm = some r
  maker : (Contexts.entry s.contexts c).cache.array = .object f
  key : (Contexts.entry s.contexts c).cache.length = Key.str "length"
  held : 0 < s.engine.ledger.count (.value (.object f))
  arrays : s.engine.machine.FurnishesArrays r f p ps
  room : s.engine.machine.HasCallRoom

end ScriptHost
