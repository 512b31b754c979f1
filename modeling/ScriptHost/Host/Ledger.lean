import Std.Data.TreeMap
import ScriptHost.Host.Request
/-!
# The ledger of references

How many references to each thing the host holds.  Objects are counted in a table; the other
things, of which there are few at a time, in lists.
-/

namespace ScriptHost

/-- How many references to each thing are held. -/
structure Ledger where
  objects : Std.TreeMap Nat Nat := {}
  others : List Ref := []
deriving Inhabited

namespace Ledger

/-- How many references to a thing are held. -/
def count (l : Ledger) : Ref → Nat
  | .value (.object id) => l.objects.getD id 0
  | r => l.others.count r

/-- One reference more. -/
def add (l : Ledger) : Ref → Ledger
  | .value (.object id) => { l with objects := l.objects.insert id (l.objects.getD id 0 + 1) }
  | r => { l with others := r :: l.others }

/-- One reference less. -/
def remove (l : Ledger) : Ref → Ledger
  | .value (.object id) =>
    if l.objects.getD id 0 ≤ 1 then { l with objects := l.objects.erase id }
    else { l with objects := l.objects.insert id (l.objects.getD id 0 - 1) }
  | r => { l with others := l.others.erase r }

/-- The ledger after a request was answered. -/
def after (l : Ledger) (q : Request) (r : q.Reply) : Ledger :=
  (q.given r).foldl add (q.taken.foldl remove l)

/-- The objects that are held. -/
def heldObjects (l : Ledger) : List Nat := l.objects.keys

end Ledger

end ScriptHost
