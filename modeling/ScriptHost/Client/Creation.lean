import ScriptHost.Host.Contexts
import ScriptHost.Host.History
/-!
# What contexts are made of

A context is made of a realm if the realm has the globals that it needs.  What a realm has under a
name is what its engine says when it is asked for it: an object, something else, or nothing because
it threw.
-/

namespace ScriptHost

variable {σ : Type}

/-! ## What is needed -/

namespace Cache

/-- The names of the globals that a context looks up by themselves. -/
def requiredNames : List String :=
  ["Array", "Map", "Set", "WeakMap", "WeakSet", "ArrayBuffer", "Symbol"]

/-- The names of the globals that a context looks up, in the order of the lookup. -/
def names : List String := requiredNames ++ ElementKind.all.map ElementKind.constructorName

/-- The names of the keys that a context keeps. -/
def keyNames : List String := ["length", "size", "byteLength"]

/-- Whether a context does without an object under a name. -/
def optional (name : String) : Bool := name == ElementKind.float16.constructorName

end Cache

/-- Every realm has a global object, and the engine has keys of the names that contexts keep, so it
need not make them. -/
structure Furnished (σ : Type) [Engine σ] : Prop where
  global : ∀ (r : RealmId) (e : σ), (Engine.answer (.globalObject r) e).reply ≠ .exception
  keys : ∀ name ∈ Cache.keyNames, ∀ (r : RealmId) (e : σ),
    Key.isNull (Engine.answer (.keyOfText r name) e).reply = false

/-! ## What is found -/

/-- What was found under the name of a global. -/
abbrev Reading := String × Value

namespace Reading

/-- Whether a context can go on with what was found. -/
def fits (x : Reading) : Bool := x.2.isObject || Cache.optional x.1

/-- What a context keeps of what was found. -/
def kept (x : Reading) : Value := if x.2.isObject then x.2 else .undefined

/-- The references that are registered for what was found: those to objects. -/
def registered (found : List Reading) : List Ref :=
  (found.filter (·.2.isObject)).map fun x => .value x.2

end Reading

/-- What an exchange tells of an object of a realm, if this was asked for something by its name. -/
def Exchange.reading? (r : RealmId) (object : Value) (x : Exchange σ) : Option Reading :=
  match x.request, x.reply with
  | .getNamed r' object' name, v => if r' = r ∧ object' = object then some (name, v) else none
  | _, _ => none

/-- What an object of a realm was found to have under the names that were asked for, the oldest
answer first. -/
def History.readings (r : RealmId) (object : Value) (history : History σ) : List Reading :=
  (history.filterMap (Exchange.reading? r object)).reverse

/-! ## Attempts -/

/-- The hosts that come of a host when realms are opened and contexts are made of realms, whether
there is a context in the end or not. -/
inductive Host.Tried [Engine σ] (h₀ : Host (Recorded σ)) : Host (Recorded σ) → Prop
  | start : Tried h₀ h₀
  | opened {h : Host (Recorded σ)} {r : RealmId} : Tried h₀ h →
      (Engine.answer .openRealm h.engine).reply = some r → Tried h₀ (ask .openRealm h).2
  | openedBare {h : Host (Recorded σ)} {features : List Feature} {r : RealmId} : Tried h₀ h →
      (Engine.answer (.openBare features) h.engine).reply = some r →
      Tried h₀ (ask (.openBare features) h).2
  | handed {h : Host (Recorded σ)} (c : ContextId) (r : RealmId) : Tried h₀ h →
      Tried h₀ (contextOf c (some r) h).2

end ScriptHost
