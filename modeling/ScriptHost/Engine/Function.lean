import ScriptHost.Engine.Operators
import ScriptHost.Pattern.Reader
/-!
# Function objects

Functions that the engine supplies, closures, regular expressions, and the walk over items.
-/

namespace ScriptHost

/-- Functions that the engine makes as it goes, by what they do. -/
inductive InnerFunction where
  | resolvePromise | rejectPromise | keepCapability | resumeValue | resumeThrow
  | thenFinally | catchFinally | returnKept | throwKept | allResolve | allSettledResolve
  | allSettledReject | anyReject | revokeProxy | throwType | asyncUnwrap
  | asyncReturnDone | asyncReturnFail | syncUnwrap | syncClose | nothing
deriving DecidableEq, Inhabited, Repr

namespace Eval

/-! ## Making functions -/

/-- The key that the name of a supplied function stands for. -/
def memberKey (name : String) : Key :=
  if name.startsWith "@" then
    let full := "Symbol." ++ (name.drop 1).toString
    match WellKnown.names.findIdx? (· == full) with
    | some i => .symbol i
    | none => Key.str name
  else Key.ofText (txt name)

/-- The name that a supplied function has itself. -/
def ownName (name : String) : Text :=
  if name.startsWith "@" then txt ("[Symbol." ++ (name.drop 1).toString ++ "]") else txt name

/-- A new supplied function. -/
def newNative (f : NativeRef) (name : Text) (length : Nat) (proto : Option Nat) : Mem Nat := do
  let m ← get
  Mem.alloc
    { body := .native f m.realm, proto := proto
      props := { members := #[(Key.str "length", .fixedValue (Value.ofNat length)),
        (Key.str "name", .fixedValue (.string name))] } }

/-- A new function of the engine that remembers values. -/
def newInner (f : InnerFunction) (length : Nat) (data : Array Value) : Eval Value := do
  let proto ← intrinsic .functionPrototype
  pure (.object (← newNative ⟨.inner, f.ctorIdx, data, false⟩ Text.empty length proto))

/-- The prototype of functions with a kind of body. -/
def functionProto : Script.BodyKind → Intrinsic
  | .plain => .functionPrototype
  | .generator => .generatorFunctionPrototype
  | .async => .asyncFunctionPrototype
  | .asyncGenerator => .asyncGeneratorFunctionPrototype

/-- A new closure with a prototype. -/
def newClosureWith (c : Closure) (proto : Option Nat) : Eval Nat := do
  let id ← Mem.alloc
    { body := .closure c, proto := proto
      props := { members := #[(Key.str "length", .fixedValue (Value.ofNat c.code.length)),
        (Key.str "name", .fixedValue (.string c.code.name))] } }
  match c.code.body with
  | .generator => do
    let p ← alloc .ordinary .generatorPrototype
    Mem.putProperty id (Key.str "prototype") ⟨.data (.object p) true, false, false⟩
  | .asyncGenerator => do
    let p ← alloc .ordinary .asyncGeneratorPrototype
    Mem.putProperty id (Key.str "prototype") ⟨.data (.object p) true, false, false⟩
  | .plain =>
    if c.code.role == .ordinary then
      Mem.putProperty id (Key.str "prototype") ⟨.lazyPrototype, false, false⟩
  | .async => pure ()
  pure id

/-- A new closure. -/
def newClosure (c : Closure) : Eval Nat := do
  newClosureWith c (← intrinsic (functionProto c.code.body))

/-- Names a function, keeping what its name already says about it. -/
def nameFunction (f : Value) (name : Text) : Eval Unit := do
  match f with
  | .object id => do
    match ((← get).obj id).props.get? (Key.str "name") with
    | some ⟨.data (.string t) _, _, _⟩ =>
      if t.isEmpty || t == txt "get " || t == txt "set " then
        Mem.putProperty id (Key.str "name") (.fixedValue (.string (t ++ name)))
    | _ => pure ()
  | _ => pure ()

/-- The name that a key gives to a function. -/
def nameOfKey (m : Machine) : Key → Text
  | .symbol s =>
    match (m.symbolInfo s).description with
    | some d => if (m.symbolInfo s).isPrivate then d else txt "[" ++ d ++ txt "]"
    | none => Text.empty
  | k => (k.text?).getD Text.empty

/-- The prototype for what a constructor makes. -/
def protoFor (target : Value) (fallback : Intrinsic) : Eval (Option Nat) := do
  match target with
  | .object id => do
    match ← getNamed id "prototype" with
    | .object p => pure (some p)
    | _ => do
      let m ← get
      let realm := match m.body id with
        | .closure c => c.realm
        | .native _ r => r
        | _ => m.realm
      pure ((m.realms[realm]?).bind (·.intrinsic? fallback))
  | _ => intrinsic fallback

/-- A new object for a constructor. -/
def allocFor (b : Body) (target : Value) (fallback : Intrinsic) : Eval Nat := do
  let p ← protoFor target fallback
  allocWith b p

/-- A new regular expression that was read before. -/
def allocRegexp (body : Text) (pattern : Pattern) (proto : Option Nat) : Eval Nat := do
  let id ← allocWith (.regexp body pattern) proto
  Mem.putProperty id (Key.str "lastIndex") ⟨.data (.int 0) true, false, false⟩
  pure id

/-- A new regular expression from its text. -/
def newRegexp (body flags : Text) (proto : Option Nat) : Eval Nat := do
  match Pattern.parse body flags with
  | .error m => raise .syntactic m
  | .ok p => allocRegexp body p proto

/-! ## Items -/

/-- What walks over items: the iterator and its `next`. -/
structure Items where
  iterator : Value
  next : Value
deriving Inhabited

/-- Opens the items of a value with a method. -/
def openWith (v method : Value) : Eval Items := do
  let it ← call method v #[]
  if !it.isObject then typeError "not an object"
  pure ⟨it, ← getField it "next"⟩

/-- Opens the items of a value. -/
def openItems (v : Value) : Eval Items := do
  let method ← getOf v (.symbol WellKnown.iterator)
  if !(← callable method) then typeError "value is not iterable"
  openWith v method

/-- The next item; none at the end. -/
def nextItem (it : Items) : Eval (Option Value) := do
  let r ← call it.next it.iterator #[]
  match r with
  | .object id => do
    if truthy (← getNamed id "done") then pure none
    else do pure (some (← getNamed id "value"))
  | _ => typeError "iterator must return an object"

/-- Closes items that are not used up. -/
def closeItems (it : Items) : Eval Unit := do
  match ← getMethod it.iterator (Key.str "return") with
  | none => pure ()
  | some f => do
    let r ← call f it.iterator #[]
    if !r.isObject then typeError "not an object"

/-- Closes items after something was thrown, whatever comes of it. -/
def closeQuietly (it : Items) : Eval Unit := do
  try closeItems it
  catch _ => pure ()

/-- How many items a walk may give. -/
def itemLimit : Nat := twoTo 32

/-- Does something with each item, closing the items if that throws. -/
def eachItem (it : Items) (f : Nat → Value → Eval Unit) : Eval Unit :=
  go itemLimit 0
where
  /-- The same from an item on. -/
  go : Nat → Nat → Eval Unit
    | 0, _ => pure ()
    | fuel + 1, i => do
      match ← nextItem it with
      | none => pure ()
      | some v => do
        try f i v
        catch e =>
          closeQuietly it
          throw e
        go fuel (i + 1)

/-- Does something with each item, keeping a result that each may change. -/
def foldItems {β : Type} (it : Items) (start : β) (f : β → Value → Eval β) : Eval β :=
  go itemLimit start
where
  /-- The same from an item on. -/
  go : Nat → β → Eval β
    | 0, b => pure b
    | fuel + 1, b => do
      match ← nextItem it with
      | none => pure b
      | some v => do
        let b' ← try f b v
          catch e =>
            closeQuietly it
            throw e
        go fuel b'

/-- The items of a value as an array. -/
def itemsOf (v : Value) : Eval (Array Value) := do
  foldItems (← openItems v) #[] fun xs x => pure (xs.push x)

end Eval

end ScriptHost
