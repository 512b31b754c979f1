import ScriptHost.Client.Record
/-!
# What comes of operations on a context that was freed

A freed context keeps its cache, and its handles keep their tags, so some questions can still be
answered.  Anything else is refused: running scripts is a failure, and reaching for the realm is a
misuse.  Either way the engine hears of it only what has to be given back.
-/

namespace ScriptHost

/-- The word for the type of a value, as far as its tag tells it. -/
def Value.typeWord? : Value → Option String
  | int _ | float _ => some "number"
  | bool _ => some "boolean"
  | null => some "null"
  | undefined => some "undefined"
  | uninitialized => some "uninitialized"
  | exception => some "exception"
  | string _ => some "string"
  | symbol _ => some "symbol"
  | bigint _ => some "bigint"
  | object _ => none

namespace Client

/-- How an operation ends, but for what it yields. -/
abbrev Ending := Except Stop Unit

namespace Ending

/-- The operation comes to its end. -/
def done : Ending := .ok ()

/-- The operation reached for the realm. -/
def stopped : Ending := .error (.panicked .usedAfterFree)

/-- The operation failed. -/
def refused (e : HostError) : Ending := .error (.failed e)

/-- The operation reaches for the realm if something holds. -/
def stoppedIf (b : Bool) : Ending := if b then stopped else done

/-- The operation fails on what is no object, with a failure that tells the type; else it reaches
for the realm. -/
def ofObject (h : Handle) (e : String → HostError) : Ending :=
  match h.value.typeWord? with
  | some word => refused (e word)
  | none => stopped

/-- The operation needs an object. -/
def object (operation : String) (h : Handle) : Ending :=
  ofObject h fun word =>
    .contractViolation operation ("target is not an object (got " ++ word ++ ")")

/-- The operation names a property by an index. -/
def indexed (i : Int) : Ending :=
  if 0 ≤ i ∧ i ≤ maxIndex then stopped else refused (.indexOutOfRange i)

/-- The operation names a property; if it names it by a key, it goes on. -/
def named (n : PropertyName) (byKey : Ending) : Ending :=
  match n with
  | .text _ => stopped
  | .index i => indexed i
  | .key _ => byKey

/-- The operation needs a constructor of typed arrays. -/
def constructing (x : Cache) (k : ElementKind) : Ending :=
  if (x.elements k).isObject then stopped else refused (.missingGlobal k.constructorName)

end Ending

open Ending

/-! ## Endings -/

/-- How making a value ends in a freed context. -/
def Maker.onFreed (x : Cache) : Maker → Ending
  | null | undefined | uninitialized | exception | bool _ | int32 _ | float _ => done
  | bigInt _ | eval _ | evalAsync _ | evalWith _ _ _ => refused .contextFreed
  | typedArray k _ => constructing x k
  | serialize d =>
    match d.toDocument with
    | .ok _ => stopped
    | .error e => refused (.json e)
  | _ => stopped

/-- How getting a value ends in a freed context. -/
def Getter.onFreed (x : Cache) : Getter → Ending
  | get _ n => named n stopped
  | typedArrayOver _ k _ => constructing x k
  | bufferOf h =>
    ofObject h fun word =>
      .contractViolation "typed_array_info" ("expected ArrayBuffer or TypedArray, got " ++ word)
  | _ => stopped

/-- How a report on a value ends in a freed context. -/
def diagnosticOnFreed (h : Handle) : Ending :=
  match h.value with
  | .int _ | .float _ | .bool _ | .string _ | .object _ => stopped
  | _ => done

/-- How a question ends in a freed context. -/
def Question.onFreed (x : Cache) (h : Handle) : Question → Ending
  | isError | isFunction | isConstructor | typeName | record => stoppedIf h.value.isObject
  | diagnostic => diagnosticOnFreed h
  -- An answer that needs no engine is given, freed or not.
  | isArray => stoppedIf (h.value.isObject && x.array.isObject)
  | isMap => stoppedIf (h.value.isObject && x.map.isObject)
  | isSet => stoppedIf (h.value.isObject && x.set.isObject)
  | isWeakMap => stoppedIf (h.value.isObject && x.weakMap.isObject)
  | isWeakSet => stoppedIf (h.value.isObject && x.weakSet.isObject)
  | isArrayBuffer => stoppedIf (h.value.isObject && x.buffer.isObject)
  | isTypedArray k => stoppedIf (h.value.isObject && (x.elements k).isObject)
  | elementKind =>
    stoppedIf (h.value.isObject && ElementKind.all.any fun k => (x.elements k).isObject)
  | isInstance f => stoppedIf (h.value.isObject && f.value.isObject)
  | length | isEmpty => ofObject h fun word => .contractViolation "len" (word ++ " has no length")
  | keys => object "own_property_names" h
  | bytes | write _ _ => ofObject h fun word => .wrongType "ArrayBuffer or TypedArray" word
  | toBigInt => if Host.isBigInt h then stopped else ofObject h fun word => .wrongType "bigint" word
  | has n => named n (object "has_atom" h)
  | delete n => named n (object "delete_atom" h)
  | toJson | toBool | toInt32 | toUInt32 | toInt64 | toFloat | toBigInt64 | toText
  | deserialize _ => stopped

/-- How an operation on a freed context, or on a handle of it, ends. -/
def Operation.onFreed (x : Cache) : Operation → Ending
  | make _ m => m.onFreed x
  | get g => g.onFreed x
  | ask h q => q.onFreed x h
  | ownKeys h _ => object "own_property_names" h
  | boundDiagnostic b => diagnosticOnFreed b.func
  | set h n _ => named n (object "set_atom" h)
  | keepToEnd _ | keepKeyToEnd _ => .error (.panicked .deferredAfterTeardown)
  | runJobs _ => refused .contextFreed
  | key _ | bind _ _ _ | keyText _ | keyDiagnostic _ => stopped
  | drop _ | bareValue _ | bareKey _ | global _ | freeContext _ | dropContext _ | openContext _
  | openBare _ _ | runGc => done

/-- Whether an operation is to run a script or waiting work. -/
def Operation.runsScript : Operation → Bool
  | make _ (.eval _) | make _ (.evalAsync _) | make _ (.evalWith _ _ _) | make _ (.bigInt _)
  | runJobs _ => true
  | _ => false

/-- Whether an ending is one that an operation on a freed context may have: scripts are not run
because the context was freed, and that is the reason of no other failure; the others are about
what the caller named or handed over. -/
def Ending.isAbsorbing (scripts : Bool) : Ending → Bool
  | .ok _ => !scripts
  | .error (.failed .contextFreed) => scripts
  | .error (.failed e) =>
    match e with
    | .indexOutOfRange _ | .contractViolation _ _ | .wrongType _ _ | .json _ | .missingGlobal _ =>
        !scripts
    | _ => false
  | .error (.panicked _) => !scripts

/-! ## Giving back -/

/-- The requests by which the references of an item are given back, each in the realm of its
context. -/
def Item.releases (X : Contexts) (i : Item) : List Request :=
  i.parts.flatMap fun p =>
    if p.2.isEmpty then [] else (X.entry p.1).realm.toList.map fun r => .release r p.2

/-- The requests by which values get second references, as long as their contexts are live, and by
which these are given back. -/
def triedDupes (X : Contexts) : List Handle → List Request
  | [] => []
  | h :: hs =>
    match (X.entry h.context).realm with
    | some r => .retain r (.value h.value) :: triedDupes X hs ++ Item.releases X (.value h)
    | none => []

/-- What an operation on a freed context makes the host ask of the engine: what it consumes is given
back, and so are the second references that it took before it reached for its own. -/
def Operation.sends (X : Contexts) : Operation → List Request
  | set _ _ v => Item.releases X (.value v)
  | drop i => Item.releases X i
  | bind f this leading =>
    triedDupes X ((this.getD (Host.newUndefined f.context)) :: leading ++ [f])
  | _ => []

end Client

end ScriptHost
