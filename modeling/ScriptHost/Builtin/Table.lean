import ScriptHost.Builtin.Arrays
import ScriptHost.Builtin.Buffers
import ScriptHost.Builtin.Collections
import ScriptHost.Builtin.Dates
import ScriptHost.Builtin.Functions
import ScriptHost.Builtin.Globals
import ScriptHost.Builtin.Iterators
import ScriptHost.Builtin.Json
import ScriptHost.Builtin.Promises
import ScriptHost.Builtin.Reflection
import ScriptHost.Builtin.Regexps
import ScriptHost.Builtin.Texts
import ScriptHost.Engine.Options
/-!
# The tables of functions

Every function that the engine supplies, by its family and its place there, and the constructors
with what belongs to them.
-/

namespace ScriptHost

namespace Builtin

/-- A constructor and what belongs to it. -/
structure Maker where
  name : String
  length : Nat
  run : NativeCall → Eval Value
  feature : Feature := .base
  /-- What the objects that it makes inherit. -/
  prototype : Option Intrinsic := none
  /-- The name by which the engine refers to it. -/
  place : Option Intrinsic := none
  /-- Its own functions. -/
  statics : Option Family := none
  /-- The constructor that it inherits from. -/
  parent : Option Intrinsic := none
  /-- Whether scripts find it among the globals. -/
  isGlobal : Bool := true

/-- The constructor of errors of a kind. -/
def errorMaker (kind : ErrorKind) (name : String) (length : Nat) : Maker :=
  { name := name, length := length, run := errorConstructor kind
    prototype := some (Eval.errorIntrinsic kind), parent := some .errorConstructor }

/-- The constructor of functions with a kind of body that is not among the globals. -/
def functionMaker (kind : Script.BodyKind) (name : String) (prototype : Intrinsic) : Maker :=
  { name := name, length := 1, run := functionConstructor kind, prototype := some prototype
    parent := some .functionConstructor, isGlobal := false }

/-- The constructor of typed arrays of a kind. -/
def elementMaker (kind : ElementKind) : Maker :=
  { name := kind.constructorName, length := 3, run := elementConstructor kind,
    feature := .typedArrays
    prototype := some (.elementPrototype kind), place := some (.elementConstructor kind)
    parent := some .typedArrayConstructor }

/-- Every constructor. -/
def makers : List Maker :=
  [{ name := "Object", length := 1, run := objectConstructor, prototype := some .objectPrototype
     place := some .objectConstructor, statics := some .objectStatics },
   { name := "Function", length := 1, run := functionConstructor .plain
     prototype := some .functionPrototype, place := some .functionConstructor },
   { name := "Error", length := 1, run := errorConstructor .error, prototype := some .errorPrototype
     place := some .errorConstructor, statics := some .errorStatics },
   errorMaker .eval "EvalError" 1, errorMaker .range "RangeError" 1,
   errorMaker .reference "ReferenceError" 1, errorMaker .syntactic "SyntaxError" 1,
   errorMaker .type "TypeError" 1, errorMaker .uri "URIError" 1,
   errorMaker .internal "InternalError" 1, errorMaker .aggregate "AggregateError" 2,
   { name := "Iterator", length := 0, run := iteratorConstructor,
     prototype := some .iteratorPrototype
     place := some .iteratorConstructor, statics := some .iteratorStatics },
   { name := "Array", length := 1, run := arrayConstructor, prototype := some .arrayPrototype
     place := some .arrayConstructor, statics := some .arrayStatics },
   { name := "Number", length := 1, run := numberConstructor, prototype := some .numberPrototype
     statics := some .numberStatics },
   { name := "String", length := 1, run := stringConstructor, prototype := some .stringPrototype
     statics := some .stringStatics },
   { name := "Boolean", length := 1, run := booleanConstructor,
     prototype := some .booleanPrototype },
   { name := "Symbol", length := 0, run := symbolConstructor, prototype := some .symbolPrototype
     statics := some .symbolStatics },
   functionMaker .generator "GeneratorFunction" .generatorFunctionPrototype,
   functionMaker .async "AsyncFunction" .asyncFunctionPrototype,
   functionMaker .asyncGenerator "AsyncGeneratorFunction" .asyncGeneratorFunctionPrototype,
   { name := "Date", length := 7, run := dateConstructor, feature := .date
     prototype := some .datePrototype, statics := some .dateStatics },
   { name := "RegExp", length := 2, run := regexpConstructor, feature := .regexp
     prototype := some .regexpPrototype, place := some .regexpConstructor
     statics := some .regexpStatics },
   { name := "Proxy", length := 2, run := proxyConstructor, feature := .proxy
     statics := some .proxyStatics },
   { name := "Map", length := 0, run := mapConstructor, feature := .collections
     prototype := some .mapPrototype, place := some .mapConstructor, statics := some .mapStatics },
   { name := "Set", length := 0, run := setConstructor, feature := .collections
     prototype := some .setPrototype, statics := some .collectionStatics },
   { name := "WeakMap", length := 0, run := weakMapConstructor, feature := .collections
     prototype := some .weakMapPrototype },
   { name := "WeakSet", length := 0, run := weakSetConstructor, feature := .collections
     prototype := some .weakSetPrototype },
   { name := "ArrayBuffer", length := 1, run := bufferConstructor false, feature := .typedArrays
     prototype := some .bufferPrototype, place := some .bufferConstructor
     statics := some .bufferStatics },
   { name := "SharedArrayBuffer", length := 1, run := bufferConstructor true,
     feature := .typedArrays
     prototype := some .sharedBufferPrototype, place := some .sharedBufferConstructor
     statics := some .collectionStatics },
   { name := "TypedArray", length := 0, run := typedArrayConstructor, feature := .typedArrays
     prototype := some .typedArrayPrototype, place := some .typedArrayConstructor
     statics := some .typedArrayStatics, isGlobal := false }] ++
  ElementKind.all.map elementMaker ++
  [{ name := "DataView", length := 1, run := dataViewConstructor, feature := .typedArrays
     prototype := some .dataViewPrototype },
   { name := "Promise", length := 1, run := promiseConstructor, feature := .promise
     prototype := some .promisePrototype, place := some .promiseConstructor
     statics := some .promiseStatics },
   { name := "BigInt", length := 1, run := bigintConstructor, feature := .bigint
     prototype := some .bigintPrototype, statics := some .bigintStatics },
   { name := "WeakRef", length := 1, run := weakRefConstructor, feature := .weakRef
     prototype := some .weakRefPrototype },
   { name := "FinalizationRegistry", length := 1, run := registryConstructor, feature := .weakRef
     prototype := some .registryPrototype }]

/-- The constructors as functions. -/
def constructors : Array Native :=
  (makers.map fun k => method k.name k.length k.run).toArray

/-- The functions of a family. -/
def table : Family → Array Native
  | .constructors => constructors
  | .globals => globals
  | .objectStatics => objectStatics
  | .objectPrototype => objectPrototype
  | .functionPrototype => functionPrototype
  | .errorStatics => errorStatics
  | .errorPrototype => errorPrototype
  | .arrayStatics => arrayStatics
  | .arrayPrototype => arrayPrototype
  | .iteratorPrototype => iteratorPrototype
  | .arrayIterator => arrayIterator
  | .iteratorStatics => iteratorStatics
  | .iteratorHelper => iteratorHelper
  | .wrappedIterator => wrappedIterator
  | .asyncIteratorPrototype => asyncIteratorPrototype
  | .asyncFromSync => asyncFromSync
  | .generator => generator
  | .asyncGenerator => asyncGenerator
  | .numberStatics => numberStatics
  | .numberPrototype => numberPrototype
  | .booleanPrototype => booleanPrototype
  | .stringStatics => stringStatics
  | .stringPrototype => stringPrototype
  | .stringIterator => stringIterator
  | .symbolStatics => symbolStatics
  | .symbolPrototype => symbolPrototype
  | .math => math
  | .reflect => reflect
  | .json => json
  | .collectionStatics => collectionStatics
  | .mapStatics => mapStatics
  | .mapPrototype => mapPrototype
  | .setPrototype => setPrototype
  | .weakMapPrototype => weakMapPrototype
  | .weakSetPrototype => weakSetPrototype
  | .mapIterator => mapIterator
  | .setIterator => setIterator
  | .bufferStatics => bufferStatics
  | .bufferPrototype => bufferPrototype
  | .sharedBufferPrototype => sharedBufferPrototype
  | .typedArrayStatics => typedArrayStatics
  | .typedArrayPrototype => typedArrayPrototype
  | .dataViewPrototype => dataViewPrototype
  | .bigintStatics => bigintStatics
  | .bigintPrototype => bigintPrototype
  | .promiseStatics => promiseStatics
  | .promisePrototype => promisePrototype
  | .proxyStatics => proxyStatics
  | .weakRefPrototype => weakRefPrototype
  | .registryPrototype => registryPrototype
  | .dateStatics => dateStatics
  | .datePrototype => datePrototype
  | .regexpStatics => regexpStatics
  | .regexpPrototype => regexpPrototype
  | .regexpIterator => regexpIterator
  | .clock => clock
  | .inner => inner

/-- Looks up a function that the engine supplies. -/
def supply : Supply := fun family index => (table family)[index]?

end Builtin

end ScriptHost
