/-!
# What the host may choose

Parts of the engine that a realm may lack, and ways to run a source.
-/

namespace ScriptHost

/-- Parts of the engine that a realm may lack. -/
inductive Feature where
  | base | evaluator | json | collections | typedArrays | bigint | promise | proxy | weakRef | date
  | regexp | clock
deriving DecidableEq, Inhabited, Repr

/-- Every feature. -/
def Feature.all : List Feature :=
  [.base, .date, .evaluator, .regexp, .json, .proxy, .collections, .typedArrays, .promise, .bigint,
    .weakRef, .clock]

/-- How the host wants a source to be run. -/
inductive EvalMode where
  /-- A script in the global scope. -/
  | script
  /-- A script whose statements may wait. -/
  | async
  /-- A module. -/
  | module
deriving DecidableEq, Inhabited, Repr

namespace EvalMode

/-- The bit that marks modules; without it a source is a script. -/
def moduleBit : Nat := 1

/-- The bit that asks for strict code. -/
def strictBit : Nat := 8

/-- The bit of scripts whose statements may wait. -/
def asyncBit : Nat := 128

/-- The way to run a source, as bits. -/
def bits : EvalMode → Nat
  | script => 0
  | async => asyncBit
  | module => moduleBit

end EvalMode

end ScriptHost
