import ScriptHost.Host.Collections
import ScriptHost.Host.Loop
/-!
# Running scripts

Sources are run under a file name, at once or as far as the first wait; the rest is work that waits
to be done.  A context that was freed runs nothing, which is a failure and not a misuse.
-/

namespace ScriptHost

namespace Host

variable {σ : Type} [Engine σ]

/-- Where the first zero byte of a text stands, counted in bytes. -/
def zeroByte? (s : String) : Option Nat :=
  let bytes := s.toUTF8
  (List.range bytes.size).find? fun i => bytes[i]? == some 0

/-- The realm of a context, which must not be freed. -/
def realmToRun (c : ContextId) : Action σ RealmId := do
  match (← context c).realm with
  | some r => pure r
  | none => fail .contextFreed

/-- Runs a source under a file name. -/
def evalWith (c : ContextId) (source file : String) (mode : EvalMode) : Action σ Handle := do
  let r ← realmToRun c
  -- Only the name goes to the engine as a text that ends with a zero byte.
  match zeroByte? file with
  | some i =>
    fail (.stringEncoding
      ("filename contains NUL: nul byte found in provided data at position: " ++ toString i))
  | none => do check c (← ask (.evaluate r source file mode))

/-- Runs a script under the file name of the settings. -/
def eval (c : ContextId) (source : String) : Action σ Handle := do
  evalWith c source (← getThe (Host σ)).settings.evalFilename .script

/-- Runs a script that may wait under the file name of the settings. -/
def evalAsync (c : ContextId) (source : String) : Action σ Handle := do
  evalWith c source (← getThe (Host σ)).settings.evalFilename .async

/-- A big integer of any size. -/
def newBigInt (c : ContextId) (n : Int) : Action σ Handle := eval c (toString n ++ "n")

/-! ## Waiting work -/

/-- Fails because of work that failed in a realm: in the realm of the context with what was thrown, and
in any other, where what was thrown is forgotten, without. -/
def failedJob (c : ContextId) (realm failed : RealmId) : Action σ Nat := do
  if failed == realm then throwPending c
  else
    -- The exception belongs to the other realm, so no record of it can be made in this context.
    let e ← ask (.takeException failed)
    ask (.release failed (Ref.ofValue e))
    fail (.internal "pending job failed in another context")

/-- Tries to do a piece of waiting work: goes on with how many are done, or there is none or it failed. -/
def attemptJob (c : ContextId) (realm : RealmId) :
    Nat × Host σ → (Nat × Host σ) ⊕ (Except Stop Nat × Host σ)
  | (count, h) =>
    match ask .runJob h with
    | (.ok reply, h) =>
      match (reply : JobEnd) with
      | .idle => .inr (.ok count, h)
      | .done => .inl (count + 1, h)
      | .failed r => .inr (failedJob c realm r h)
    | (.error e, h) => .inr (.error e, h)

/-- Does waiting work until there is none or a piece of it fails; counts the pieces.  Work that never
comes to an end has no outcome. -/
def runJobs (c : ContextId) (realm : RealmId) (count : Nat) (h : Host σ) :
    Option (Except Stop Nat × Host σ) :=
  untilEnd (attemptJob c realm) (count, h)

/-- Does waiting work until there is none or a piece of it fails; how many pieces were done. -/
def runPendingJobs (c : ContextId) : Action σ Nat := do
  let realm ← realmToRun c
  fun h => (runJobs c realm 0 h).getD (.ok 0, h)

end Host

end ScriptHost
