import ScriptHost.Client.Operation
import ScriptHost.Host.History
/-!
# What engines throw, and what becomes of it

An engine that cannot answer a request says so in its reply and keeps what was thrown until the host
takes it.  What the host owes to its caller is told from the exchanges: which of them left something
pending, what it was, and what the host read off it.  A policy says how an action has to end once
something was thrown.
-/

namespace ScriptHost

/-! ## Replies -/

namespace Request

/-- Whether a reply says that there is no answer.  What is taken off an engine is never such a reply,
whatever value it is. -/
def fails : (q : Request) → q.Reply → Bool
  | globalObject _, v | newText _ _, v | newBig _ _, v | newObject _, v | newArray _, v
  | newError _, v | valueOfKey _ _, v | textOfKey _ _, v | get _ _ _, v | getNamed _ _ _, v
  | call _ _ _ _, v | construct _ _ _, v | evaluate _ _ _ _, v | readJson _ _ _, v
  | writeJson _ _, v | copyBuffer _ _, v | lendBuffer _ _ _ _, v =>
    let v : Value := v
    v == .exception
  | keyOfText _ _, k | keyOfIndex _ _, k => Key.isNull k
  | openRealm, r | openBare _, r => Option.isNone r
  | keyOfValue _ _, k => Option.isNone k
  | set _ _ _ _, b | has _ _ _, b | hasOwn _ _ _, b | delete _ _ _, b | isInstance _ _ _, b =>
    Option.isNone b
  | ownKeys _ _ _, ks => Option.isNone ks
  | toInt32 _ _, n => Option.isNone n
  | toUInt32 _ _, n => Option.isNone n
  | toInt64 _ _, n | toBigInt64 _ _, n => Option.isNone n
  | toFloat _ _, d => Option.isNone d
  | toText _ _, t => Option.isNone t
  | bufferRegion _ _, r => Option.isNone r
  | viewInfo _ _, i => Option.isNone i
  | runJob, e =>
    match (e : JobEnd) with
    | .failed _ => true
    | .idle | .done => false
  | takeException _, _ | closeRealm _, _ | retain _ _, _ | release _ _, _ | isError _ _, _
  | isFunction _ _, _ | isConstructor _ _, _ | toBool _ _, _ | readRegion _ _ _, _
  | writeRegion _ _ _, _ | collect, _ | shutDown, _ => false

/-- Whether a request is for something new that the host counts on being given. -/
def isAllocation : Request → Bool
  | newText _ _ | newBig _ _ | newObject _ | newArray _ | keyOfText _ _ | keyOfIndex _ _ => true
  | _ => false

end Request

/-! ## Engines that throw -/

/-- An engine that tells the host when it threw, given what is pending in its states. -/
structure Throwing {σ : Type} [Engine σ] (pending : σ → Option Value) : Prop where
  /-- What is pending is given to the host; if nothing is, the sentinel of what is not initialized. -/
  take_reply : ∀ r e, (Engine.answer (.takeException r) e).reply = (pending e).getD .uninitialized
  /-- It is taken off the engine. -/
  take_clears : ∀ r e, pending (Engine.answer (.takeException r) e).state = none
  /-- An engine that gives an answer threw nothing. -/
  throws : ∀ q e, pending e = none → q.fails (Engine.answer q e).reply = false →
    pending (Engine.answer q e).state = none
  /-- That sentinel is no object, and nothing is thrown when it is made text. -/
  text_calm : ∀ r e, pending e = none →
    pending (Engine.answer (.toText r .uninitialized) e).state = none
  /-- The buffer of a typed array is one. -/
  viewed : ∀ r v (e : σ) i, (Engine.answer (.viewInfo r v) e).reply = some i → i.buffer ≠ .exception

/-! ## Exchanges -/

variable {σ : Type} [Engine σ]

/-- The engine after an exchange. -/
def Exchange.after (x : Exchange σ) : σ := (Engine.answer x.request x.before).state

namespace History

/-- Whether the host was given everything that it counts on being given. -/
def Granted (history : History σ) : Prop :=
  ∀ x ∈ history, x.request.isAllocation → x.request.fails x.reply = false

instance (history : History σ) : Decidable history.Granted :=
  inferInstanceAs
    (Decidable (∀ x ∈ history, x.request.isAllocation → x.request.fails x.reply = false))

/-- Whether nothing was pending after any exchange. -/
def Calm (pending : σ → Option Value) (history : History σ) : Prop :=
  ∀ x ∈ history, pending x.after = none

end History

namespace Host

/-- A host whose engine records from now on what it is asked. -/
def recorded (s : Host σ) : Host (Recorded σ) :=
  { engine := ⟨s.engine, []⟩, settings := s.settings, contexts := s.contexts, pins := s.pins,
    log := s.log }

/-- An exchange is the first one that left something pending, and a record is what the host read off
it right after taking it. -/
def Caught (pending : σ → Option Value) (c : ContextId) (s : Host (Recorded σ)) (x : Exchange σ)
    (d : ExceptionRecord) : Prop :=
  ∃ (v : Value) (earlier : History σ) (r : RealmId) (taken : Host (Recorded σ)),
    pending x.after = some v ∧ earlier.Calm pending ∧
    taken.engine = (Engine.answer (.takeException r) (⟨x.after, x :: earlier⟩ : Recorded σ)).state ∧
    taken.engine.history <:+ s.engine.history ∧ (recordOf ⟨c, v⟩ taken).1 = .ok d

end Host

/-! ## Policies -/

/-- How an action has to end once something was thrown. -/
inductive Policy where
  /-- Nothing is thrown. -/
  | quiet
  /-- With a failure that is made of the record of what was thrown, as the request tells on which it
  was thrown. -/
  | failing (error : Request → ExceptionRecord → HostError)
  /-- In any way. -/
  | lenient

namespace Policy

/-- A failure that holds the record. -/
def exception : Policy := failing fun _ => .exception

/-- A broken precondition in the words of the record. -/
def violation (operation : String) : Policy := failing fun _ d => .contractViolation operation d.text

/-- Whether an action kept to a policy, given the host and the result in which it ended. -/
def Met {α : Type} (pending : σ → Option Value) (c : ContextId) (p : Policy)
    (r : Except Stop α × Host (Recorded σ)) : Prop :=
  match p with
  | quiet => r.2.engine.history.Calm pending
  | failing error => r.2.engine.history.Calm pending ∨
      ∃ x d, Host.Caught pending c r.2 x d ∧ r.1 = .error (.failed (error x.request d))
  | lenient => True

end Policy

namespace Client

/-- A value that is made needs a script, a call or text to be read, or only new things. -/
def Maker.policy : Maker → Policy
  | null | undefined | uninitialized | exception | bool _ | int32 _ | uint32 _ | int64 _
  | bigInt64 _ | bigUInt64 _ | float _ | string _ | object | array => .quiet
  | error _ => .failing fun q d =>
    match q with
    | .set _ _ _ _ => .contractViolation "set_atom" d.text
    | _ => .exception d
  | bigInt _ | symbol | map | set | weakMap | weakSet | arrayBuffer _ | sharedBuffer _
  | typedArray _ _ | typedArrayOf _ _ | parseJson _ | serialize _ | eval _ | evalAsync _
  | evalWith _ _ _ => .exception

/-- Reading properties, calling and constructing. -/
def Getter.policy : Getter → Policy
  | dupe _ => .quiet
  | bufferOf _ => .lenient
  | symbolOf _ _ | typedArrayOver _ _ _ | keyValue _ | get _ _ | call _ _ _ | construct _ _
  | callMethod _ _ _ | callBound _ _ => .exception

/-- A value may have to be converted to be a key. -/
def KeyMaker.policy : KeyMaker → Policy
  | text _ _ | index _ _ | dupe _ => .quiet
  | ofValue _ => .exception

/-- Conversions fail with what was thrown; so do the questions for a property, in words of their own.
What only looks at a value goes on. -/
def Question.policy : Question → Policy
  | isError | isFunction | isConstructor | typeName | toBool => .quiet
  | toInt32 | toUInt32 | toInt64 | toFloat | toBigInt64 | toBigInt | toText | toJson
  | deserialize _ => .exception
  | has _ => .violation "has_atom"
  | delete _ => .violation "delete_atom"
  | keys => .failing fun q d =>
    match q with
    | .ownKeys _ _ _ => .contractViolation "own_property_names" d.text
    | _ => .exception d
  | diagnostic | record | isArray | isMap | isSet | isWeakMap | isWeakSet | isArrayBuffer
  | elementKind | isTypedArray _ | length | isEmpty | bytes | isInstance _ | write _ _ => .lenient

/-- How an operation has to end once something was thrown. -/
def Operation.policy : Operation → Policy
  | make _ m => m.policy
  | get g => g.policy
  | key k => k.policy
  | ownKeys _ _ => .violation "own_property_names"
  | ask _ q => q.policy
  | keyText _ => .exception
  | set _ _ _ => .violation "set_atom"
  | bind _ _ _ | drop _ | keepToEnd _ | keepKeyToEnd _ | bareValue _ | bareKey _ | global _
  | freeContext _ | dropContext _ => .quiet
  | keyDiagnostic _ | boundDiagnostic _ | runJobs _ | runGc | openContext _ | openBare _ _ =>
      .lenient

/-- The questions of what a value is that are answered with yes or no. -/
def Question.test? : Question → Option (Handle → Action σ Bool)
  | isError => some Host.isError
  | isFunction => some Host.isFunction
  | isConstructor => some Host.isConstructor
  | isArray => some Host.isArray
  | isMap => some Host.isMap
  | isSet => some Host.isSet
  | isWeakMap => some Host.isWeakMap
  | isWeakSet => some Host.isWeakSet
  | isArrayBuffer => some Host.isArrayBuffer
  | isTypedArray k => some fun h => Host.isTypedArray h k
  | isInstance f => some fun h => Host.isInstance h f.value
  | _ => none

end Client

end ScriptHost
