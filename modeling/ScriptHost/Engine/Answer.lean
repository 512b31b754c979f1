import ScriptHost.Builtin.Realm
import ScriptHost.Engine.Collect
import ScriptHost.Engine.Evaluate
import ScriptHost.Host.Ledger
import ScriptHost.Host.Settings
/-!
# The engine of scripts

How the engine answers what the host asks.  Something thrown is kept until the host takes it; the
answer then says only that there is none.  After each answer that may have let go of something,
what nothing refers to any more is freed.
-/

namespace ScriptHost

/-- The engine of scripts, as the host sees it. -/
structure ScriptEngine where
  machine : Machine := {}
  /-- What was thrown and not taken yet. -/
  pending : Option Value := none
  /-- The references that the host holds. -/
  ledger : Ledger := {}
  /-- The work that waits, with its realm, the oldest first. -/
  queue : Array (Nat × Job) := #[]
deriving Inhabited

namespace ScriptEngine

open Eval

/-! ## Starting -/

/-- How deep calls of any kind may be nested, however much stack there is. -/
def depthLimit : Nat := 10000

/-- The limits that settings ask for; zero stands for no limit. -/
def limitsOf (s : Settings) : Limits :=
  let unlessZero (n : Option Nat) : Option Nat := n.filter (· != 0)
  { memory := unlessZero s.memoryLimit
    stack := match s.maxStackSize with
      | none => ({} : Limits).stack
      | some n => unlessZero (some n) }

/-- An engine that nothing was asked of. -/
def start (s : Settings) : ScriptEngine :=
  let limits := limitsOf s
  { machine := { limits := limits, watched := limits.memory.isSome } }

/-! ## Running -/

/-- What is pending after something was thrown.  The sentinel of an uninitialized binding stands for
a failure that throws nothing. -/
def pendingAfter (thrown : Value) (pending : Option Value) : Option Value :=
  match thrown with
  | .uninitialized => pending
  | v => some v

/-- Runs a computation in a realm; none if it threw. -/
def run {α : Type} (realm : RealmId) (x : Eval α) : ScriptEngine → Option α × ScriptEngine
  | ⟨machine, pending, ledger, queue⟩ =>
    match x (interp Builtin.supply depthLimit)
      { machine with realm := realm, calls := [], stackUsed := 0 } with
    | .ok a m => (some a, ⟨m, pending, ledger, queue⟩)
    | .error v m => (none, ⟨m, pendingAfter v pending, ledger, queue⟩)

/-- Runs a computation that gives a value; the sentinel if it threw. -/
def runValue (realm : RealmId) (x : Eval Value) (e : ScriptEngine) : Value × ScriptEngine :=
  match run realm x e with
  | (some v, e) => (v, e)
  | (none, e) => (.exception, e)

/-- Changes the machine. -/
def change {α : Type} (realm : RealmId) (x : Mem α) : ScriptEngine → α × ScriptEngine
  | ⟨machine, pending, ledger, queue⟩ =>
    match x { machine with realm := realm } with
    | (a, m) => (a, ⟨m, pending, ledger, queue⟩)

/-- Takes what is pending. -/
def takePending (e : ScriptEngine) : Value × ScriptEngine :=
  (e.pending.getD .uninitialized, { e with pending := none })

/-! ## Single answers -/

/-- Opens a realm, unless memory is too short. -/
def openRealm (features : List Feature) (e : ScriptEngine) : Option RealmId × ScriptEngine :=
  let (r, e) := change 0 (Builtin.newRealm features) e
  match e.machine.limits.memory with
  | some limit =>
    if bytesInUse e.machine > limit then
      (none, { e with machine := { e.machine with
        realms := e.machine.realms.modify r fun x => { x with isAlive := false } } })
    else (some r, e)
  | none => (some r, e)

/-- Refuses a value that stands for a failure. -/
def sound (v : Value) : Eval Unit := if v == .exception then throw .uninitialized else pure ()

/-- Refuses to begin when no call at all may be made. -/
def needsRoom : Eval Unit := do
  match (← get).limits.stack with
  | some n => if n < stackBytes ⟨.undefined, none, {}⟩ then stackOverflow
  | none => pure ()

/-- The object that a value must be. -/
def objectOf (v : Value) : Eval Nat := do
  sound v
  needObject v

/-- The memory of a buffer. -/
def regionOf (v : Value) : Eval Region := do
  let (_, b) ← Builtin.needBuffer v none
  match b.region with
  | some r => pure ⟨r, b.length⟩
  | none => Builtin.detached

/-- What a typed array looks at. -/
def viewOf (v : Value) : Eval ViewInfo := do
  let (_, t) ← Builtin.reachTyped v
  pure ⟨.object t.buffer, t.offset, if t.tracks then t.count * t.kind.size else t.length,
    t.kind.size⟩

/-- A new buffer over bytes. -/
def bufferOf (bytes : ByteArray) (token : Option UInt64) : Eval Value := do
  reserve bytes.size
  let r ← Mem.newRegion bytes
  if token.isSome then modify fun m => { m with watched := true }
  let proto ← intrinsic .bufferPrototype
  let buffer := { region := some r, length := bytes.size, token := token }
  pure (.object (← Builtin.newBufferOver buffer proto))

/-- Does the oldest piece of waiting work. -/
def runJob (e : ScriptEngine) : JobEnd × ScriptEngine :=
  match e.queue[0]? with
  | none => (.idle, e)
  | some (realm, j) =>
    match run realm (perform j) { e with queue := e.queue.extract 1 e.queue.size } with
    | (some (), e) => (.done, e)
    | (none, e) => (.failed realm, e)

/-- The keys that a filter asks for. -/
def chosenKeys (id : Nat) (f : KeyFilter) : Eval (List Key) := do
  pure ((← selectKeys id f.strings f.symbols f.privates f.enumerableOnly).map Key.interned)

/-- The answer to a request, before anything is counted or freed. -/
def core (q : Request) (e : ScriptEngine) : q.Reply × ScriptEngine :=
  match q with
  | .openRealm => openRealm Feature.all e
  | .openBare fs => openRealm fs e
  | .closeRealm r =>
    ((), { e with machine := { e.machine with
      realms := e.machine.realms.modify r fun x => { x with isAlive := false } } })
  | .globalObject r => (.object ((e.machine.realms[r]?.getD {}).global), e)
  -- References are counted around this, for all requests alike; nothing of the machine changes.
  | .retain _ _ => ((), e)
  | .release _ _ => ((), e)
  | .takeException _ => takePending e
  | .newText r s => runValue r (do
      let t := Text.ofString s
      checkedText t.size fun _ => t) e
  | .newBig _ n => (.bigint n, e)
  | .newObject r => runValue r (do
      reserve 64
      pure (.object (← newObject))) e
  | .newArray r => runValue r (do
      reserve 64
      newArray #[]) e
  | .newError r => runValue r (do
      let id ← alloc .error .errorPrototype
      Mem.putHidden id "stack" (.str "")
      pure (.object id)) e
  | .keyOfText _ s => (Key.ofText (Text.ofString s), e)
  | .keyOfIndex _ n => (Key.ofNat n.toNat, e)
  | .keyOfValue r v => run r (do
      sound v
      toKey v) e
  | .valueOfKey _ k => (k.toValue, e)
  | .textOfKey _ k => (.string (e.machine.keyText k), e)
  | .get r v k => runValue r (getOf v k) e
  | .getNamed r v n => runValue r (getOf v (Key.ofText (txt n))) e
  | .set r t k v => run r (do
      let id ← objectOf t
      setProp id k v
      pure true) e
  | .has r t k => run r (do hasProperty (← objectOf t) k) e
  | .hasOwn r t k => run r (do hasOwn (← objectOf t) k) e
  | .delete r t k => run r (do pure ((← delete (← objectOf t) k) == .done)) e
  | .ownKeys r t f => run r (do chosenKeys (← objectOf t) f) e
  | .call r f this args => runValue r (call f this args.toArray) e
  | .construct r f args => runValue r (construct f args.toArray f) e
  | .isInstance r v c => run r (instanceOf v c) e
  | .isError _ v =>
    (match v with
      | .object id =>
        match e.machine.body id with
        | .error => true
        | _ => false
      | _ => false, e)
  | .isFunction _ v => (e.machine.callable v, e)
  | .isConstructor _ v => (e.machine.constructs v, e)
  | .toBool _ v => (v == .uninitialized || truthy v, e)
  | .toInt32 r v => run r (toInt32 v) e
  | .toUInt32 r v => run r (do pure (← toInt32 v).toUInt32) e
  | .toInt64 r v => run r (toInt64 v) e
  | .toFloat r v => run r (toFloat v) e
  | .toBigInt64 r v => run r (do pure (Int64.ofInt (Int.bmod (← toBigInt v) (twoTo 64)))) e
  | .toText r v => run r (do pure (← toText v).toHostString) e
  | .evaluate r s file mode => runValue r (do
      needsRoom
      evaluateSource file mode (Text.ofString s)) e
  | .readJson r s file => runValue r (do
      needsRoom
      Builtin.readJson file (Text.ofString s)) e
  | .writeJson r v => runValue r (Builtin.jsonText {} v) e
  | .copyBuffer r bytes => runValue r (bufferOf bytes none) e
  | .lendBuffer r bytes _ token => runValue r (bufferOf bytes (some token)) e
  | .bufferRegion r v => run r (regionOf v) e
  | .viewInfo r v => run r (viewOf v) e
  | .readRegion id offset length => ((e.machine.region id).extract offset (offset + length), e)
  | .writeRegion id offset bytes =>
    let ((), e) := change e.machine.realm
      (Eval.writeRegion id fun b => ElementKind.writeBytes b offset bytes.data.toList) e
    ((), e)
  | .runJob => runJob e
  -- What is held by no one is given back behind every request, this one included.
  | .collect => ((), e)
  | .shutDown =>
    ((), { e with
      pending := none
      machine := { e.machine with
        realms := e.machine.realms.map fun x => { x with isAlive := false } }
      queue := #[] })

/-! ## Freeing after an answer -/

/-- Whether something may be let go of while a request is answered with a reply. -/
def mayFree (e : ScriptEngine) : (q : Request) → q.Reply → Bool
  | .closeRealm _, _ | .set _ _ _ _, _ | .delete _ _ _, _ | .call _ _ _ _, _
  | .construct _ _ _, _ | .get _ _ _, _ | .getNamed _ _ _, _ | .has _ _ _, _ | .hasOwn _ _ _, _
  | .ownKeys _ _ _, _ | .isInstance _ _ _, _ | .toInt32 _ _, _ | .toUInt32 _ _, _
  | .toInt64 _ _, _ | .toFloat _ _, _ | .toBigInt64 _ _, _ | .toText _ _, _ | .keyOfValue _ _, _
  | .evaluate _ _ _ _, _ | .readJson _ _ _, _ | .writeJson _ _, _ => true
  | .runJob, reply =>
    match (reply : JobEnd) with
    | .idle => false
    | .done | .failed _ => true
  | .release _ rs, _ => rs.any fun r =>
    match r with
    | .value (.object id) => e.ledger.count (.value (.object id)) == 0
    | _ => false
  | _, _ => false

/-- What the host and the engine keep alive. -/
def roots (e : ScriptEngine) : List Node :=
  let thrown := match e.pending with
    | some v => Node.ofValue v
    | none => []
  e.ledger.heldObjects.map .object ++
    (thrown ++ e.queue.toList.flatMap fun j => .realm j.1 :: Node.ofJob j.2)

/-- Frees after an answer. -/
def tidy (q : Request) (reply : q.Reply) (e : ScriptEngine) : ScriptEngine :=
  match q with
  | .collect => { e with machine := e.machine.collect e.roots (e.machine.heap.size + 1) }
  | .shutDown => { e with machine := e.machine.collect [] (e.machine.heap.size + 1) }
  | q =>
    if e.machine.watched && e.mayFree q reply then
      { e with machine := e.machine.settle e.roots (e.machine.heap.size + 1) }
    else e

/-- After a request that does not ask for it, what is freed is only what may have been let go of. -/
theorem tidy_eq {q : Request} (hq : q ≠ .collect ∧ q ≠ .shutDown) (reply : q.Reply)
    (e : ScriptEngine) : tidy q reply e = if e.machine.watched && e.mayFree q reply then
      { e with machine := e.machine.settle e.roots (e.machine.heap.size + 1) } else e := by
  cases q with
  | collect => exact absurd rfl hq.1
  | shutDown => exact absurd rfl hq.2
  | _ => rfl

/-- After a request that can let go of nothing, nothing is freed. -/
theorem tidy_idle {q : Request} (hq : q ≠ .collect ∧ q ≠ .shutDown) {reply : q.Reply}
    {e : ScriptEngine} (hidle : e.mayFree q reply = false) : tidy q reply e = e := by
  rw [tidy_eq hq, hidle, Bool.and_false, if_neg Bool.false_ne_true]

/-- The engine once lent memory was given back and what was put off waits behind the other work. -/
def rested (e : ScriptEngine) : ScriptEngine :=
  { e with machine := { e.machine with released := #[], jobs := #[] }
           queue := e.queue ++ e.machine.jobs }

/-- The answer to a request. -/
def answer (q : Request) (e : ScriptEngine) : Response q ScriptEngine :=
  let (reply, e) := core q e
  let e := { e with ledger := e.ledger.after q reply }
  let e := tidy q reply e
  ⟨reply, e.rested, e.machine.released.toList⟩

instance : Engine ScriptEngine := ⟨answer⟩

end ScriptEngine

end ScriptHost
