import ScriptHost.Session.Make
/-!
# Performing steps

What each operation does and what it answers.  What a step makes is kept in the slot that it names
before it is described, so it stays there even if describing it stops the step.
-/

namespace ScriptHost

namespace Session

variable {σ : Type} [Engine σ]

/-- How many regions are lent. -/
def pinned : Play σ Answer := do pure (.count (← act Host.pinned))

/-! ## Contexts and the runtime -/

/-- Makes a context whose number must not be in use. -/
def openWith (c : ContextId) (x : Action σ Unit) : Play σ Answer := do
  if (← getThe (Session σ)).host.contexts.contains c then trouble (.badInput "context exists")
  act x
  pure (.pending (← act (Host.pendingReleases c)))

/-- Gives back the slots of a context and ends it. -/
def endContext (c : ContextId) (x : Action σ Unit) : Play σ Unit := do
  let _ ← context c
  dropSlotsOf c
  act x

/-- What there is to know about a context. -/
def contextState (c : ContextId) : Play σ Answer := do
  let _ ← context c
  pure (.context (← act (Host.contextState c)))

/-- What there is to know about the runtime. -/
def runtime : Play σ Answer := do
  let s := (← getThe (Session σ)).host.settings
  pure (.runtime s (Host.runtimeDiagnostic s))

/-- Lends regions until one is refused. -/
def lendUntilRefused (c : ContextId) : Play σ Answer := do
  let _ ← context c
  let (refused, balanced) ← act (Host.lendUntilRefused c)
  pure (.lending refused balanced (← act Host.pinned))

/-- The global object of a context, of which a view is kept. -/
def global (c : ContextId) (dest : Option SlotName) : Play σ Answer := do
  let _ ← context c
  let h ← act (Host.globalOf c)
  if dest.isSome then keep dest (.view h)
  pure (.value (← act (Host.describe h)))

/-! ## Keys -/

/-- The answer to a step that made a key: its description. -/
def madeKey (dest : Option SlotName) (k : KeyHandle) : Play σ Answer := do
  match dest with
  | some _ => do
    keep dest (.key k)
    pure (.key (← act (Host.describeKey k)))
  | none => do pure (.key (← act (Host.holdingKey k Host.describeKey)))

/-- Makes a key in a context. -/
def makeKey (c : ContextId) (dest : Option SlotName) (x : Action σ KeyHandle) : Play σ Answer := do
  madeKey dest (← inside c x)

/-- Hands a key to the end of its context; a view of it is kept. -/
def keepKeyToEnd (name : SlotName) (dest : Option SlotName) : Play σ Answer := do
  let k ← act (Host.keepKeyToEnd (← takeKey name))
  if dest.isSome then keep dest (.keyView k)
  pure (.pending (← act (Host.pendingReleases k.context)))

/-- The own keys of an object; the first one is kept. -/
def ownKeys (name : SlotName) (bits : Int32) (dest : Option SlotName) : Play σ Answer := do
  let h ← value name
  match KeyFilter.ofBits? bits with
  | none => trouble (.badInput "unknown filter bits")
  | some f => do
    let ks ← act (Host.ownKeys h f)
    let ds ← tryCatch (act (ks.mapM Host.describeKey)) fun e => do
      act (Host.dropKeys ks)
      throw e
    match dest, ks with
    | some _, k :: rest => do
      keep dest (.key k)
      act (Host.dropKeys rest)
    | _, ks => act (Host.dropKeys ks)
    pure (.keys ds)

/-! ## Calls -/

/-- Binds a receiver and leading arguments to a function. -/
def bind (name : SlotName) (this : Option Operand) (leading : List Operand)
    (dest : Option SlotName) : Play σ Answer := do
  let f ← value name
  withOperand? f.context this fun this => withOperands f.context leading fun args => do
    let b ← act (Host.bind f this args)
    keep dest (.bound b)
    pure (.leading b.leadingCount)

/-- Calls a function. -/
def call (name : SlotName) (this : Option Operand) (args : List Operand) (dest : Option SlotName) :
    Play σ Answer := do
  let f ← value name
  withOperand? f.context this fun this => withOperands f.context args fun args => do
    made dest (← act (Host.call f this args))

/-- Does something with a value and arguments that makes a value. -/
def callWith (h : Handle) (args : List Operand) (dest : Option SlotName)
    (x : List Handle → Action σ Handle) : Play σ Answer :=
  withOperands h.context args fun args => do made dest (← act (x args))

/-! ## Properties -/

/-- The name of a property that a path stands for. -/
def propertyName : PropertyPath → Play σ PropertyName
  | .text s => pure (.text s)
  | .index i => pure (.index i)
  | .slot name => do pure (.key (← key name))

/-- The value to be written: moved out of its slot, or a reference of its own. -/
def valueToSet (c : ContextId) (target : SlotName) (o : Operand) (keepIt : Bool) :
    Play σ Handle := do
  match o with
  | .made own m => make (own.getD c) m
  | .slot name => do
    if name == target && !keepIt then trouble (.badInput "val moves its own target")
    match ← slot name with
    | .value h => do
      if keepIt then act (Host.dupe h)
      else
        clear name
        pure h
    | .view h => act (Host.dupe h)
    | _ => trouble (.wrongSlot name "a value")

/-- Writes a property. -/
def setProperty (target : SlotName) (path : PropertyPath) (o : Operand) (keepIt : Bool) :
    Play σ Answer := do
  let h ← value target
  let n ← propertyName path
  let v ← valueToSet h.context target o keepIt
  act (Host.set h n v)
  pure .nothing

/-- Does something with a property. -/
def withProperty {α : Type} (target : SlotName) (path : PropertyPath)
    (x : Handle → PropertyName → Action σ α) : Play σ α := do
  let h ← value target
  let n ← propertyName path
  act (x h n)

/-! ## Values -/

/-- Hands a value to the end of its context; a view of it is kept. -/
def keepToEnd (name : SlotName) (dest : Option SlotName) : Play σ Answer := do
  let h ← act (Host.keepToEnd (← takeValue name))
  if dest.isSome then keep dest (.view h)
  pure (.pending (← act (Host.pendingReleases h.context)))

/-- Gives a reference up and back by hand. -/
def giveUp (name : SlotName) : Play σ Answer := do
  let h ← takeValue name
  act (Host.drop h)
  pure (.reference h.value.isCounted h.value.tag)

/-- Every conversion of a value. -/
def convert (h : Handle) : Action σ Answer := do
  let results ← Conversion.all.mapM fun c => do pure (c, ← Host.attempt (Host.convertTo h c))
  pure (.conversions results)

/-- The record of an error. -/
def toError (h : Handle) : Action σ Answer := do
  match ← Host.errorRecord? h with
  | some e => pure (.record e)
  | none => pure .nothing

/-- What a typed array looks at; its buffer is kept. -/
def arrayInfo (name : SlotName) (dest : Option SlotName) : Play σ Answer := do
  let h ← value name
  let i ← act (Host.arrayInfo h)
  let report ← tryCatch (act (Host.infoDiagnostic i)) fun e => do
    act (Host.drop i.buffer)
    throw e
  keep dest (.value i.buffer)
  pure (.arrayInfo i.offset i.length i.elementSize report)

/-- Writes bytes through a shared view and reads the whole view. -/
def writeShared (h : Handle) (bytes : ByteArray) (start : Nat) : Play σ Answer := do
  let v ← act (Host.byteView h)
  if start + bytes.size > v.length then trouble (.badInput "write outside the view")
  act (Host.writeView v start bytes)
  pure (.bytes (← act (Host.readView v)))

/-- Asks something about the value in a slot. -/
def about {α : Type} (name : SlotName) (x : Handle → Action σ α) : Play σ α := do
  let h ← value name
  act (x h)

/-! ## Steps -/

/-- What an operation answers in a context, with a slot for what it makes. -/
def perform (c : ContextId) (dest : Option SlotName) : Operation → Play σ Answer
  | .make m => do made dest (← make c m)
  | .openContext => openWith c (Host.newContext c)
  | .openBare features => openWith c (Host.newBareContext c features)
  | .freeContext => do
    endContext c (Host.freeContext c)
    contextState c
  | .dropContext => do
    endContext c (Host.dropContext c)
    pure .nothing
  | .contextState => contextState c
  | .pending => do
    let _ ← context c
    pure (.count (← act (Host.pendingReleases c)))
  | .runJobs => do
    let _ ← context c
    pure (.count (← act (Host.runPendingJobs c)))
  | .runGc => do
    act Host.runGc
    pinned
  | .pinned => pinned
  | .runtime => runtime
  | .sameRuntime other => do
    let _ ← context c
    let _ ← context other
    pure (.flag true)
  | .global => global c dest
  | .slots => do pure (.texts (← getThe (Session σ)).slots.keys)
  | .lendUntilRefused => lendUntilRefused c
  | .key s => makeKey c dest (Host.newKey c s)
  | .indexKey n => makeKey c dest (Host.newIndexKey c n)
  | .toKey name => do madeKey dest (← about name Host.toKey)
  | .describeKey name => do
    let k ← key name
    pure (.key (← act (Host.describeKey k)))
  | .reportKey name => do
    let k ← key name
    pure (.text (← act (Host.keyDiagnostic k)))
  | .keyValue name => do
    let k ← key name
    made dest (← act (Host.keyValue k))
  | .sameKey name other => do
    let k ← key name
    pure (.flag (k.key == (← key other).key))
  | .dupeKey name => do
    let k ← key name
    madeKey dest (← act (Host.dupeKey k))
  | .freeKey name => do
    let k ← takeKey name
    act (Host.dropKey k)
    pure .nothing
  | .keepKeyToEnd name => keepKeyToEnd name dest
  | .call name this args => call name this args dest
  | .construct name args => do
    let f ← value name
    callWith f args dest (Host.construct f)
  | .callMethod name method args => do
    let h ← value name
    callWith h args dest (Host.callMethod h method)
  | .bind name this leading => bind name this leading dest
  | .callBound name args => do
    let b ← bound name
    callWith b.func args dest (Host.callBound b)
  | .boundInfo name => do
    let b ← bound name
    pure (.boundInfo b.leadingCount (← act (Host.boundDiagnostic b)))
  | .drop name => do
    dropSlot name
    pinned
  | .free name => do
    let h ← takeValue name
    act (Host.drop h)
    pinned
  | .giveUp name => giveUp name
  | .keepToEnd name => keepToEnd name dest
  | .describe name => do pure (.value (← about name Host.describe))
  | .typeName name => do pure (.text (← about name Host.typeName))
  | .report name => do pure (.text (← about name Host.diagnostic))
  | .queries name => do pure (.texts (← about name Host.holds))
  | .isInstance name f => do
    let h ← value name
    withOperand h.context f fun f => do pure (.flag (← act (Host.isInstance h f.value)))
  | .isTypedArray name n => do
    let h ← value name
    let k ← elementKind n
    pure (.flag (← act (Host.isTypedArray h k)))
  | .elementKind name => do
    pure (.maybeText ((← about name Host.elementKind?).map (·.constructorName)))
  | .sameContext name other => do
    let h ← value name
    let _ ← context other
    pure (.flag (h.context == other))
  | .convertTo name k => do pure (.scalar (← about name fun h => Host.convertTo h k))
  | .convert name => about name convert
  | .toError name => about name toError
  | .get name path => do made dest (← withProperty name path Host.get)
  | .has name path => do pure (.flag (← withProperty name path Host.has))
  | .delete name path => do pure (.flag (← withProperty name path Host.delete))
  | .set name path v keepIt => setProperty name path v keepIt
  | .ownKeys name bits => ownKeys name bits dest
  | .keys name => do pure (.texts (← about name Host.keys))
  | .length name => do pure (.count (← about name Host.length))
  | .isEmpty name => do pure (.flag (← about name Host.isEmpty))
  | .toJson name => do pure (.maybeText (← about name Host.toJson))
  | .deserialize name schema => do
    pure (.ofDocument schema (← about name fun h => Host.deserialize h schema))
  | .arrayInfo name => arrayInfo name dest
  | .bytes name => do pure (.bytes (← about name Host.toByteArray))
  | .readShared name => do pure (.bytes (← about name Host.toByteArray))
  | .writeShared name bytes start => do writeShared (← value name) bytes start
  | .malformed why => trouble (.badInput why)

/-- Takes a step. -/
def take (s : Step) : Play σ Answer := perform s.context s.dest s.operation

end Session

end ScriptHost
