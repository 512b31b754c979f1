import ScriptHost.Document.HostData
import ScriptHost.Document.Schema
import ScriptHost.Host.Collections
/-!
# Exchange of data as text

The engine reads and writes interchange text itself; documents of the host travel as such text in
both directions.
-/

namespace ScriptHost

namespace Host

variable {σ : Type} [Engine σ]

/-- The file name under which faults in interchange text are reported. -/
def exchangeFile : String := "<json>"

/-- The value that a text stands for. -/
def parseJson (c : ContextId) (text : String) : Action σ Handle := do
  check c (← ask (.readJson (← live c) text exchangeFile))

/-- The value for a document. -/
def ofDocument (c : ContextId) (d : Document) : Action σ Handle := parseJson c d.render

/-- The value for data of the host. -/
def serialize (c : ContextId) (d : HostData) : Action σ Handle := do
  match d.toDocument with
  | .ok d => ofDocument c d
  | .error e => fail (.json e)

/-- The text for a value; none if it has no such form. -/
def toJson (h : Handle) : Action σ (Option String) := do
  let v ← check h.context (← ask (.writeJson (← live h.context) h.value))
  holding v fun v => do
    if v.value == .undefined then pure none else do pure (some (← toText v))

/-- The document of an expected shape that a text stands for. -/
def decode (s : Schema) (text : String) : Action σ Document := do
  match s.decode text with
  | .ok d => pure d
  | .error e => fail (.json e)

/-- The document of an expected shape that a value stands for. -/
def deserialize (h : Handle) (s : Schema) : Action σ Document := do
  match ← toJson h with
  | none => do fail (.wrongType "JSON-serializable value" (← typeName h))
  | some text => decode s text

end Host

end ScriptHost
