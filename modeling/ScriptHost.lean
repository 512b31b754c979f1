import ScriptHost.Buffer.Element
import ScriptHost.Buffer.ElementKind
import ScriptHost.Builtin.Arrays
import ScriptHost.Builtin.Buffers
import ScriptHost.Builtin.Collections
import ScriptHost.Builtin.Dates
import ScriptHost.Builtin.Functions
import ScriptHost.Builtin.Globals
import ScriptHost.Builtin.Iterators
import ScriptHost.Builtin.Json
import ScriptHost.Builtin.Member
import ScriptHost.Builtin.Numbers
import ScriptHost.Builtin.Objects
import ScriptHost.Builtin.Promises
import ScriptHost.Builtin.Realm
import ScriptHost.Builtin.Reflection
import ScriptHost.Builtin.Regexps
import ScriptHost.Builtin.Table
import ScriptHost.Builtin.Texts
import ScriptHost.Client.Allocation
import ScriptHost.Client.Builtins
import ScriptHost.Client.Changes
import ScriptHost.Client.Creation
import ScriptHost.Client.Description
import ScriptHost.Client.Elements
import ScriptHost.Client.FilledArrays
import ScriptHost.Client.Freed
import ScriptHost.Client.Interchange
import ScriptHost.Client.Memory
import ScriptHost.Client.Numbers
import ScriptHost.Client.Operation
import ScriptHost.Client.OrderedMap
import ScriptHost.Client.Process
import ScriptHost.Client.Record
import ScriptHost.Client.Run
import ScriptHost.Client.Thrown
import ScriptHost.Client.Transport
import ScriptHost.Client.TypeQueries
import ScriptHost.Client.Windows
import ScriptHost.Client.Work
import ScriptHost.Code.Compiler
import ScriptHost.Code.Emit
import ScriptHost.Code.Instr
import ScriptHost.Code.Program
import ScriptHost.Document.Basic
import ScriptHost.Document.HostData
import ScriptHost.Document.Reader
import ScriptHost.Document.Schema
import ScriptHost.Engine.Access
import ScriptHost.Engine.Answer
import ScriptHost.Engine.Change
import ScriptHost.Engine.Collect
import ScriptHost.Engine.Convert
import ScriptHost.Engine.Coroutine
import ScriptHost.Engine.Eval
import ScriptHost.Engine.Evaluate
import ScriptHost.Engine.Function
import ScriptHost.Engine.Heap
import ScriptHost.Engine.Interpreter
import ScriptHost.Engine.Operators
import ScriptHost.Engine.Options
import ScriptHost.Engine.Promise
import ScriptHost.Engine.Property
import ScriptHost.Engine.Source
import ScriptHost.Engine.Step
import ScriptHost.Engine.Tag
import ScriptHost.Engine.Value
import ScriptHost.Host.Buffers
import ScriptHost.Host.Calls
import ScriptHost.Host.Collections
import ScriptHost.Host.Contexts
import ScriptHost.Host.Event
import ScriptHost.Host.Exchange
import ScriptHost.Host.Failure
import ScriptHost.Host.Handle
import ScriptHost.Host.History
import ScriptHost.Host.KeyFilter
import ScriptHost.Host.Keys
import ScriptHost.Host.Ledger
import ScriptHost.Host.Loop
import ScriptHost.Host.Pins
import ScriptHost.Host.Properties
import ScriptHost.Host.Request
import ScriptHost.Host.Scripts
import ScriptHost.Host.Settings
import ScriptHost.Host.State
import ScriptHost.Host.Values
import ScriptHost.Json.Reader
import ScriptHost.Number.Binary64
import ScriptHost.Number.Format
import ScriptHost.Number.Power
import ScriptHost.Number.Reading
import ScriptHost.Number.Shortest
import ScriptHost.Pattern.Matcher
import ScriptHost.Pattern.Reader
import ScriptHost.Pattern.Tree
import ScriptHost.Proofs.Absorption
import ScriptHost.Proofs.Accounting
import ScriptHost.Proofs.Allocating
import ScriptHost.Proofs.ArrayItems
import ScriptHost.Proofs.ArrayShapes
import ScriptHost.Proofs.Clients
import ScriptHost.Proofs.BigIntegers
import ScriptHost.Proofs.Binary
import ScriptHost.Proofs.Buffers
import ScriptHost.Proofs.BuiltValues
import ScriptHost.Proofs.Builtins
import ScriptHost.Proofs.Calls
import ScriptHost.Proofs.CanonicalKeys
import ScriptHost.Proofs.Carrying
import ScriptHost.Proofs.Changes
import ScriptHost.Proofs.Cleared
import ScriptHost.Proofs.Coherence
import ScriptHost.Proofs.Composed
import ScriptHost.Proofs.Construction
import ScriptHost.Proofs.Contexts
import ScriptHost.Proofs.Conversions
import ScriptHost.Proofs.Counting
import ScriptHost.Proofs.Creation
import ScriptHost.Proofs.Dangling
import ScriptHost.Proofs.Deferral
import ScriptHost.Proofs.Describing
import ScriptHost.Proofs.Descriptions
import ScriptHost.Proofs.DocumentReading
import ScriptHost.Proofs.Endings
import ScriptHost.Proofs.FilledArrays
import ScriptHost.Proofs.Frames
import ScriptHost.Proofs.Handles
import ScriptHost.Proofs.Identifying
import ScriptHost.Proofs.TypedArrays
import ScriptHost.Proofs.Instances
import ScriptHost.Proofs.Interchange
import ScriptHost.Proofs.Keeping
import ScriptHost.Proofs.KeyPaths
import ScriptHost.Proofs.Labels
import ScriptHost.Proofs.Leftovers
import ScriptHost.Proofs.Lexing
import ScriptHost.Proofs.Lifetimes
import ScriptHost.Proofs.Literals
import ScriptHost.Proofs.Lookup
import ScriptHost.Proofs.Marshaling
import ScriptHost.Proofs.Numerals
import ScriptHost.Proofs.ObjectsAsMaps
import ScriptHost.Proofs.Operations
import ScriptHost.Proofs.OrderedMaps
import ScriptHost.Proofs.PlainObjects
import ScriptHost.Proofs.Propagation
import ScriptHost.Proofs.Properties
import ScriptHost.Proofs.PropertyRequests
import ScriptHost.Proofs.PropertyTables
import ScriptHost.Proofs.Prototypes
import ScriptHost.Proofs.Quotations
import ScriptHost.Proofs.RangeErrors
import ScriptHost.Proofs.Rearranging
import ScriptHost.Proofs.Refusal
import ScriptHost.Proofs.Registering
import ScriptHost.Proofs.Registry
import ScriptHost.Proofs.ReportedChanges
import ScriptHost.Proofs.Reserving
import ScriptHost.Proofs.Rounding
import ScriptHost.Proofs.ScriptReading
import ScriptHost.Proofs.ScriptThrows
import ScriptHost.Proofs.Scripts
import ScriptHost.Proofs.Settling
import ScriptHost.Proofs.ShownDocuments
import ScriptHost.Proofs.SimpleObjects
import ScriptHost.Proofs.SpareKeys
import ScriptHost.Proofs.Strings
import ScriptHost.Proofs.Surveying
import ScriptHost.Proofs.Sweeping
import ScriptHost.Proofs.Tallying
import ScriptHost.Proofs.Texts
import ScriptHost.Proofs.Thrown
import ScriptHost.Proofs.Tracing
import ScriptHost.Proofs.Transport
import ScriptHost.Proofs.TypeErrors
import ScriptHost.Proofs.TypeQueries
import ScriptHost.Proofs.Values
import ScriptHost.Proofs.Viewing
import ScriptHost.Proofs.WorkQueue
import ScriptHost.Proofs.WrittenBytes
import ScriptHost.Proofs.WrittenValues
import ScriptHost.Script.Expression
import ScriptHost.Script.Lexer
import ScriptHost.Script.Parser
import ScriptHost.Script.Statement
import ScriptHost.Script.Tree
import ScriptHost.Session.Answer
import ScriptHost.Session.Make
import ScriptHost.Session.Perform
import ScriptHost.Session.Slot
import ScriptHost.Session.Step
import ScriptHost.Session.Transcript
import ScriptHost.Text.Blank
import ScriptHost.Text.Case
import ScriptHost.Text.Quoted
import ScriptHost.Text.Shown
import ScriptHost.Text.Units
