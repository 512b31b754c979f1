import ScriptHost.Document.Basic
/-!
# Data that a host hands over

Data of the host's own types and how each is written as a document.  A map can be written only if
its keys are strings or integers.
-/

namespace ScriptHost

/-- Data of the host's own types. -/
inductive HostData where
  /-- A document; its objects are written in ascending order of keys. -/
  | document (d : Document)
  | real (d : Float)
  | text (s : String)
  | bytes (b : ByteArray)
  | nothing
  | integer (n : Int)
  /-- A map from integers to words. -/
  | keyedByIntegers
  /-- A map from byte strings. -/
  | keyedByBytes
  /-- A record of an identifier, a flag and two tags. -/
  | order (id : Document)
  /-- A dot, a circle and a rectangle. -/
  | shapes
deriving Inhabited

namespace HostData

/-- The document for data, if there is one. -/
def toDocument : HostData → Except String Document
  | document d => .ok d.sorted
  | real d => .ok (.real d)
  | text s => .ok (.string s)
  | bytes b => .ok (.array (b.data.toList.map fun x => .integer x.toNat))
  | nothing => .ok .null
  | integer n => .ok (.integer n)
  | keyedByIntegers =>
    .ok (.object [("-1", .string "neg"), ("0", .string "zero"), ("2", .string "two"),
      ("10", .string "ten")])
  | keyedByBytes => .error "key must be a string"
  | order id =>
    .ok (.object [("id", id.sorted), ("active", .bool true),
      ("tags", .array [.string "a", .string "b"])])
  | shapes =>
    .ok (.array [.string "Dot", .object [("Circle", .integer (-3))],
      .object [("Rect", .object [("w", .integer 1), ("h", .integer 255)])]])

end HostData

end ScriptHost
