import ScriptHost.Builtin.Member
import ScriptHost.Json.Reader
/-!
# JSON functions

Reading text into values and writing values as text, for scripts and for the host.
-/

namespace ScriptHost

namespace Builtin

open Eval

/-! ## Reading -/

mutual

/-- The value of a document. -/
def ofJson : Json → Eval Value
  | .null => pure .null
  | .bool b => pure (.bool b)
  | .number d => pure (.float d)
  | .string t => pure (.string t)
  | .array items => do newArray (← ofItems items #[])
  | .object members => do
    let id ← newObject
    putMembers id members
    pure (.object id)

/-- The values of items. -/
def ofItems : List Json → Array Value → Eval (Array Value)
  | [], out => pure out
  | d :: ds, out => do
    let v ← ofJson d
    ofItems ds (out.push v)

/-- Puts the values of members on an object. -/
def putMembers (id : Nat) : List (Text × Json) → Eval Unit
  | [] => pure ()
  | (k, d) :: ms => do
    put id (Key.ofText k) (← ofJson d)
    putMembers id ms

end

/-- Reads JSON text. -/
def readJson (file : String) (t : Text) : Eval Value := do
  let units := t.units.toList
  match Json.read units with
  | .ok d => ofJson d
  | .error f =>
    let (message, line) := f.report units
    throwFault file (.malformed message line)

/-- How deep values may be nested when a function walks over them. -/
def walkDepth : Nat := 2000

/-- Lets a function change what was read, from the inside out. -/
def revive (f : Value) : Nat → Nat → Key → Eval Value
  | 0, _, _ => stackOverflow
  | fuel + 1, holder, k => do
    let v ← getProp holder k
    match v with
    | .object id => do
      let keys ← if ← isArray v then do pure ((List.range (← lengthOf id)).map Key.ofNat)
        else enumerableKeys id
      for k in keys do
        match ← revive f fuel id k with
        | .undefined => do
          let _ ← delete id k
        | x => do
          let _ ← define id k (.plain x)
    | _ => pure ()
    call f (.object holder) #[k.toValue, v]

/-- Reads JSON text for a script. -/
def parseForScript (c : NativeCall) : Eval Value := do
  let v ← readJson "<input>" (← toText (c.arg 0))
  if ← callable (c.arg 1) then do
    let holder ← newObject
    put holder (.name Text.empty) v
    revive (c.arg 1) walkDepth holder (.name Text.empty)
  else pure v

/-! ## Writing -/

/-- How values are written. -/
structure JsonStyle where
  /-- A function that may replace each value. -/
  replacer : Value := .undefined
  /-- The names of the members to be written; none for all. -/
  names : Option (List Key) := none
  /-- What each level is set off by. -/
  gap : Text := Text.empty

/-- What stands for a value when it is written; undefined for what is left out. -/
def jsonForm (style : JsonStyle) (holder : Nat) (k : Key) (v : Value) : Eval Value := do
  let v ← match v with
    | .object _ | .bigint _ => do
      let f ← getField v "toJSON"
      if ← callable f then call f v #[k.toValue] else pure v
    | v => pure v
  let v ← if style.replacer.isUndefined then pure v
    else call style.replacer (.object holder) #[k.toValue, v]
  match v with
  | .object _ => if ← callable v then pure .undefined else pure v
  | .string _ | .int _ | .float _ | .bool _ | .null | .bigint _ => pure v
  | .exception => throw .uninitialized
  | _ => pure .undefined

/-- The primitive value that an object stands for when it is written. -/
def unwrapped (v : Value) : Eval Value := do
  match ← bodyOf v with
  | some (_, .string _) => do pure (.string (← toText v))
  | some (_, .number _) => toNumber v
  | some (_, .boolean b) => pure (.bool b)
  | some (_, .bigint n) => pure (.bigint n)
  | _ => pure v

/-- Appends the text of a value. -/
def writeJson (style : JsonStyle) : Nat → List Nat → Text → Value → Text → Eval Text
  | 0, _, _, _, _ => stackOverflow
  | fuel + 1, open', indent, v, out => do
    match ← unwrapped v with
    | .object id => do
      if open'.contains id then typeError "circular reference"
      let inner := indent ++ style.gap
      let lead := if style.gap.isEmpty then Text.empty else txt "\n" ++ inner
      let tail := if style.gap.isEmpty then Text.empty else txt "\n" ++ indent
      if ← isArray v then do
        let n ← lengthOf id
        let mut out := out.push 91
        for i in [0:n] do
          if i > 0 then out := out.push 44
          out := out ++ lead
          let x ← getProp id (Key.ofNat i)
          let x ← jsonForm style id (Key.ofNat i) x
          let x := if x.isUndefined then .null else x
          out ← writeJson style fuel (id :: open') inner x out
        pure ((if n > 0 then out ++ tail else out).push 93)
      else do
        -- A list of names is gone through in its own order; what the object lacks is left out.
        let keys ← match style.names with
          | some names => pure names
          | none => enumerableKeys id
        let mut out := out.push 123
        let mut first := true
        for k in keys do
          let x ← getProp id k
          let x ← jsonForm style id k x
          if !x.isUndefined then
            if !first then out := out.push 44
            first := false
            out := out ++ lead ++ Json.quote ((k.text?).getD Text.empty)
            out := out.push 58
            if !style.gap.isEmpty then out := out.push 32
            out ← writeJson style fuel (id :: open') inner x out
        pure ((if first then out else out ++ tail).push 125)
    | .string t => pure (out ++ Json.quote t)
    | .float d =>
        if d.isFinite then do pure (out ++ (← toText (.float d))) else pure (out ++ txt "null")
    | .bigint _ => typeError "BigInt are forbidden in JSON.stringify"
    | v => do pure (out ++ (← toText v))

/-- The text of a value; none if it has no JSON form. -/
def jsonText (style : JsonStyle) (v : Value) : Eval Value := do
  let holder ← newObject
  put holder (.name Text.empty) v
  match ← jsonForm style holder (.name Text.empty) v with
  | .undefined => pure .undefined
  | v => do
    let t ← writeJson style walkDepth [] Text.empty v Text.empty
    checkedText t.size fun _ => t

/-- The names that a list allows. -/
def allowedNames (v : Value) : Eval (List Key) := do
  match v with
  | .object id => do
    let n ← lengthOf id
    let mut out : List Key := []
    for i in [0:n] do
      let x ← getProp id (Key.ofNat i)
      let named ← match x with
        | .string _ | .int _ | .float _ => pure true
        | x => do
          match ← bodyOf x with
          | some (_, .string _) | some (_, .number _) => pure true
          | _ => pure false
      if named then
        let k := Key.ofText (← toText x)
        if !out.contains k then out := k :: out
    pure out.reverse
  | _ => pure []

/-- What sets off levels, from an argument. -/
def gapOf (v : Value) : Eval Text := do
  let v ← match ← bodyOf v with
    | some (_, .number _) => toNumber v
    | some (_, .string _) => do pure (.string (← toText v))
    | _ => pure v
  match v with
  | .int _ | .float _ => do
    let n ← toInteger v
    pure ((txt " ").repeatTimes (min 10 n.toNat))
  | .string t => pure (t.slice 0 10)
  | _ => pure Text.empty

/-- Writes a value for a script. -/
def writeForScript (c : NativeCall) : Eval Value := do
  let style : JsonStyle ← if ← callable (c.arg 1) then pure { replacer := c.arg 1 }
    else if ← isArray (c.arg 1) then do pure { names := some (← allowedNames (c.arg 1)) }
    else pure {}
  jsonText { style with gap := ← gapOf (c.arg 2) } (c.arg 0)

/-- Functions of the object for JSON. -/
def json : Array Native := #[
  method "parse" 2 parseForScript,
  method "stringify" 3 writeForScript]

end Builtin

end ScriptHost
