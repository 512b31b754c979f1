import ScriptHost.Builtin.Objects
import ScriptHost.Text.Case
/-!
# Texts and symbols
-/

namespace ScriptHost

namespace Builtin

open Eval

/-! ## Symbols -/

/-- The text that shows a symbol. -/
def symbolText (id : Nat) : Eval Text := do
  pure (txt "Symbol(" ++ ((← get).symbolInfo id).description.getD Text.empty ++ txt ")")

/-- Makes a symbol. -/
def symbolConstructor (c : NativeCall) : Eval Value := do
  if !c.target.isUndefined then typeError "not a constructor"
  let d ← if (c.arg 0).isUndefined then pure none else do pure (some (← toText (c.arg 0)))
  pure (.symbol (← Mem.newSymbol { description := d }))

/-- The symbol that the receiver is or stands for. -/
def thisSymbol (v : Value) : Eval Nat := do
  match v with
  | .symbol s => pure s
  | v =>
    match ← bodyOf v with
    | some (_, .symbol s) => pure s
    | _ => typeError "not a symbol"

/-- The symbol registered under a text. -/
def registeredSymbol (t : Text) : Eval Value := do
  let m ← get
  match m.symbols.findIdx? (fun s => s.registered && s.description == some t) with
  | some i => pure (.symbol i)
  | none => do pure (.symbol (← Mem.newSymbol { description := some t, registered := true }))

/-- Functions of the constructor of symbols. -/
def symbolStatics : Array Native := #[
  method "for" 1 fun c => do registeredSymbol (← toText (c.arg 0)),
  method "keyFor" 1 fun c => do
    match c.arg 0 with
    | .symbol s => do
      let info := (← get).symbolInfo s
      if info.registered then pure (.string (info.description.getD Text.empty)) else pure .undefined
    | _ => typeError "not a symbol"]

/-- What symbols inherit. -/
def symbolPrototype : Array Native := #[
  method "toString" 0 fun c => do pure (.string (← symbolText (← thisSymbol c.this))),
  method "valueOf" 0 fun c => do pure (.symbol (← thisSymbol c.this)),
  getter "description" fun c => do
    match ((← get).symbolInfo (← thisSymbol c.this)).description with
    | some t => pure (.string t)
    | none => pure .undefined,
  method "@toPrimitive" 1 fun c => do pure (.symbol (← thisSymbol c.this))]

/-! ## Texts -/

/-- Makes a text, or an object that stands for one. -/
def stringConstructor (c : NativeCall) : Eval Value := do
  let t ← if c.args.size == 0 then pure Text.empty
    else
      match c.target.isUndefined, c.arg 0 with
      | true, .symbol s => symbolText s
      | _, v => toText v
  if c.target.isUndefined then pure (.string t)
  else
    let id ← allocFor (.string t) c.target .stringPrototype
    Mem.putProperty id (Key.str "length") (.frozen (Value.ofNat t.size))
    pure (.object id)

/-- The text of the receiver, which may not be null or undefined. -/
def thisText (c : NativeCall) : Eval Text := do
  if c.this.isNullish then typeError "null or undefined are forbidden"
  toText c.this

/-- A text, a position and a length from a call. -/
def positionArg (v : Value) (absent : Int) : Eval Int := do
  if v.isUndefined then pure absent else toInteger v

/-- Whether a value is a regular expression as far as methods of texts go. -/
def isRegexp (v : Value) : Eval Bool := do
  match v with
  | .object id => do
    match ← getProp id (.symbol WellKnown.matcher) with
    | .undefined => do
      match ← body id with
      | .regexp _ _ => pure true
      | _ => pure false
    | m => pure (truthy m)
  | _ => pure false

/-- An argument of a method that takes no regular expressions. -/
def plainTextArg (c : NativeCall) (i : Nat) : Eval Text := do
  if ← isRegexp (c.arg i) then typeError "regexp not supported"
  toText (c.arg i)

/-- Writes a replacement: `$` stands for parts of the match. -/
def expandReplacement (template whole matched : Text) (pos : Nat) (kept : Array Value)
    (named : Value) : Eval Text := do
  go (template.size + 1) 0 Text.empty
where
  /-- The same from a position on. -/
  go : Nat → Nat → Text → Eval Text
    | 0, _, out => pure out
    | fuel + 1, i, out => do
      match template.get? i with
      | none => pure out
      | some u =>
        if u != 36 then go fuel (i + 1) (out.push u)
        else
          let d := template.at' (i + 1)
          let group (n : Nat) : Eval Text := do
            match kept[n]? with
            | some .undefined | none => pure Text.empty
            | some v => toText v
          if d == 36 then go fuel (i + 2) (out.push 36)
          else if d == 38 then go fuel (i + 2) (out ++ matched)
          else if d == 96 then go fuel (i + 2) (out ++ whole.slice 0 pos)
          else if d == 39 then go fuel (i + 2) (out ++ whole.slice (pos + matched.size) whole.size)
          else if 48 ≤ d && d ≤ 57 then
            let one := d - 48
            let e := template.at' (i + 2)
            let two := if 48 ≤ e && e ≤ 57 then one * 10 + (e - 48) else 0
            if two ≥ 1 && two < kept.size then go fuel (i + 3) (out ++ (← group two))
            else if one ≥ 1 && one < kept.size then go fuel (i + 2) (out ++ (← group one))
            else go fuel (i + 1) (out.push u)
          else if d == 60 && !named.isUndefined then
            match template.indexOf? (txt ">") (i + 2) with
            | some j => do
              let v ← getOf named (Key.ofText (template.slice (i + 2) j))
              let t ← if v.isUndefined then pure Text.empty else toText v
              go fuel (j + 1) (out ++ t)
            | none => go fuel (i + 1) (out.push u)
          else go fuel (i + 1) (out.push u)

/-- Replaces the first or every occurrence of a text. -/
def replaceText (c : NativeCall) (all : Bool) : Eval Value := do
  if c.this.isNullish then typeError "cannot convert to object"
  let pattern := c.arg 0
  if !pattern.isNullish then
    if all then
      if ← isRegexp pattern then
        let flags ← toText (← getField pattern "flags")
        if (flags.indexOf? (txt "g") 0).isNone then typeError "regexp must have the 'g' flag"
    if pattern.isObject then
      match ← getMethod pattern (.symbol WellKnown.replace) with
      | some f => return ← call f pattern #[c.this, c.arg 1]
      | none => pure ()
  let t ← toText c.this
  let p ← toText pattern
  let isFn ← callable (c.arg 1)
  let template ← if isFn then pure Text.empty else toText (c.arg 1)
  let rec places : Nat → Nat → List Nat
    | 0, _ => []
    | fuel + 1, i =>
      match t.indexOf? p i with
      | some j => j :: (if all then places fuel (j + max 1 p.size) else [])
      | none => []
  let mut out := Text.empty
  let mut last := 0
  for j in places (t.size + 2) 0 do
    let r ← if isFn then toText (← call (c.arg 1) .undefined #[.string p, Value.ofNat j, .string t])
      else expandReplacement template t p j #[] .undefined
    out := out ++ t.slice last j ++ r
    last := j + p.size
  pure (.string (out ++ t.slice last t.size))

/-- Hands a method over to a regular expression. -/
def viaRegexp (c : NativeCall) (symbol : Nat) (flags : String) : Eval Value := do
  if c.this.isNullish then typeError "cannot convert to object"
  let r := c.arg 0
  if r.isObject then
    if symbol == WellKnown.matchAll then
      if ← isRegexp r then
        let fs ← toText (← getField r "flags")
        if (fs.indexOf? (txt "g") 0).isNone then typeError "regexp must have the 'g' flag"
    match ← getMethod r (.symbol symbol) with
    | some f => return ← call f r #[c.this]
    | none => pure ()
  let t ← toText c.this
  let source ← if r.isUndefined then pure (txt "(?:)") else toText r
  let id ← newRegexp source (txt flags) (← intrinsic .regexpPrototype)
  invoke (.object id) (.symbol symbol) #[.string t]

/-- Fills a text up to a length. -/
def pad (c : NativeCall) (atEnd : Bool) : Eval Value := do
  let t ← thisText c
  let n ← toLength (c.arg 0)
  if n ≤ t.size then pure (.string t)
  else
    let fill ← if (c.arg 1).isUndefined then pure (txt " ") else toText (c.arg 1)
    if fill.isEmpty then pure (.string t)
    else
      let need := n - t.size
      checkedText n fun _ =>
        let f := (fill.repeatTimes (need / fill.size + 1)).slice 0 need
        if atEnd then t ++ f else f ++ t

/-- Cuts a text at every occurrence of another. -/
def cutText (t sep : Text) (limit : Nat) : Array Value :=
  if sep.isEmpty then (t.units.map fun u => Value.string (Text.single u)).extract 0 limit
  else
    let rec go : Nat → Nat → Array Value → Array Value
      | 0, _, out => out
      | fuel + 1, i, out =>
        match t.indexOf? sep i with
        | some j => go fuel (j + sep.size) (out.push (.string (t.slice i j)))
        | none => out.push (.string (t.slice i t.size))
    (go (t.size + 2) 0 #[]).extract 0 limit

/-- Wraps a text in a tag. -/
def tagged (name tag attr : String) : Native :=
  method name (if attr.isEmpty then 0 else 1) fun c => do
    let t ← thisText c
    let a ← if attr.isEmpty then pure Text.empty
      else do
        let v ← toText (c.arg 0)
        let quoted := Text.joinWith (txt "&quot;") ((cutText v (txt "\"") (twoTo 32)).toList.map fun
          | .string s => s
          | _ => Text.empty)
        pure (txt (" " ++ attr ++ "=\"") ++ quoted ++ txt "\"")
    pure (.string (txt ("<" ++ tag) ++ a ++ txt ">" ++ t ++ txt ("</" ++ tag ++ ">")))

/-- A text without unpaired surrogates. -/
def mended (t : Text) : Text :=
  t.points.foldl (fun acc n => acc.pushPoint (if 0xD800 ≤ n && n < 0xE000 then 0xFFFD else n))
    Text.empty

/-- Functions of the constructor of texts. -/
def stringStatics : Array Native := #[
  method "fromCharCode" 1 fun c => do
    let us ← c.args.mapM fun v => do pure (UInt16.ofNat ((← toInt32 v).toUInt32.toNat % 65536))
    pure (.string ⟨us⟩),
  method "fromCodePoint" 1 fun c => do
    let mut t := Text.empty
    for v in c.args do
      let d ← toFloat v
      match Binary.asInteger? d with
      | some n =>
        if 0 ≤ n && n ≤ 0x10FFFF then t := t.pushPoint n.toNat else rangeError "invalid code point"
      | none => rangeError "invalid code point"
    pure (.string t),
  method "raw" 1 fun c => do
    let cooked ← toObject (c.arg 0)
    let raw ← toObject (← getNamed cooked "raw")
    let n ← lengthOf raw
    let mut t := Text.empty
    for i in [0:n] do
      t := t ++ (← toText (← getProp raw (Key.ofNat i)))
      if i + 1 < n && i + 1 < c.args.size then t := t ++ (← toText (c.arg (i + 1)))
    pure (.string t)]

/-- What texts inherit. -/
def stringPrototype : Array Native := #[
  method "at" 1 fun c => do
    let t ← thisText c
    let i ← toInteger (c.arg 0)
    let i := if i < 0 then i + t.size else i
    if i < 0 then pure .undefined
    else
      match t.get? i.toNat with
      | some u => pure (.string (Text.single u))
      | none => pure .undefined,
  method "charCodeAt" 1 fun c => do
    let t ← thisText c
    let i ← toInteger (c.arg 0)
    if i < 0 then pure (.float Binary.nan)
    else
      match t.get? i.toNat with
      | some u => pure (Value.ofNat u.toNat)
      | none => pure (.float Binary.nan),
  method "charAt" 1 fun c => do
    let t ← thisText c
    let i ← toInteger (c.arg 0)
    if i < 0 then pure (.string Text.empty)
    else
      match t.get? i.toNat with
      | some u => pure (.string (Text.single u))
      | none => pure (.string Text.empty),
  method "concat" 1 fun c => do
    let mut t ← thisText c
    for v in c.args do
      match ← concatText t (← toText v) with
      | .string s => t := s
      | _ => pure ()
    pure (.string t),
  method "codePointAt" 1 fun c => do
    let t ← thisText c
    let i ← toInteger (c.arg 0)
    if i < 0 || i ≥ t.size then pure .undefined
    else pure (Value.ofNat (t.pointAt i.toNat).1),
  method "isWellFormed" 0 fun c => do
    let t ← thisText c
    pure (.bool (t.points.all fun n => !(0xD800 ≤ n && n < 0xE000))),
  method "toWellFormed" 0 fun c => do pure (.string (mended (← thisText c))),
  method "indexOf" 1 fun c => do
    let t ← thisText c
    let p ← toText (c.arg 0)
    let i ← toInteger (c.arg 1)
    pure (match t.indexOf? p (min (max i 0) t.size).toNat with
      | some j => Value.ofNat j
      | none => .int (-1)),
  method "lastIndexOf" 1 fun c => do
    let t ← thisText c
    let p ← toText (c.arg 0)
    let d ← toFloat (c.arg 1)
    let i : Int := if d.isNaN then t.size else match integerPart d with
      | .ok n => n
      | .error neg => if neg then 0 else t.size
    if p.size > t.size then pure (.int (-1))
    else
      pure (match t.lastIndexOf? p (min (max i 0) (t.size - p.size : Nat)).toNat with
        | some j => Value.ofNat j
        | none => .int (-1)),
  method "includes" 1 fun c => do
    let t ← thisText c
    let p ← plainTextArg c 0
    let i ← toInteger (c.arg 1)
    pure (.bool (t.indexOf? p (min (max i 0) t.size).toNat).isSome),
  method "endsWith" 1 fun c => do
    let t ← thisText c
    let p ← plainTextArg c 0
    let i ← positionArg (c.arg 1) t.size
    let stop := (min (max i 0) t.size).toNat
    pure (.bool (p.size ≤ stop && t.matchesAt p (stop - p.size))),
  method "startsWith" 1 fun c => do
    let t ← thisText c
    let p ← plainTextArg c 0
    let i ← toInteger (c.arg 1)
    pure (.bool (t.matchesAt p (min (max i 0) t.size).toNat)),
  method "match" 1 fun c => viaRegexp c WellKnown.matcher "",
  method "matchAll" 1 fun c => viaRegexp c WellKnown.matchAll "g",
  method "search" 1 fun c => viaRegexp c WellKnown.search "",
  method "split" 2 fun c => do
    if c.this.isNullish then typeError "cannot convert to object"
    if (c.arg 0).isObject then
      match ← getMethod (c.arg 0) (.symbol WellKnown.split) with
      | some f => return ← call f (c.arg 0) #[c.this, c.arg 1]
      | none => pure ()
    let t ← toText c.this
    let limit ← if (c.arg 1).isUndefined then pure (twoTo 32 - 1) else toUInt32 (c.arg 1)
    let sep ← toText (c.arg 0)
    if limit == 0 then newArray #[]
    else if (c.arg 0).isUndefined then newArray #[.string t]
    else newArray (cutText t sep limit),
  method "substring" 2 fun c => do
    let t ← thisText c
    let a ← toInteger (c.arg 0)
    let b ← positionArg (c.arg 1) t.size
    let x := (min (max a 0) t.size).toNat
    let y := (min (max b 0) t.size).toNat
    pure (.string (t.slice (min x y) (max x y))),
  method "substr" 2 fun c => do
    let t ← thisText c
    let start ← relativeIndex (c.arg 0) t.size 0
    let n ← positionArg (c.arg 1) (t.size - start : Nat)
    pure (.string (t.slice start (min (start + (max n 0).toNat) t.size))),
  method "slice" 2 fun c => do
    let t ← thisText c
    let a ← relativeIndex (c.arg 0) t.size 0
    let b ← relativeIndex (c.arg 1) t.size t.size
    pure (.string (t.slice a (max a b))),
  method "repeat" 1 fun c => do
    let t ← thisText c
    let n ← toInteger (c.arg 0)
    if n < 0 || n ≥ twoTo 31 then rangeError "invalid repeat count"
    checkedText (t.size * n.toNat) fun _ => t.repeatTimes n.toNat,
  method "replace" 2 fun c => replaceText c false,
  method "replaceAll" 2 fun c => replaceText c true,
  method "padEnd" 1 fun c => pad c true,
  method "padStart" 1 fun c => pad c false,
  method "trim" 0 fun c => do pure (.string (← thisText c).trim),
  method "trimEnd" 0 fun c => do pure (.string (← thisText c).trimEnd),
  method "trimStart" 0 fun c => do pure (.string (← thisText c).trimStart),
  method "toString" 0 thisStringValue,
  method "valueOf" 0 thisStringValue,
  method "toLowerCase" 0 fun c => do pure (.string (← thisText c).toLower),
  method "toUpperCase" 0 fun c => do pure (.string (← thisText c).toUpper),
  method "toLocaleLowerCase" 0 fun c => do pure (.string (← thisText c).toLower),
  method "toLocaleUpperCase" 0 fun c => do pure (.string (← thisText c).toUpper),
  method "localeCompare" 1 fun c => do
    let t ← thisText c
    let u ← toText (c.arg 0)
    pure (match t.compare u with
      | .lt => .int (-1)
      | .eq => .int 0
      | .gt => .int 1),
  method "normalize" 0 fun c => do
    let t ← thisText c
    if !(c.arg 0).isUndefined then
      let f ← toText (c.arg 0)
      if !([txt "NFC", txt "NFD", txt "NFKC", txt "NFKD"].contains f) then
        rangeError "bad normalization form"
    pure (.string t),
  method "@iterator" 0 fun c => do
    let t ← thisText c
    pure (.object (← alloc (.stringIterator t 0) .stringIteratorPrototype)),
  tagged "anchor" "a" "name",
  tagged "big" "big" "",
  tagged "blink" "blink" "",
  tagged "bold" "b" "",
  tagged "fixed" "tt" "",
  tagged "fontcolor" "font" "color",
  tagged "fontsize" "font" "size",
  tagged "italics" "i" "",
  tagged "link" "a" "href",
  tagged "small" "small" "",
  tagged "strike" "strike" "",
  tagged "sub" "sub" "",
  tagged "sup" "sup" ""]
where
  /-- The text that the receiver is or stands for. -/
  thisStringValue (c : NativeCall) : Eval Value := do
    match c.this with
    | .string t => pure (.string t)
    | v =>
      match ← bodyOf v with
      | some (_, .string t) => pure (.string t)
      | _ => typeError "not a string"

/-- What walks over the characters of a text inherit. -/
def stringIterator : Array Native := #[
  method "next" 0 fun c => do
    match ← bodyOf c.this with
    | some (id, .stringIterator t pos) =>
      if pos < t.size then do
        let (_, w) := t.pointAt pos
        setBody id (.stringIterator t (pos + w))
        iterResult (.string (t.slice pos (pos + w))) false
      else do
        setBody id (.stringIterator Text.empty 0)
        iterResult .undefined true
    | _ => typeError "String Iterator object expected"]

end Builtin

end ScriptHost
