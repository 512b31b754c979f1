import ScriptHost.Builtin.Arrays
import ScriptHost.Builtin.Texts
import ScriptHost.Pattern.Matcher
/-!
# Regular expressions
-/

namespace ScriptHost

namespace Builtin

open Eval

/-- Makes a regular expression. -/
def regexpConstructor (c : NativeCall) : Eval Value := do
  let p := c.arg 0
  let f := c.arg 1
  let isRe ← isRegexp p
  let target ← if c.target.isUndefined then pure (Value.object c.callee) else pure c.target
  if c.target.isUndefined && isRe && f.isUndefined then
    if (← getField p "constructor") == .object c.callee then return p
  let (source, flags) ← match ← bodyOf p with
    | some (_, .regexp source pattern) =>
      pure (Value.string source, if f.isUndefined then Value.str pattern.flags.text else f)
    | _ =>
      if isRe then do
        let s ← getField p "source"
        let own ← if f.isUndefined then getField p "flags" else pure f
        pure (s, own)
      else pure (p, f)
  let s ← if source.isUndefined then pure Text.empty else toText source
  let fl ← if flags.isUndefined then pure Text.empty else toText flags
  let proto ← protoFor target .regexpPrototype
  pure (.object (← newRegexp (if s.isEmpty then txt "(?:)" else s) fl proto))

/-- The result of a match as an array. -/
def matchResult (t : Text) (p : Pattern) (kept : Array (Option (Nat × Nat))) : Eval Value := do
  let texts := kept.map fun
    | some (a, b) => Value.string (t.slice a b)
    | none => .undefined
  let start := match kept[0]?.join with
    | some (a, _) => a
    | none => 0
  let result ← newArray texts
  let groups ← if p.names.isEmpty then pure Value.undefined
    else do
      let g ← allocWith .ordinary none
      for (n, i) in p.names do
        put g (Key.ofText n) (texts[i]?.getD .undefined)
      pure (.object g)
  match result with
  | .object r => do
    put r (Key.str "index") (Value.ofNat start)
    put r (Key.str "input") (.string t)
    put r (Key.str "groups") groups
    if p.flags.hasIndices then
      let ranges ← kept.toList.mapM fun
        | some (a, b) => newArray #[Value.ofNat a, Value.ofNat b]
        | none => pure .undefined
      let indices ← newArray ranges.toArray
      match indices with
      | .object i => do
        let names ← if p.names.isEmpty then pure Value.undefined
          else do
            let g ← allocWith .ordinary none
            for (n, j) in p.names do
              put g (Key.ofText n) (ranges[j]?.getD .undefined)
            pure (.object g)
        put i (Key.str "groups") names
        put r (Key.str "indices") indices
      | _ => pure ()
  | _ => pure ()
  pure result

/-- Matches a regular expression, going on where the last match ended if it says so. -/
def execRegexp (v : Value) (t : Text) : Eval Value := do
  match ← bodyOf v with
  | some (id, .regexp _ p) => do
    let last ← toLength (← getNamed id "lastIndex")
    let goesOn := p.flags.global || p.flags.sticky
    let start := if goesOn then last else 0
    match p.matchFrom t (t.size + 2) start with
    | none => do
      if goesOn then setProp id (Key.str "lastIndex") (.int 0)
      pure .null
    | some kept => do
      if goesOn then
        match kept[0]?.join with
        | some (_, b) => setProp id (Key.str "lastIndex") (Value.ofNat b)
        | none => pure ()
      matchResult t p kept
  | _ => typeError "RegExp object expected"

/-- Matches with the `exec` of an object. -/
def execWith (v : Value) (t : Text) : Eval Value := do
  let f ← getField v "exec"
  if ← callable f then
    let r ← call f v #[.string t]
    match r with
    | .null | .object _ => pure r
    | _ => typeError "object or null expected"
  else execRegexp v t

/-- The position after an empty match. -/
def advanceIndex (t : Text) (i : Nat) (unicode : Bool) : Nat :=
  if unicode then i + max 1 (t.pointAt i).2 else i + 1

/-- Whether the flags of an object have a letter. -/
def hasFlag (flags : Text) (letter : String) : Bool := (flags.indexOf? (txt letter) 0).isSome

/-- Every match of a global regular expression. -/
def allMatches (rx : Value) (t : Text) (unicode : Bool) : Nat → Array Value → Eval (Array Value)
  | 0, out => pure out
  | fuel + 1, out => do
    match ← execWith rx t with
    | .null => pure out
    | r => do
      let m ← toText (← getOf r (.index 0))
      if m.isEmpty then
        let i ← toLength (← getField rx "lastIndex")
        setStrict rx (Key.str "lastIndex") (Value.ofNat (advanceIndex t i unicode))
      allMatches rx t unicode fuel (out.push r)

/-- The method that replaces matches in a text. -/
def replaceMatches (c : NativeCall) : Eval Value := do
  let _ ← needObject c.this
  let t ← toText (c.arg 0)
  let isFn ← callable (c.arg 1)
  let template ← if isFn then pure Text.empty else toText (c.arg 1)
  let flags ← toText (← getField c.this "flags")
  let global := hasFlag flags "g"
  let unicode := hasFlag flags "u" || hasFlag flags "v"
  let results ← if global then do
      setStrict c.this (Key.str "lastIndex") (.int 0)
      allMatches c.this t unicode (t.size + 2) #[]
    else
      match ← execWith c.this t with
      | .null => pure #[]
      | r => pure #[r]
  let mut out := Text.empty
  let mut last := 0
  for r in results do
    let id ← needObject r
    let n ← lengthOf id
    let matched ← toText (← getProp id (.index 0))
    let pos ← toInteger (← getNamed id "index")
    let pos := (min (max pos 0) t.size).toNat
    let mut kept := #[]
    for i in [0:n] do
      let v ← getProp id (Key.ofNat i)
      let text ← if v.isUndefined then pure v else do pure (.string (← toText v))
      kept := kept.push text
    let named ← getNamed id "groups"
    let text ← if isFn then do
        let args := #[Value.string matched] ++ kept.extract 1 kept.size ++
          #[Value.ofNat pos, .string t] ++ (if named.isUndefined then #[] else #[named])
        toText (← call (c.arg 1) .undefined args)
      else do
        let named ← if named.isUndefined then pure named else pure (.object (← toObject named))
        expandReplacement template t matched pos kept named
    if pos ≥ last then
      out := out ++ t.slice last pos ++ text
      last := pos + matched.size
  pure (.string (out ++ t.slice last t.size))

/-- A regular expression of the same kind with other flags. -/
def sameKind (v : Value) (flags : Text) : Eval Value := do
  let ctor ← speciesOf v (← intrinsicValue .regexpConstructor)
  construct ctor #[v, .string flags] ctor

/-- Cuts a text at the matches of a regular expression. -/
def splitMatches (c : NativeCall) : Eval Value := do
  let _ ← needObject c.this
  let t ← toText (c.arg 0)
  let flags ← toText (← getField c.this "flags")
  let unicode := hasFlag flags "u" || hasFlag flags "v"
  let rx ← sameKind c.this (if hasFlag flags "y" then flags else flags ++ txt "y")
  let limit ← if (c.arg 1).isUndefined then pure (twoTo 32 - 1) else toUInt32 (c.arg 1)
  if limit == 0 then newArray #[]
  else if t.isEmpty then
    match ← execWith rx t with
    | .null => newArray #[.string t]
    | _ => newArray #[]
  else
    let rec go : Nat → Nat → Nat → Array Value → Eval (Array Value)
      | 0, _, _, out => pure out
      | fuel + 1, p, q, out => do
        if q ≥ t.size then pure (out.push (.string (t.slice p t.size)))
        else
          setStrict rx (Key.str "lastIndex") (Value.ofNat q)
          match ← execWith rx t with
          | .null => go fuel p (advanceIndex t q unicode) out
          | r => do
            let e := min (← toLength (← getField rx "lastIndex")) t.size
            if e == p then go fuel p (advanceIndex t q unicode) out
            else
              let mut out := out.push (.string (t.slice p q))
              let id ← needObject r
              let n ← lengthOf id
              for i in [1:n] do
                out := out.push (← getProp id (Key.ofNat i))
              if out.size ≥ limit then pure out else go fuel e e out
    let parts ← go (2 * t.size + 4) 0 0 #[]
    newArray (parts.extract 0 limit)

/-- The flags that the receiver says it has. -/
def flagsOf (v : Value) : Eval Text := do
  let mut t := Text.empty
  for (name, letter) in [("hasIndices", 'd'), ("global", 'g'), ("ignoreCase", 'i'),
    ("multiline", 'm'),
      ("dotAll", 's'), ("unicode", 'u'), ("unicodeSets", 'v'), ("sticky", 'y')] do
    if truthy (← getField v name) then t := t.pushPoint letter.toNat
  pure t

/-- A flag of the receiver. -/
def flagGetter (name : String) (f : Pattern.Flags → Bool) : Native :=
  getter name fun c => do
    match ← bodyOf c.this with
    | some (_, .regexp _ p) => pure (.bool (f p.flags))
    | some (id, _) =>
      if some id == (← intrinsic .regexpPrototype) then pure .undefined
      else typeError "RegExp object expected"
    | none => typeError "not an object"

/-- The source of a pattern in a form that can be written between slashes. -/
def escapedSource (t : Text) : Text :=
  (t.units.foldl (fun (st : Text × Bool × Bool) u =>
    let (out, escaped, inClass) := st
    if escaped then (out.push u, false, inClass)
    else if u == 92 then (out.push u, true, inClass)
    else if u == 91 then (out.push u, false, true)
    else if u == 93 then (out.push u, false, false)
    else if u == 47 && !inClass then ((out.push 92).push 47, false, inClass)
    else if u == 10 then ((out.push 92).push 110, false, inClass)
    else if u == 13 then ((out.push 92).push 114, false, inClass)
    else (out.push u, false, inClass)) (Text.empty, false, false)).1

/-- Functions of the constructor of regular expressions. -/
def regexpStatics : Array Native := #[
  method "escape" 1 fun c => do
    match c.arg 0 with
    | .string t =>
      pure (.string (t.units.foldl (fun acc u =>
        if "^$\\.*+?()[]\x7b\x7d|/".toList.any (fun ch => ch.toNat == u.toNat) then
          (acc.push 92).push u
        else acc.push u) Text.empty))
    | _ => typeError "not a string",
  getter "@species" returnThis]

/-- What regular expressions inherit. -/
def regexpPrototype : Array Native := #[
  getter "flags" fun c => do
    let _ ← needObject c.this
    pure (.string (← flagsOf c.this)),
  getter "source" fun c => do
    match ← bodyOf c.this with
    | some (_, .regexp s _) => pure (.string (escapedSource s))
    | some (id, _) =>
      if some id == (← intrinsic .regexpPrototype) then pure (.str "(?:)")
      else typeError "RegExp object expected"
    | none => typeError "not an object",
  flagGetter "global" (·.global),
  flagGetter "ignoreCase" (·.ignoreCase),
  flagGetter "multiline" (·.multiline),
  flagGetter "dotAll" (·.dotAll),
  flagGetter "unicode" (·.unicode),
  flagGetter "unicodeSets" (·.unicodeSets),
  flagGetter "sticky" (·.sticky),
  flagGetter "hasIndices" (·.hasIndices),
  method "exec" 1 fun c => do
    match ← bodyOf c.this with
    | some (_, .regexp _ _) => do execRegexp c.this (← toText (c.arg 0))
    | _ => typeError "RegExp object expected",
  method "compile" 2 fun c => do
    match ← bodyOf c.this with
    | some (id, .regexp _ _) => do
      let s ← if (c.arg 0).isUndefined then pure Text.empty else toText (c.arg 0)
      let f ← if (c.arg 1).isUndefined then pure Text.empty else toText (c.arg 1)
      match Pattern.parse s f with
      | .ok p => do
        setBody id (.regexp s p)
        setProp id (Key.str "lastIndex") (.int 0)
        pure c.this
      | .error m => raise .syntactic m
    | _ => typeError "RegExp object expected",
  method "test" 1 fun c => do
    let _ ← needObject c.this
    pure (.bool ((← execWith c.this (← toText (c.arg 0))) != .null)),
  method "toString" 0 fun c => do
    let _ ← needObject c.this
    let s ← toText (← getField c.this "source")
    let f ← toText (← getField c.this "flags")
    pure (.string (txt "/" ++ s ++ txt "/" ++ f)),
  method "@replace" 2 replaceMatches,
  method "@match" 1 fun c => do
    let _ ← needObject c.this
    let t ← toText (c.arg 0)
    let flags ← toText (← getField c.this "flags")
    if !hasFlag flags "g" then execWith c.this t
    else
      setStrict c.this (Key.str "lastIndex") (.int 0)
      let rs ← allMatches c.this t (hasFlag flags "u" || hasFlag flags "v") (t.size + 2) #[]
      if rs.isEmpty then pure .null
      else do newArray (← rs.mapM fun r => getOf r (.index 0)),
  method "@matchAll" 1 fun c => do
    let _ ← needObject c.this
    let t ← toText (c.arg 0)
    let flags ← toText (← getField c.this "flags")
    let rx ← sameKind c.this flags
    setStrict rx (Key.str "lastIndex") (Value.ofNat (← toLength (← getField c.this "lastIndex")))
    pure (.object (← alloc
      (.regexpIterator rx t (hasFlag flags "g") (hasFlag flags "u" || hasFlag flags "v") false)
      .regexpIteratorPrototype)),
  method "@search" 1 fun c => do
    let _ ← needObject c.this
    let t ← toText (c.arg 0)
    let old ← getField c.this "lastIndex"
    if !(old.sameValue (.int 0)) then setStrict c.this (Key.str "lastIndex") (.int 0)
    let r ← execWith c.this t
    let now ← getField c.this "lastIndex"
    if !(now.sameValue old) then setStrict c.this (Key.str "lastIndex") old
    if r == .null then pure (.int (-1)) else getField r "index",
  method "@split" 2 splitMatches]

/-- What walks over matches inherit. -/
def regexpIterator : Array Native := #[
  method "next" 0 fun c => do
    match ← bodyOf c.this with
    | some (id, .regexpIterator rx t global unicode done) => do
      if done then iterResult .undefined true
      else
        match ← execWith rx t with
        | .null => do
          setBody id (.regexpIterator rx t global unicode true)
          iterResult .undefined true
        | r => do
          if global then
            let m ← toText (← getOf r (.index 0))
            if m.isEmpty then
              let i ← toLength (← getField rx "lastIndex")
              setStrict rx (Key.str "lastIndex") (Value.ofNat (advanceIndex t i unicode))
          else setBody id (.regexpIterator rx t global unicode true)
          iterResult r false
    | _ => typeError "RegExp String Iterator object expected"]

end Builtin

end ScriptHost
