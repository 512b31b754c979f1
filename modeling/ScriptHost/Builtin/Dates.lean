import ScriptHost.Builtin.Numbers
/-!
# Dates

A date is a number of milliseconds from the first day of 1970; days are counted by the Gregorian
calendar, carried back without end.  The local time is the universal time.
-/

namespace ScriptHost

namespace Builtin

open Eval

/-! ## The calendar -/

/-- Milliseconds of a day. -/
def dayLength : Int := 86400000

/-- Days from the first of 1970 to the first of March of year zero and back, by 400 years. -/
def daysOf (year month day : Int) : Int :=
  let y := if month < 2 then year - 1 else year
  let era := y.fdiv 400
  let yoe := y - era * 400
  let mp := (month + 10) % 12
  let doy := (153 * mp + 2) / 5 + day - 1
  let doe := yoe * 365 + yoe / 4 - yoe / 100 + doy
  era * 146097 + doe - 719468

/-- Year, month from zero, and day of a number of days. -/
def civil (days : Int) : Int × Int × Int :=
  let z := days + 719468
  let era := z.fdiv 146097
  let doe := z - era * 146097
  let yoe := (doe - doe / 1460 + doe / 36524 - doe / 146096) / 365
  let doy := doe - (365 * yoe + yoe / 4 - yoe / 100)
  let mp := (5 * doy + 2) / 153
  let d := doy - (153 * mp + 2) / 5 + 1
  let m := if mp < 10 then mp + 2 else mp - 10
  (yoe + era * 400 + (if m < 2 then 1 else 0), m, d)

/-- The parts of a time: year, month, day, hour, minute, second, millisecond, day of the week. -/
structure DateParts where
  year : Int
  month : Int
  day : Int
  hour : Int
  minute : Int
  second : Int
  milli : Int
  weekday : Int

/-- The parts of a time. -/
def partsOf (t : Int) : DateParts :=
  let days := t.fdiv dayLength
  let ms := t - days * dayLength
  let (y, m, d) := civil days
  ⟨y, m, d, ms / 3600000, ms / 60000 % 60, ms / 1000 % 60, ms % 1000, (days + 4).fmod 7⟩

/-- The time of parts, which may lie outside their usual bounds. -/
def timeOf (year month day hour minute second milli : Int) : Int :=
  let y := year + month.fdiv 12
  let m := month.fmod 12
  (daysOf y m 1 + day - 1) * dayLength + hour * 3600000 + minute * 60000 + second * 1000 + milli

/-- A time within bounds, or no time. -/
def clipTime (t : Int) : Float :=
  if t.natAbs > 8640000000000000 then Binary.nan else Binary.ofInt t

/-- Digits filled with zeros. -/
def digits2 (width : Nat) (n : Int) : String := String.ofList (NumberText.padded width n.natAbs)

/-- Names of months. -/
def monthNames : List String :=
  ["Jan", "Feb", "Mar", "Apr", "May", "Jun", "Jul", "Aug", "Sep", "Oct", "Nov", "Dec"]

/-- Names of the days of the week. -/
def dayNames : List String := ["Sun", "Mon", "Tue", "Wed", "Thu", "Fri", "Sat"]

/-- A year in a date for people. -/
def yearText (y : Int) : String := (if y < 0 then "-" else "") ++ digits2 (if y < 0 then 6 else 4) y

/-- The date of a time in the standard form. -/
def isoText (t : Int) : String :=
  let p := partsOf t
  let y := if 0 ≤ p.year && p.year ≤ 9999 then digits2 4 p.year
    else (if p.year < 0 then "-" else "+") ++ digits2 6 p.year
  y ++ "-" ++ digits2 2 (p.month + 1) ++ "-" ++ digits2 2 p.day ++ "T" ++ digits2 2 p.hour ++ ":" ++
    digits2 2 p.minute ++ ":" ++ digits2 2 p.second ++ "." ++ digits2 3 p.milli ++ "Z"

/-- The day of a time for people. -/
def dayText (p : DateParts) : String :=
  dayNames.getD p.weekday.toNat "" ++ " " ++ monthNames.getD p.month.toNat "" ++ " " ++
    digits2 2 p.day ++ " " ++ yearText p.year

/-- The hour of a time for people. -/
def hourText (p : DateParts) : String :=
  digits2 2 p.hour ++ ":" ++ digits2 2 p.minute ++ ":" ++ digits2 2 p.second

/-! ## Reading -/

/-- Numbers written with so many digits, and what follows. -/
def readDigits (n : Nat) (cs : List Char) : Option (Int × List Char) :=
  let ds := cs.take n
  if ds.length == n && ds.all Numeral.isDigit then some (Numeral.ofDigits 10 ds, cs.drop n)
  else none

/-- A date in the standard form. -/
def readIso (t : String) : Option Int := do
  let cs := t.toList
  let (year, cs) ← match cs with
    | '+' :: r => readDigits 6 r
    | '-' :: r => (readDigits 6 r).map fun (y, r) => (-y, r)
    | cs => readDigits 4 cs
  let part (sep : Char) (cs : List Char) : Option (Option Int × List Char) :=
    match cs with
    | c :: r => if c == sep then (readDigits 2 r).map fun (n, r) => (some n, r) else some (none, cs)
    | [] => some (none, [])
  let (month, cs) ← part '-' cs
  let (day, cs) ← if month.isSome then part '-' cs else some (none, cs)
  let build (h m s ms : Int) : Option Int :=
    let mo := month.getD 1
    let d := day.getD 1
    if mo < 1 || mo > 12 || d < 1 || d > 31 || h > 24 || m > 59 || s > 59 then none
    else some (timeOf year (mo - 1) d h m s ms)
  match cs with
  | [] => build 0 0 0 0
  | c :: r =>
    if c != 'T' && c != ' ' then none
    else do
      let (h, r) ← readDigits 2 r
      let (m, r) ← part ':' r
      let m ← m
      let (s, r) ← part ':' r
      let (ms, r) := match r with
        | '.' :: r =>
          let ds := r.takeWhile Numeral.isDigit
          ((Numeral.ofDigits 10 ((ds ++ ['0', '0', '0']).take 3) : Int),
            r.dropWhile Numeral.isDigit)
        | r => (0, r)
      let time ← build h m (s.getD 0) ms
      match r with
      | [] => some time
      | ['Z'] => some time
      | sign :: r =>
        if sign != '+' && sign != '-' then none
        else do
          let (oh, r) ← readDigits 2 r
          let r := match r with
            | ':' :: r => r
            | r => r
          let (om, r) ← readDigits 2 r
          if !r.isEmpty then none
          else
            let off := (oh * 60 + om) * 60000
            some (if sign == '+' then time - off else time + off)

/-- A date as a text shows it to people. -/
def readLong (t : String) : Option Int := do
  let words := (t.toList.splitOn ' ').map (String.ofList ·) |>.filter (· != "")
  let words := words.map fun w => (w.toList.filter (· != ',')) |> String.ofList
  -- The day of the week is passed over, even if it is the wrong one.
  let words := match words with
    | w :: r => if dayNames.contains ((w.take 3).toString) then r else words
    | [] => []
  let month? (w : String) : Option Int :=
    (monthNames.findIdx? (· == (w.take 3).toString)).map (Int.ofNat ·)
  let (mo, d, y, rest) ← match words with
    | a :: b :: c :: rest =>
      match month? a, month? b with
      | some m, _ => do pure (m, ← b.toInt?, ← c.toInt?, rest)
      | _, some m => do pure (m, ← a.toInt?, ← c.toInt?, rest)
      | _, _ => none
    | _ => none
  match rest with
  | [] => some (timeOf y mo d 0 0 0 0)
  | clock :: _ =>
    match (clock.toList.splitOn ':').map fun cs => (String.ofList cs).toInt? with
    | [some h, some m, some s] => some (timeOf y mo d h m s 0)
    | [some h, some m] => some (timeOf y mo d h m 0 0)
    | _ => none

/-- The time that a text writes. -/
def readDate (t : Text) : Float :=
  let s := t.trim.toHostString
  match readIso s with
  | some n => clipTime n
  | none =>
    match readLong s with
    | some n => clipTime n
    | none => Binary.nan

/-! ## Objects -/

/-- The year that a written number means: two digits stand for the last century. -/
def fullYear (written : Int) : Int :=
  if 0 ≤ written ∧ written ≤ 99 then written + 1900 else written

/-- The whole number at a place of a list, or the one that stands for an absent place. -/
def partAt (ds : List Float) (i : Nat) (absent : Int) : Int :=
  match ds[i]? with
  | some d => (Binary.trunc? d).getD 0
  | none => absent

/-- The time that arguments write: year, month and so on. -/
def timeOfArgs (c : NativeCall) : Eval Float := do
  let ds ← (c.args.extract 0 7).toList.mapM toFloat
  if ds.any (fun d => !d.isFinite) then pure Binary.nan
  else
    let at' := partAt ds
    pure (clipTime (timeOf (fullYear (at' 0 0)) (at' 1 0) (at' 2 1) (at' 3 0) (at' 4 0) (at' 5 0)
      (at' 6 0)))

/-- The text of a date for people. -/
def longText (d : Float) : String :=
  match Binary.asInteger? d with
  | some t =>
    let p := partsOf t
    dayText p ++ " " ++ hourText p ++ " GMT+0000"
  | none => "Invalid Date"

/-- Makes a date. -/
def dateConstructor (c : NativeCall) : Eval Value := do
  if c.target.isUndefined then pure (.str (longText 0))
  else
    let t ← match c.args.size with
      | 0 => pure (0 : Float)
      | 1 => do
        match ← bodyOf (c.arg 0) with
        | some (_, .date t) => pure t
        | _ =>
          match ← toPrimitive (c.arg 0) .any with
          | .string s => pure (readDate s)
          | v => do
            let d ← toFloat v
            match Binary.trunc? d with
            | some n => pure (clipTime n)
            | none => pure Binary.nan
      | _ => timeOfArgs c
    pure (.object (← allocFor (.date t) c.target .datePrototype))

/-- The time of the receiver. -/
def thisTime (c : NativeCall) : Eval (Nat × Float) := do
  match ← bodyOf c.this with
  | some (id, .date t) => pure (id, t)
  | _ => typeError "not a Date object"

/-- A part of the time of the receiver, under two names. -/
def datePart (name : String) (f : DateParts → Int) : Array Native :=
  #["get" ++ name, "getUTC" ++ name].map fun n =>
    method n 0 fun c => do
      let (_, t) ← thisTime c
      match Binary.asInteger? t with
      | some t => pure (Value.ofInt (f (partsOf t)))
      | none => pure (.float Binary.nan)

/-- Sets parts of the time of the receiver from one on, under two names. -/
def setPart (name : String) (first count : Nat) : Array Native :=
  #["set" ++ name, "setUTC" ++ name].map fun n =>
    method n count fun c => do
      let (id, t) ← thisTime c
      let ds ← (c.args.extract 0 count).toList.mapM toFloat
      let base : Option Int := match Binary.asInteger? t with
        | some t => some t
        -- Setting the year is the one way to make a date of what is none.
        | none => if first == 0 then some 0 else none
      let result := match base with
        | none => Binary.nan
        | some t =>
          if ds.isEmpty || ds.any fun d => !d.isFinite then Binary.nan
          else
            let p := partsOf t
            let old := [p.year, p.month, p.day, p.hour, p.minute, p.second, p.milli]
            let now := old.zipIdx.map fun (x, i) =>
              if i < first then x
              else
                match ds[i - first]? with
                | some d => (Binary.trunc? d).getD 0
                | none => x
            match now with
            | [y, mo, d, h, mi, s, ms] => clipTime (timeOf y mo d h mi s ms)
            | _ => Binary.nan
      setBody id (.date result)
      pure (Value.ofFloat result)

/-- Functions of the constructor of dates. -/
def dateStatics : Array Native := #[
  method "now" 0 fun _ => pure (.int 0),
  method "parse" 1 fun c => do pure (Value.ofFloat (readDate (← toText (c.arg 0)))),
  method "UTC" 7 fun c => do
    if c.args.isEmpty then pure (.float Binary.nan) else do pure (Value.ofFloat (← timeOfArgs c))]

/-- Functions of the object that measures time, which stands still here. -/
def clock : Array Native := #[method "now" 0 fun _ => pure (.int 0)]

/-- A text made from the time of the receiver. -/
def dateText (name : String) (f : DateParts → String) : Native :=
  method name 0 fun c => do
    let (_, t) ← thisTime c
    match Binary.asInteger? t with
    | some t => pure (.str (f (partsOf t)))
    | none => pure (.str "Invalid Date")

/-- What dates inherit. -/
def datePrototype : Array Native := #[
  method "valueOf" 0 fun c => do pure (Value.ofFloat (← thisTime c).2),
  dateText "toString" (fun p => dayText p ++ " " ++ hourText p ++ " GMT+0000"),
  method "@toPrimitive" 1 fun c => do
    let _ ← needObject c.this
    match c.arg 0 with
    | .string t =>
      if t == txt "number" then ordinaryPrimitive c.this ["valueOf", "toString"]
      else if t == txt "string" || t == txt "default" then
        ordinaryPrimitive c.this ["toString", "valueOf"]
      else typeError "invalid hint"
    | _ => typeError "invalid hint",
  dateText "toUTCString" (fun p =>
    dayNames.getD p.weekday.toNat "" ++ ", " ++ digits2 2 p.day ++ " " ++
      monthNames.getD p.month.toNat "" ++ " " ++ yearText p.year ++ " " ++ hourText p ++ " GMT"),
  method "toISOString" 0 fun c => do
    let (_, t) ← thisTime c
    match Binary.asInteger? t with
    | some t => pure (.str (isoText t))
    | none => rangeError "Date value is NaN",
  dateText "toDateString" dayText,
  dateText "toTimeString" (fun p => hourText p ++ " GMT+0000"),
  dateText "toLocaleString" (fun p =>
    digits2 2 (p.month + 1) ++ "/" ++ digits2 2 p.day ++ "/" ++ yearText p.year ++ ", " ++
      hourText p),
  dateText "toLocaleDateString" (fun p =>
    digits2 2 (p.month + 1) ++ "/" ++ digits2 2 p.day ++ "/" ++ yearText p.year),
  dateText "toLocaleTimeString" hourText,
  method "getTimezoneOffset" 0 fun c => do
    let (_, t) ← thisTime c
    pure (if t.isNaN then .float Binary.nan else .int 0),
  method "getTime" 0 fun c => do pure (Value.ofFloat (← thisTime c).2),
  method "getYear" 0 fun c => do
    let (_, t) ← thisTime c
    match Binary.asInteger? t with
    | some t => pure (Value.ofInt ((partsOf t).year - 1900))
    | none => pure (.float Binary.nan)]
  ++ datePart "FullYear" (·.year) ++ datePart "Month" (·.month) ++ datePart "Date" (·.day)
  ++ datePart "Hours" (·.hour) ++ datePart "Minutes" (·.minute) ++ datePart "Seconds" (·.second)
  ++ datePart "Milliseconds" (·.milli) ++ datePart "Day" (·.weekday)
  ++ #[method "setTime" 1 fun c => do
      let (id, _) ← thisTime c
      let d ← toFloat (c.arg 0)
      let t := match Binary.trunc? d with
        | some n => clipTime n
        | none => Binary.nan
      setBody id (.date t)
      pure (Value.ofFloat t)]
  ++ setPart "Milliseconds" 6 1 ++ setPart "Seconds" 5 2 ++ setPart "Minutes" 4 3
  ++ setPart "Hours" 3 4 ++ setPart "Date" 2 1 ++ setPart "Month" 1 2 ++ setPart "FullYear" 0 3
  ++ #[method "toJSON" 1 fun c => do
      let id ← toObject c.this
      match ← toPrimitive (.object id) .number with
      | .float d =>
          if d.isFinite then invoke (.object id) (Key.str "toISOString") #[] else pure .null
      | _ => invoke (.object id) (Key.str "toISOString") #[]]

end Builtin

end ScriptHost
