import ScriptHost.Text.Shown
/-!
# Quoted text in diagnostics

The form in which a diagnostic shows a string: between double quotes, with quotes, backslashes and
characters that do not print written as escapes.
-/

namespace ScriptHost

namespace Quoted

/-- Lower-case hexadecimal digits, without leading zeros. -/
def hex (n : Nat) : String := String.ofList (Nat.toDigits 16 n)

/-- Hexadecimal digits, filled with zeros up to `width`. -/
def hexWidth (width n : Nat) : String :=
  let d := Nat.toDigits 16 n
  String.ofList (List.replicate (width - d.length) '0' ++ d)

/-- One character of a quoted string. -/
def escape (c : Char) : String :=
  let n := c.toNat
  if n == 0 then "\\0"
  else if c == '\t' then "\\t"
  else if c == '\n' then "\\n"
  else if c == '\r' then "\\r"
  else if c == '"' then "\\\""
  else if c == '\\' then "\\\\"
  else if n < 0x20 || n ≥ 0x7F && Shown.isHidden n then "\\u\x7b" ++ hex n ++ "\x7d"
  else c.toString

/-- The quoted form of a host string. -/
def quote (s : String) : String :=
  s.foldl (fun acc c => acc ++ escape c) "\"" ++ "\""

end Quoted

end ScriptHost
