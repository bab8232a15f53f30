import SectionMonitor.Text.Unprintable

/-!
# Quoted texts

The written form of a text inside a log field: between double quotes, with an escape for the
quote, the backslash and every character that could not be read back from a terminal.
-/

namespace SectionMonitor.Text

/-- A number in lower-case hexadecimal digits without leading zeros. -/
def hexadecimal (n : Nat) : String := String.ofList (Nat.toDigits 16 n)

/-- The written form of one character. -/
def escape (c : Char) : String :=
  if c = '\x00' then "\\0"
  else if c = '\t' then "\\t"
  else if c = '\r' then "\\r"
  else if c = '\n' then "\\n"
  else if c = '"' then "\\\""
  else if c = '\\' then "\\\\"
  else if isUnprintable c then "\\u\x7b" ++ hexadecimal c.toNat ++ "\x7d"
  else c.toString

/-- A text between double quotes. -/
def quoted (s : String) : String := "\"" ++ String.join (s.toList.map escape) ++ "\""

/-- A list in brackets, given the written form of its members. -/
def bracketed (items : List String) : String := "[" ++ ", ".intercalate items ++ "]"

end SectionMonitor.Text
