/-
# Quoted text

A text for inspection stands between double quotes.  The quote itself, the backslash and four
controls have short escapes; any other character without a shape is given by its code point in
hexadecimal, between braces.
-/
import MessageBus.Text.Hidden

namespace MessageBus.Text

/-- A number in lower-case hexadecimal. -/
def hexadecimal (n : Nat) : String := String.ofList (Nat.toDigits 16 n)

/-- What stands for a character in a quoted text. -/
def escape (c : Char) : String :=
  match c with
  | '\x00' => "\\0"
  | '\t' => "\\t"
  | '\n' => "\\n"
  | '\r' => "\\r"
  | '"' => "\\\""
  | '\\' => "\\\\"
  | c => if isHidden c then "\\u\x7b" ++ hexadecimal c.toNat ++ "\x7d" else c.toString

/-- The text between quotes. -/
def quoted (s : String) : String := "\"" ++ String.join (s.toList.map escape) ++ "\""

end MessageBus.Text
