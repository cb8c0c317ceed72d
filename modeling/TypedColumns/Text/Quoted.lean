import TypedColumns.Text.Hidden

/-!
# Quoted text

A text inside a message is set between double quotes. Quotes, backslashes and the usual control
characters are written with a backslash; other characters that do not show on their own are written
by their code point in braces.
-/

namespace TypedColumns.Text.Quoted

/-- The digits of a number to base sixteen, in lower case. -/
def hex (n : Nat) : String := String.ofList (Nat.toDigits 16 n)

/-- The written form of one character. -/
def encodeChar (c : Char) : String :=
  match c with
  | '"' => "\\\""
  | '\\' => "\\\\"
  | '\t' => "\\t"
  | '\r' => "\\r"
  | '\n' => "\\n"
  | '\x00' => "\\0"
  | c => if isHidden c then "\\u\x7b" ++ hex c.toNat ++ "\x7d" else c.toString

/-- The text between double quotes. -/
def encode (s : String) : String :=
  "\"" ++ String.join (s.toList.map encodeChar) ++ "\""

end TypedColumns.Text.Quoted
