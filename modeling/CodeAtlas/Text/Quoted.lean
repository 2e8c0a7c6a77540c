import CodeAtlas.Text.Unprintable

/-!
Quoted text as messages show it: double quotes around it, a backslash before a quote or a
backslash, short escapes for the common controls, and the code point in braces for every other
character that does not show as itself.
-/

namespace CodeAtlas.Text

/-- A natural number in lower-case hexadecimal digits, without leading zeros. -/
def hexDigits (n : Nat) : String :=
  String.ofList (Nat.toDigits 16 n)

def quotedChar (c : Char) : String :=
  match c with
  | '\x00' => "\\0"
  | '\t' => "\\t"
  | '\n' => "\\n"
  | '\r' => "\\r"
  | '"' => "\\\""
  | '\\' => "\\\\"
  | c => if isUnprintable c then "\\u\x7b" ++ hexDigits c.toNat ++ "\x7d" else c.toString

/-- The text in double quotes. -/
def quoted (s : String) : String :=
  "\"" ++ String.join (s.toList.map quotedChar) ++ "\""

end CodeAtlas.Text
