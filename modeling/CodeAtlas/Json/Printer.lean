import CodeAtlas.Json.Value

/-!
Writing JSON, on one line (`compact`) or with one item a line and two spaces a level (`pretty`).
Both leave every character of a string as it is except the quote, the backslash and the controls
below U+0020; empty arrays and objects stay on their line.
-/

namespace CodeAtlas.Json

def hexDigit (n : Nat) : Char :=
  if n < 10 then Char.ofNat (48 + n) else Char.ofNat (87 + n)

/-- One character of a string. -/
def writeChar (c : Char) : List Char :=
  if c = '"' then ['\\', '"']
  else if c = '\\' then ['\\', '\\']
  else if c.toNat < 0x20 then
    if c = '\n' then ['\\', 'n']
    else if c = '\r' then ['\\', 'r']
    else if c = '\t' then ['\\', 't']
    else if c.toNat = 0x08 then ['\\', 'b']
    else if c.toNat = 0x0C then ['\\', 'f']
    else ['\\', 'u', '0', '0', hexDigit (c.toNat / 16), hexDigit (c.toNat % 16)]
  else [c]

/-- A string with its quotes. -/
def writeText (s : String) : String :=
  String.ofList ('"' :: s.toList.flatMap writeChar ++ ['"'])

/-- A value that holds no other. -/
def writeLeaf : Json → String
  | .null => "null"
  | .bool true => "true"
  | .bool false => "false"
  | .natural n => toString n
  | .negative n => "-" ++ toString n
  | .numeral digits => digits
  | .text s => writeText s
  | .array _ => "[]"
  | .object _ => "\x7b\x7d"

mutual

/-- On one line, without blanks. -/
def compact : Json → String
  | .array items => "[" ++ compactItems items ++ "]"
  | .object fields => "\x7b" ++ compactFields fields ++ "\x7d"
  | leaf => writeLeaf leaf

def compactItems : List Json → String
  | [] => ""
  | [v] => compact v
  | v :: vs => compact v ++ "," ++ compactItems vs

def compactFields : List (String × Json) → String
  | [] => ""
  | [(k, v)] => writeText k ++ ":" ++ compact v
  | (k, v) :: fs => writeText k ++ ":" ++ compact v ++ "," ++ compactFields fs

end

/-- The start of a line at a nesting level. -/
def margin (level : Nat) : String :=
  String.ofList (List.replicate (2 * level) ' ')

mutual

/-- A value whose first line is already indented by `level`. -/
def prettyAt (level : Nat) : Json → String
  | .array (v :: vs) => "[\n" ++ prettyItems (level + 1) (v :: vs) ++ "\n" ++ margin level ++ "]"
  | .object (f :: fs) =>
    "\x7b\n" ++ prettyFields (level + 1) (f :: fs) ++ "\n" ++ margin level ++ "\x7d"
  | leaf => writeLeaf leaf

def prettyItems (level : Nat) : List Json → String
  | [] => ""
  | [v] => margin level ++ prettyAt level v
  | v :: vs => margin level ++ prettyAt level v ++ ",\n" ++ prettyItems level vs

def prettyFields (level : Nat) : List (String × Json) → String
  | [] => ""
  | [(k, v)] => margin level ++ writeText k ++ ": " ++ prettyAt level v
  | (k, v) :: fs =>
    margin level ++ writeText k ++ ": " ++ prettyAt level v ++ ",\n" ++ prettyFields level fs

end

/-- With one item a line and two spaces a level. -/
def pretty (v : Json) : String :=
  prettyAt 0 v

end CodeAtlas.Json
