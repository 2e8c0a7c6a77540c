/-!
A place in a text, with the line and the column that indentation is measured in.
-/

namespace CodeAtlas.Yaml

/-- Line feed, carriage return, next line, and the line and paragraph separators. -/
def isBreak (c : Char) : Bool :=
  c == '\n' || c == '\r' || c.toNat == 0x85 || c.toNat == 0x2028 || c.toNat == 0x2029

def isGap (c : Char) : Bool :=
  c == ' ' || c == '\t'

/-- A character that a document may hold. -/
def isAllowed (c : Char) : Bool :=
  let n := c.toNat
  n == 0x09 || n == 0x0A || n == 0x0D || (0x20 ≤ n && n ≤ 0x7E) || n == 0x85 ||
    (0xA0 ≤ n && n ≤ 0xFFFD) || 0x10000 ≤ n

/-- Letters and digits of ASCII, the hyphen and the underscore. -/
def isWordChar (c : Char) : Bool :=
  c.isAlphanum || c == '_' || c == '-'

/-- A place in a text: what is ahead, the line and column counted from zero, and the number of
characters behind. -/
structure Cursor where
  ahead : List Char
  line : Nat
  column : Nat
  behind : Nat
deriving Repr, Inhabited

namespace Cursor

def start (text : String) : Cursor := ⟨text.toList, 0, 0, 0⟩

def peek? (c : Cursor) (n : Nat) : Option Char := c.ahead[n]?

def sees (c : Cursor) (x : Char) (n : Nat) : Bool := c.peek? n == some x

/-- Whether the end of the text, a break or a gap is `n` places ahead. -/
def seesSpace (c : Cursor) (n : Nat) : Bool :=
  match c.peek? n with
  | none => true
  | some x => isGap x || isBreak x

def seesGap (c : Cursor) : Bool :=
  match c.ahead with
  | [] => false
  | x :: _ => isGap x

def seesBreak (c : Cursor) : Bool :=
  match c.ahead with
  | [] => false
  | x :: _ => isBreak x

def seesLineEnd (c : Cursor) : Bool := c.ahead.isEmpty || c.seesBreak

def next (c : Cursor) : Cursor :=
  ⟨c.ahead.tail, c.line, c.column + 1, c.behind + 1⟩

def skip (c : Cursor) (n : Nat) : Cursor :=
  ⟨c.ahead.drop n, c.line, c.column + n, c.behind + n⟩

/-- Past the characters ahead that satisfy `p`, and those characters. -/
def takeWhile (c : Cursor) (p : Char → Bool) : List Char × Cursor :=
  let taken := c.ahead.takeWhile p
  (taken, c.skip taken.length)

/-- The start of the next line, when a break is ahead. -/
def nextLine (c : Cursor) : Cursor :=
  match c.ahead with
  | '\r' :: '\n' :: more => ⟨more, c.line + 1, 0, c.behind + 2⟩
  | x :: more => if isBreak x then ⟨more, c.line + 1, 0, c.behind + 1⟩ else c
  | [] => c

/-- The break ahead as it counts in a text: the separators count as themselves and every other break
as a line feed. -/
def breakText (c : Cursor) : List Char :=
  match c.ahead with
  | [] => []
  | x :: _ =>
    if !isBreak x then []
    else if x.toNat == 0x2028 || x.toNat == 0x2029 then [x]
    else ['\n']

/-- Whether a line of three equal marks, `---` or `...`, starts here. -/
def seesMarks (c : Cursor) (x : Char) : Bool :=
  c.column == 0 && c.sees x 0 && c.sees x 1 && c.sees x 2 && c.seesSpace 3

/-- Whether a mark between documents starts here. -/
def seesDocumentMark (c : Cursor) : Bool := c.seesMarks '-' || c.seesMarks '.'

end Cursor

end CodeAtlas.Yaml
