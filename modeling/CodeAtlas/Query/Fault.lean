import CodeAtlas.Text.Words
import CodeAtlas.Text.Utf8

/-!
Why a query does not compile, and where.  A fault is found at a place in the query text, given by
the text that is left there; its message names the line and column, both from 1, with columns in
bytes.
-/

namespace CodeAtlas

/-- What is wrong at a place of a query text. -/
inductive QueryFault where
  /-- A node kind or token that the grammar does not have. -/
  | unknownKind
  /-- A field that the grammar does not have. -/
  | unknownField
  /-- A predicate on a label that captures nothing. -/
  | unknownCapture
  /-- The text is not a pattern. -/
  | malformed
  /-- A predicate whose arguments make no sense. -/
  | badPredicate (reason : String)
deriving DecidableEq, Repr

/-- A fault and the query text that is left where it was found. -/
structure QueryStop where
  fault : QueryFault
  rest : List Char
deriving DecidableEq, Repr

namespace QueryStop

def isNameChar (c : Char) : Bool :=
  c.isAlphanum || c == '_' || c == '-' || 0x80 ≤ c.toNat

/-- A quoted token up to its closing quote. -/
def quotedName : List Char → List Char
  | [] => []
  | '"' :: _ => []
  | '\\' :: c :: rest => '\\' :: c :: quotedName rest
  | c :: rest => c :: quotedName rest

/-- The name at the place of a fault; a token's name starts right after its quote. -/
def nameAt (before rest : List Char) : String :=
  if before.getLast? == some '"' then String.ofList (quotedName rest)
  else String.ofList (rest.takeWhile isNameChar)

/-- The row of a byte offset, the offset of its line, and the line, if the offset lies in one. -/
def lineAt (offset : Nat) : List (List Char) → Nat → Nat → Nat × Nat × Option (List Char)
  | [], row, lineStart => (row, lineStart, none)
  | line :: lines, row, lineStart =>
    let lineEnd := lineStart + Text.Utf8.byteLength line + 1
    if offset < lineEnd then (row, lineStart, some line) else lineAt offset lines (row + 1) lineEnd

/-- The message at a row and a column that count from 0. -/
def located (row column : Nat) (words : String) : String :=
  "Query error at " ++ toString (row + 1) ++ ":" ++ toString (column + 1) ++ ". " ++ words

def message (source : String) (stop : QueryStop) : String :=
  let cs := source.toList
  let before := cs.take (cs.length - stop.rest.length)
  let offset := Text.Utf8.byteLength before
  let (row, lineStart, line) := lineAt offset (Text.lines cs) 0 0
  let column := offset - lineStart
  match stop.fault with
  | .unknownKind => located row column ("Invalid node type " ++ nameAt before stop.rest)
  | .unknownField => located row column ("Invalid field name " ++ nameAt before stop.rest)
  | .unknownCapture => located row column ("Invalid capture name " ++ nameAt before stop.rest)
  | .malformed =>
    match line with
    | some text =>
      located row column ("Invalid syntax:\n" ++ String.ofList text ++ "\n" ++
        String.ofList (List.replicate column ' ') ++ "^")
    | none => located row column "Invalid syntax:\nUnexpected EOF"
  | .badPredicate reason =>
    located (before.count '\n') 0 ("Invalid predicate: " ++ reason)

end QueryStop

end CodeAtlas
