import CodeAtlas.Text.Utf8
import CodeAtlas.Yaml.Scalar

/-!
The tokens of a text.  Indentation opens and closes blocks; a node that turns out to be a key gets its
mark, and its block's, put in front of it when the colon is met.  A key has to stand on one line, with
at most 1024 characters before its colon.
-/

namespace CodeAtlas.Yaml

inductive Token where
  | version (major minor : Nat)
  | tagHandle (handle lead : String)
  | documentStart
  | documentEnd
  | blockSequence
  | blockMapping
  | blockEnd
  | flowSequence
  | flowSequenceEnd
  | flowMapping
  | flowMappingEnd
  | blockEntry
  | flowEntry
  | key
  | value
  | alias (name : String)
  | anchor (name : String)
  | tag (handle rest : String)
  | scalar (text : String) (style : Style)
deriving DecidableEq, Repr, Inhabited

/-- A node that may turn out to be a key: the number of its first token, whether it must be one, and
its place. -/
structure KeyPlace where
  number : Nat
  required : Bool
  line : Nat
  column : Nat
  behind : Nat
deriving Repr, Inhabited

/-- The state between two tokens: the tokens so far; the columns of the open blocks, innermost first;
for the text outside all brackets and for every open bracket, innermost first, the node that may be a
key; and whether a key may start here. -/
structure Scanner where
  cursor : Cursor
  tokens : Array Token
  blocks : List Nat
  keys : List (Option KeyPlace)
  keyAllowed : Bool
deriving Inhabited

namespace Scanner

def inFlow (s : Scanner) : Bool := decide (1 < s.keys.length)

def outer? (s : Scanner) : Option Nat := s.blocks.head?

def push (s : Scanner) (t : Token) : Scanner := { s with tokens := s.tokens.push t }

/-- Goes on at a place, where a key may or may not start. -/
def move (s : Scanner) (c : Cursor) (keyAllowed : Bool) : Scanner :=
  { s with cursor := c, keyAllowed := keyAllowed }

/-! ## Keys -/

/-- Gives up the innermost node as a key, which a required key does not allow. -/
def dropKey (s : Scanner) : Option Scanner :=
  match s.keys with
  | some k :: more => if k.required then none else some { s with keys := none :: more }
  | _ => some s

/-- Notes that the node ahead may be a key. -/
def noteKey (s : Scanner) : Option Scanner :=
  if !s.keyAllowed then some s
  else do
    let s ← s.dropKey
    let c := s.cursor
    let place : KeyPlace :=
      ⟨s.tokens.size, !s.inFlow && s.outer? == some c.column, c.line, c.column, c.behind⟩
    return { s with keys := some place :: s.keys.tail }

/-- Whether a colon here is too far from a node for the node to be its key. -/
def isPast (c : Cursor) (k : KeyPlace) : Bool :=
  decide (k.line < c.line) || decide (k.behind + 1024 < c.behind)

/-- Gives up the nodes that are too far behind to be keys. -/
def dropPast (s : Scanner) : Option Scanner :=
  let past (k : Option KeyPlace) : Bool := k.any (isPast s.cursor)
  if s.keys.any (fun k => past k && k.any (·.required)) then none
  else some { s with keys := s.keys.map fun k => if past k then none else k }

/-! ## Blocks -/

/-- Closes the blocks that stand to the right of a column; all of them for none. -/
def closeBlocks (column : Option Nat) : List Nat → Array Token → List Nat × Array Token
  | [], tokens => ([], tokens)
  | b :: bs, tokens =>
    if column.all (· < b) then closeBlocks column bs (tokens.push .blockEnd) else (b :: bs, tokens)

/-- Ends the blocks to the right of a column, outside brackets. -/
def unindent (s : Scanner) (column : Option Nat) : Scanner :=
  if s.inFlow then s
  else
    let (blocks, tokens) := closeBlocks column s.blocks s.tokens
    { s with blocks := blocks, tokens := tokens }

/-- Opens a block at a column to the right of all open ones; its token goes to the given place. -/
def indent (s : Scanner) (column number : Nat) (t : Token) : Scanner :=
  if s.inFlow || s.outer?.any (column ≤ ·) then s
  else { s with blocks := column :: s.blocks, tokens := s.tokens.insertIdxIfInBounds number t }

/-! ## Space between tokens -/

/-- Past gaps, comments and breaks.  A tab is no gap where a key may start, outside brackets. -/
def skipSpace : Nat → Scanner → Scanner
  | 0, s => s
  | fuel + 1, s =>
    let c := s.cursor
    let c := if c.column == 0 && c.sees (Char.ofNat 0xFEFF) 0 then c.next else c
    let tabs := s.inFlow || !s.keyAllowed
    let c := (c.takeWhile (fun x => x == ' ' || (tabs && x == '\t'))).2
    let c := if c.sees '#' 0 then (c.takeWhile (fun x => !isBreak x)).2 else c
    if c.seesBreak then
      skipSpace fuel (s.move c.nextLine (s.keyAllowed || !s.inFlow))
    else { s with cursor := c }

/-! ## Directives -/

def shortNumber (c : Cursor) : Option (Nat × Cursor) :=
  let (digits, c) := c.takeWhile Char.isDigit
  if digits.isEmpty || 9 < digits.length then none
  else some (digits.foldl (fun n d => n * 10 + (d.toNat - 48)) 0, c)

def isTagChar (c : Char) : Bool :=
  isWordChar c || ";/?:@&=+$.%!~*'()".toList.contains c

/-- The handle of a tag: an exclamation mark, word characters, and maybe a second mark. -/
def tagHandleText (c : Cursor) : Option (String × Cursor) :=
  if !c.sees '!' 0 then none
  else
    let (word, after) := c.next.takeWhile isWordChar
    if after.sees '!' 0 then some (String.ofList ('!' :: word ++ ['!']), after.next)
    else some (String.ofList ('!' :: word), after)

/-- The characters of a tag with each percent escape replaced by the bytes it stands for. -/
def tagText (verbatim : Bool) (c : Cursor) : Option (String × Cursor) := do
  let (raw, c) := c.takeWhile fun x => isTagChar x || (verbatim && (x == ',' || x == '[' || x == ']'))
  let bytes ← decodePercent raw.length raw
  return (← Text.Utf8.decode? bytes, c)
where
  /-- The bytes of a text with percent escapes. -/
  decodePercent : Nat → List Char → Option (List UInt8)
    | 0, _ => some []
    | _ + 1, [] => some []
    | fuel + 1, '%' :: rest =>
      match rest with
      | a :: b :: more => do
        let high ← Json.hexValue? a
        let low ← Json.hexValue? b
        return (high * 16 + low).toUInt8 :: (← decodePercent fuel more)
      | _ => none
    | fuel + 1, x :: rest => do return String.utf8EncodeChar x ++ (← decodePercent fuel rest)

/-- A directive with the rest of its line. -/
def directive (c : Cursor) : Option (Token × Cursor) := do
  let (name, c) := c.next.takeWhile isWordChar
  if name.isEmpty || !c.seesSpace 0 then none
  let c' := (c.takeWhile isGap).2
  let (token, c) ← match String.ofList name with
    | "YAML" => do
      let (major, c) ← shortNumber c'
      if !c.sees '.' 0 then none
      let (minor, c) ← shortNumber c.next
      pure (Token.version major minor, c)
    | "TAG" => do
      let (handle, c) ← tagHandleText c'
      if handle != "!" && !(handle.length > 1 && handle.toList.getLast? == some '!') then none
      if !c.seesGap then none
      let (lead, c) ← tagText true (c.takeWhile isGap).2
      if lead.isEmpty || !c.seesSpace 0 then none
      pure (Token.tagHandle handle lead, c)
    | _ => none
  let c := lineTail c
  if !c.seesLineEnd then none
  return (token, c.nextLine)

/-! ## Properties of nodes -/

/-- A name after `&` or `*`. -/
def anchorName (c : Cursor) : Option (String × Cursor) :=
  let (name, c) := c.next.takeWhile isWordChar
  let ends := c.seesSpace 0 || (c.peek? 0).any (fun x => "?:,]\x7d%@".toList.contains x || x == '\x60')
  if name.isEmpty || !ends then none else some (String.ofList name, c)

/-- A tag, as a handle and the rest. -/
def tagToken (inFlow : Bool) (c : Cursor) : Option (Token × Cursor) := do
  let (token, c) ←
    if c.sees '<' 1 then do
      let (text, c) ← tagText true (c.skip 2)
      if text.isEmpty || !c.sees '>' 0 then none
      pure (Token.tag "" text, c.next)
    else do
      let (handle, after) ← tagHandleText c
      if handle.length > 1 && handle.toList.getLast? == some '!' then
        let (text, c) ← tagText false after
        if text.isEmpty then none
        pure (Token.tag handle text, c)
      else
        let (text, c) ← tagText false c.next
        pure (if text.isEmpty then Token.tag "" "!" else Token.tag "!" text, c)
  if (inFlow && c.sees ',' 0) || c.seesSpace 0 then return (token, c) else none

/-! ## Tokens -/

/-- A mark of one character after which the innermost node is no key. -/
def mark (s : Scanner) (t : Token) (keyAllowed : Bool) : Option Scanner := do
  let s ← s.dropKey
  return (s.push t).move s.cursor.next keyAllowed

def openBracket (s : Scanner) (t : Token) : Option Scanner := do
  let s ← s.noteKey
  return ({ s with keys := none :: s.keys }.push t).move s.cursor.next true

def closeBracket (s : Scanner) (t : Token) : Option Scanner := do
  let s ← s.dropKey
  let keys := if s.inFlow then s.keys.tail else s.keys
  return ({ s with keys := keys }.push t).move s.cursor.next false

/-- The dash of a sequence, or the question mark of a key. -/
def blockMark (s : Scanner) (opening t : Token) (keyAllowed : Bool) : Option Scanner :=
  if !s.inFlow && !s.keyAllowed then none
  else (s.indent s.cursor.column s.tokens.size opening).mark t keyAllowed

def colon (s : Scanner) : Option Scanner :=
  match s.keys with
  | some k :: more =>
    let s := { s with keys := none :: more, tokens := s.tokens.insertIdxIfInBounds k.number .key }
    let s := s.indent k.column k.number .blockMapping
    some ((s.push .value).move s.cursor.next false)
  | _ =>
    if !s.inFlow && !s.keyAllowed then none
    else
      let s := s.indent s.cursor.column s.tokens.size .blockMapping
      some ((s.push .value).move s.cursor.next (!s.inFlow))

/-- A token that belongs to a node which may be a key. -/
def nodePart (s : Scanner) (read : Cursor → Option (Token × Cursor)) : Option Scanner := do
  let s ← s.noteKey
  let (t, c) ← read s.cursor
  return (s.push t).move c false

def plainScalar (s : Scanner) : Option Scanner := do
  let s ← s.noteKey
  let c := s.cursor
  let indent := match s.outer? with
    | some n => n + 1
    | none => 0
  let (text, broken, c) ← plainFrom s.inFlow indent c.ahead.length [] .none c
  return (s.push (.scalar (String.ofList text) .plain)).move c broken

def quotedScalar (s : Scanner) (double : Bool) : Option Scanner :=
  s.nodePart fun c => do
    let (text, c) ← quotedFrom double (c.ahead.length + 1) [] c.next
    return (.scalar (String.ofList text) .quoted, c)

def blockScalar (s : Scanner) (literal : Bool) : Option Scanner := do
  let s ← s.dropKey
  let (text, c) ← blockFrom literal s.outer? s.cursor.next
  return (s.push (.scalar (String.ofList text) (if literal then .literal else .folded))).move c true

/-- A mark between documents, or a directive: it ends all blocks. -/
def betweenDocuments (s : Scanner) (t : Token) (c : Cursor) : Option Scanner := do
  let s ← (s.unindent none).dropKey
  return (s.push t).move c false

def startsPlain (s : Scanner) (x : Char) : Bool :=
  let c := s.cursor
  !("-?:,[]\x7b\x7d#&*!|>'\"%@".toList.contains x || x == '\x60' || isGap x || isBreak x) ||
    (x == '-' && !(c.peek? 1).any isGap) ||
    (!s.inFlow && (x == '?' || x == ':') && !c.seesSpace 1)

/-- The token that starts with the character ahead. -/
def nextToken (s : Scanner) (x : Char) : Option Scanner :=
  let c := s.cursor
  if c.column == 0 && x == '%' then do
    let (t, c) ← directive c
    s.betweenDocuments t c
  else if c.seesMarks '-' then s.betweenDocuments .documentStart (c.skip 3)
  else if c.seesMarks '.' then s.betweenDocuments .documentEnd (c.skip 3)
  else if x == '[' then s.openBracket .flowSequence
  else if x == '\x7b' then s.openBracket .flowMapping
  else if x == ']' then s.closeBracket .flowSequenceEnd
  else if x == '\x7d' then s.closeBracket .flowMappingEnd
  else if x == ',' then s.mark .flowEntry true
  else if x == '-' && c.seesSpace 1 then s.blockMark .blockSequence .blockEntry true
  else if x == '?' && (s.inFlow || c.seesSpace 1) then s.blockMark .blockMapping .key (!s.inFlow)
  else if x == ':' && (s.inFlow || c.seesSpace 1) then s.colon
  else if x == '*' then s.nodePart fun c => (anchorName c).map fun a => (.alias a.1, a.2)
  else if x == '&' then s.nodePart fun c => (anchorName c).map fun a => (.anchor a.1, a.2)
  else if x == '!' then s.nodePart (tagToken s.inFlow)
  else if x == '|' && !s.inFlow then s.blockScalar true
  else if x == '>' && !s.inFlow then s.blockScalar false
  else if x == '\'' then s.quotedScalar false
  else if x == '"' then s.quotedScalar true
  else if s.startsPlain x then s.plainScalar
  else none

/-- All tokens up to the end of the text; each one uses up at least one character. -/
def run : Nat → Scanner → Option (List Token)
  | 0, _ => none
  | fuel + 1, s => do
    let s ← (s.skipSpace (s.cursor.ahead.length + 1)).dropPast
    let s := s.unindent (some s.cursor.column)
    match s.cursor.ahead with
    | [] => do
      let s ← (s.unindent none).dropKey
      return s.tokens.toList
    | x :: _ => run fuel (← s.nextToken x)

end Scanner

def tokens? (text : String) : Option (List Token) :=
  if text.toList.all isAllowed then
    Scanner.run (text.length + 1) ⟨.start text, #[], [], [none], true⟩
  else none

end CodeAtlas.Yaml
