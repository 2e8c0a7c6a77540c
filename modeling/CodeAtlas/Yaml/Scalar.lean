import CodeAtlas.Yaml.Cursor
import CodeAtlas.Json.Reader

/-!
The texts of scalars.  Between two words on different lines a single break counts as a space, and of
several breaks the first is dropped; blocks keep their breaks or fold them in the same way, and their
last breaks are kept, cut to one or dropped.
-/

namespace CodeAtlas.Yaml

inductive Style where
  | plain
  | quoted
  | literal
  | folded
deriving DecidableEq, Repr, Inhabited

/-- What stands between two words: the gap on the line, or the first break and the breaks after it. -/
structure Between where
  gap : List Char
  first : List Char
  more : List Char
  broken : Bool
deriving Repr, Inhabited

namespace Between

def none : Between := ⟨[], [], [], false⟩

/-- What the space between two words counts for. -/
def text (b : Between) : List Char :=
  if !b.broken then b.gap
  else if b.first == ['\n'] then (if b.more.isEmpty then [' '] else b.more)
  else b.first ++ b.more

/-- Reads gaps and breaks.  After a break, a tab before the column `indent` is refused. -/
def read (indent : Nat) : Nat → Between → Cursor → Option (Between × Cursor)
  | 0, b, c => some (b, c)
  | fuel + 1, b, c =>
    if c.seesGap then
      if b.broken && decide (c.column < indent) && c.sees '\t' 0 then Option.none
      else if b.broken then read indent fuel b c.next
      else read indent fuel { b with gap := b.gap ++ (c.ahead.take 1) } c.next
    else if c.seesBreak then
      if b.broken then read indent fuel { b with more := b.more ++ c.breakText } c.nextLine
      else read indent fuel ⟨[], c.breakText, b.more, true⟩ c.nextLine
    else some (b, c)

end Between

/-! ## Plain scalars -/

/-- Marks that end a plain scalar inside brackets. -/
def isFlowMark (c : Char) : Bool :=
  c == ',' || c == '[' || c == ']' || c == '\x7b' || c == '\x7d'

/-- Reads a word of a plain scalar; inside brackets a colon before a mark is refused. -/
def plainWord (flow : Bool) : List Char → Option (List Char)
  | [] => some []
  | x :: xs =>
    let follower := xs.head?
    if isGap x || isBreak x then some []
    else if flow && x == ':' && follower.any (fun y => isFlowMark y || y == '?') then none
    else if x == ':' && follower.all (fun y => isGap y || isBreak y) then some []
    else if flow && isFlowMark x then some []
    else (plainWord flow xs).map (x :: ·)

/-- Reads a plain scalar from the words and the space read so far.  The result says whether a break
was the last thing read. -/
def plainFrom (flow : Bool) (indent : Nat) :
    Nat → List Char → Between → Cursor → Option (List Char × Bool × Cursor)
  | 0, text, between, c => some (text, between.broken, c)
  | fuel + 1, text, between, c =>
    if c.seesDocumentMark || c.sees '#' 0 then some (text, between.broken, c)
    else do
      let word ← plainWord flow c.ahead
      let (text, between) :=
        if word.isEmpty then (text, between) else (text ++ between.text ++ word, Between.none)
      let c := c.skip word.length
      if !(c.seesGap || c.seesBreak) then return (text, between.broken, c)
      let (between, c) ← between.read indent c.ahead.length c
      if !flow && decide (c.column < indent) then return (text, between.broken, c)
      plainFrom flow indent fuel text between c

/-! ## Quoted scalars -/

/-- What a letter after a backslash stands for. -/
def escaped? : Char → Option Char
  | '0' => some '\x00'
  | 'a' => some '\x07'
  | 'b' => some '\x08'
  | 't' => some '\t'
  | '\t' => some '\t'
  | 'n' => some '\n'
  | 'v' => some '\x0b'
  | 'f' => some '\x0c'
  | 'r' => some '\r'
  | 'e' => some '\x1b'
  | ' ' => some ' '
  | '"' => some '"'
  | '/' => some '/'
  | '\\' => some '\\'
  | 'N' => some (Char.ofNat 0x85)
  | '_' => some (Char.ofNat 0xA0)
  | 'L' => some (Char.ofNat 0x2028)
  | 'P' => some (Char.ofNat 0x2029)
  | _ => none

/-- The number of hexadecimal digits that a letter after a backslash announces. -/
def escapeDigits? : Char → Option Nat
  | 'x' => some 2
  | 'u' => some 4
  | 'U' => some 8
  | _ => none

def charOfCode? (n : Nat) : Option Char :=
  if n.isValidChar then some (Char.ofNat n) else none

def hexChar? (digits : List Char) (count : Nat) : Option Char := do
  let values ← (digits.take count).mapM Json.hexValue?
  if values.length = count then charOfCode? (values.foldl (fun n d => n * 16 + d) 0) else none

/-- The word of a quoted scalar up to a gap, a break, the closing quote or an escaped break.  The flag
says that an escaped break ended it. -/
def quotedWord (double : Bool) : Nat → List Char → Cursor → Option (List Char × Bool × Cursor)
  | 0, text, c => some (text, false, c)
  | fuel + 1, text, c =>
    match c.ahead with
    | [] => some (text, false, c)
    | x :: xs =>
      if isGap x || isBreak x then some (text, false, c)
      else if !double && x == '\'' then
        if xs.head? == some '\'' then quotedWord double fuel (text ++ ['\'']) (c.skip 2)
        else some (text, false, c)
      else if double && x == '"' then some (text, false, c)
      else if double && x == '\\' then
        match xs with
        | [] => none
        | y :: ys =>
          if isBreak y then some (text, true, c.next.nextLine)
          else
            match escapeDigits? y with
            | some n => do quotedWord double fuel (text ++ [← hexChar? ys n]) (c.skip (n + 2))
            | none => do quotedWord double fuel (text ++ [← escaped? y]) (c.skip 2)
      else quotedWord double fuel (text ++ [x]) c.next

def quotedFrom (double : Bool) : Nat → List Char → Cursor → Option (List Char × Cursor)
  | 0, _, _ => none
  | fuel + 1, text, c =>
    if c.seesDocumentMark || c.ahead.isEmpty then none
    else do
      let (word, joined, c) ← quotedWord double c.ahead.length [] c
      let text := text ++ word
      if c.sees (if double then '"' else '\'') 0 then return (text, c.next)
      let before : Between := if joined then ⟨[], [], [], true⟩ else .none
      let (between, c) ← before.read 0 c.ahead.length c
      quotedFrom double fuel (text ++ between.text) c

/-! ## Block scalars -/

/-- What happens to the breaks at the end of a block. -/
inductive Chomping where
  | strip
  | clip
  | keep
deriving DecidableEq, Repr, Inhabited

/-- The marks after `|` or `>`: the chomping and the width of the indentation, in either order. -/
def blockHeader (c : Cursor) : Option (Chomping × Nat × Cursor) :=
  let chomping? (x : Option Char) : Option Chomping :=
    if x == some '+' then some .keep else if x == some '-' then some .strip else none
  let width? (x : Option Char) : Option Nat :=
    match x with
    | some d => if d.isDigit then some (d.toNat - 48) else none
    | none => none
  let (chomping, width, c) := match chomping? (c.peek? 0), width? (c.peek? 0) with
    | some k, _ =>
      match width? (c.peek? 1) with
      | some n => (k, some n, c.skip 2)
      | none => (k, none, c.next)
    | none, some n =>
      match chomping? (c.peek? 1) with
      | some k => (k, some n, c.skip 2)
      | none => (.clip, some n, c.next)
    | none, none => (.clip, none, c)
  if width == some 0 then none else some (chomping, width.getD 0, c)

/-- The indentation and the breaks before a line of a block: the breaks, the widest indentation seen,
and the place.  An `indent` of zero is still to be found. -/
def blockBreaks (indent : Nat) : Nat → List Char → Nat → Cursor → Option (List Char × Nat × Cursor)
  | 0, breaks, widest, c => some (breaks, widest, c)
  | fuel + 1, breaks, widest, c =>
    let spaces := (c.ahead.takeWhile (· == ' ')).length
    let c := c.skip (if indent = 0 then spaces else min spaces (indent - c.column))
    let widest := max widest c.column
    if (indent == 0 || decide (c.column < indent)) && c.sees '\t' 0 then none
    else if c.seesBreak then blockBreaks indent fuel (breaks ++ c.breakText) widest c.nextLine
    else some (breaks, widest, c)

/-- The lines of a block from the text read so far, the break after it and the breaks after that. -/
def blockLines (literal : Bool) (indent : Nat) :
    Nat → List Char → List Char → List Char → Bool → Cursor →
    Option (List Char × List Char × List Char × Cursor)
  | 0, text, leading, trailing, _, c => some (text, leading, trailing, c)
  | fuel + 1, text, leading, trailing, wasBlank, c =>
    if c.column != indent || c.ahead.isEmpty then some (text, leading, trailing, c)
    else do
      let isBlank := c.seesGap
      let folds := !literal && leading == ['\n'] && !wasBlank && !isBlank
      let lineBreak := if folds then (if trailing.isEmpty then [' '] else []) else leading
      let (line, c) := c.takeWhile (fun x => !isBreak x)
      let text := text ++ lineBreak ++ trailing ++ line
      let leading := c.breakText
      let (trailing, _, c) ← blockBreaks indent c.ahead.length [] 0 c.nextLine
      blockLines literal indent fuel text leading trailing isBlank c

/-- Past the gaps and the comment at the end of a line. -/
def lineTail (c : Cursor) : Cursor :=
  let c := (c.takeWhile isGap).2
  if c.sees '#' 0 then (c.takeWhile (fun x => !isBreak x)).2 else c

/-- Reads a block scalar after its mark; `outer` is the indentation of the collection around it, or
none at the top. -/
def blockFrom (literal : Bool) (outer : Option Nat) (c : Cursor) : Option (List Char × Cursor) := do
  let (chomping, width, c) ← blockHeader c
  let c := lineTail c
  if !c.seesLineEnd then none
  let c := c.nextLine
  let given := if width = 0 then 0 else outer.getD 0 + width
  let (trailing, widest, c) ← blockBreaks given c.ahead.length [] 0 c
  let least := match outer with
    | some n => n + 1
    | none => 1
  let indent := if given = 0 then max widest least else given
  let (text, leading, trailing, c) ← blockLines literal indent c.ahead.length [] [] trailing false c
  let tail := match chomping with
    | .strip => []
    | .clip => leading
    | .keep => leading ++ trailing
  return (text ++ tail, c)

end CodeAtlas.Yaml
