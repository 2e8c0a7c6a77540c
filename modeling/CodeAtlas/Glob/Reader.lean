import CodeAtlas.Glob.Basic
import CodeAtlas.Glob.Engine

/-!
Reading glob patterns.  Outside a group a comma stands for itself, a backslash takes the special
meaning from the character after it, and a character class takes a closing bracket or a hyphen at its
start, and a hyphen at its end, as ordinary characters.
-/

namespace CodeAtlas.Glob

/-- Why a text is no pattern. -/
inductive Fault where
  | unclosedClass
  | invalidRange (low high : Char)
  | unopenedGroup
  | unclosedGroup
  | danglingEscape
deriving DecidableEq, Repr, Inhabited

def Fault.reason : Fault → String
  | .unclosedClass => "unclosed character class; missing ']'"
  | .invalidRange low high =>
    "invalid range; '" ++ low.toString ++ "' > '" ++ high.toString ++ "'"
  | .unopenedGroup => "unopened alternate group; missing '\x7b' (maybe escape '\x7d' with '[\x7d]'?)"
  | .unclosedGroup => "unclosed alternate group; missing '\x7d' (maybe escape '\x7b' with '[\x7b]'?)"
  | .danglingEscape => "dangling '\\'"

/-! ## Character classes -/

/-- The characters of a class from its second one on: the ranges read so far, last first, and whether
a hyphen waits for the end of a range. -/
def readClass (ranges : List (Char × Char)) (hyphen : Bool) :
    List Char → Except Fault (List (Char × Char) × List Char)
  | [] => .error .unclosedClass
  | c :: cs =>
    if c = ']' then .ok ((if hyphen then ('-', '-') :: ranges else ranges).reverse, cs)
    else if hyphen then
      match ranges with
      | (low, _) :: more =>
        if c < low then .error (.invalidRange low c) else readClass ((low, c) :: more) false cs
      | [] => readClass [(c, c)] false cs
    else if c = '-' then readClass ranges true cs
    else readClass ((c, c) :: ranges) false cs

def classAfterBracket (cs : List Char) : Except Fault (Part × List Char) := do
  let (negated, body) := match cs with
    | '!' :: rest => (true, rest)
    | '^' :: rest => (true, rest)
    | _ => (false, cs)
  match body with
  | [] => .error .unclosedClass
  | c :: rest =>
    let (ranges, after) ← readClass [(c, c)] false rest
    return (.oneOf negated ranges, after)

/-! ## Sequences and groups -/

/-- What has been read: the open sequence, last part first, and for every open group, innermost first,
its finished branches, last first, and the sequence that the group belongs to. -/
structure Draft where
  parts : List Part
  groups : List (List (List Part) × List Part)

namespace Draft

def push (d : Draft) (p : Part) : Draft := { d with parts := p :: d.parts }

def inGroup (d : Draft) : Bool := !d.groups.isEmpty

def openGroup (d : Draft) : Draft := ⟨[], ([], d.parts) :: d.groups⟩

/-- Ends the open branch of the innermost group. -/
def nextBranch (d : Draft) : Draft :=
  match d.groups with
  | [] => d.push (.literal ',')
  | (done, outer) :: more => ⟨[], (d.parts.reverse :: done, outer) :: more⟩

def closeGroup (d : Draft) : Except Fault Draft :=
  match d.groups with
  | [] => .error .unopenedGroup
  | (done, outer) :: more =>
    .ok ⟨.alternatives (d.parts.reverse :: done).reverse :: outer, more⟩

/-- A double star that takes the place of the slash before it; after another one it adds nothing. -/
def widen (d : Draft) (p : Part) : Draft :=
  match d.parts with
  | .leading :: _ => d
  | .trailing :: _ => d
  | _ :: more => { d with parts := p :: more }
  | [] => d.push p

end Draft

/-- Whether a double star that follows `before` may fill a segment: it follows a slash, or it is the
first of a branch. -/
def startsSegment (d : Draft) (before : Option Char) : Bool :=
  before == some '/' || (d.inGroup && (before == some ',' || before == some '\x7b'))

/-- A double star, the text after it, and the character before it.  Also gives the last character it
used. -/
def doubleStar (d : Draft) (before : Option Char) (cs : List Char) : Draft × Char × List Char :=
  let plain := ((d.push .anyBytes).push .anyBytes, '*', cs)
  if d.parts.isEmpty then
    match cs with
    | [] => (d.push .leading, '*', [])
    | '/' :: rest => (d.push .leading, '/', rest)
    | _ => plain
  else if !startsSegment d before then plain
  else
    match cs with
    | [] => (d.widen .trailing, '*', [])
    | '/' :: rest => (d.widen .between, '/', rest)
    | c :: _ => if d.inGroup && (c = ',' || c = '\x7d') then (d.widen .trailing, '*', cs) else plain

/-- Reads on from a draft, with the character before; every round uses up at least one character. -/
def readFrom : Nat → Draft → Option Char → List Char → Except Fault Draft
  | 0, d, _, _ => .ok d
  | _ + 1, d, _, [] => .ok d
  | fuel + 1, d, before, c :: cs =>
    match c with
    | '?' => readFrom fuel (d.push .anyByte) (some c) cs
    | '*' =>
      match cs with
      | '*' :: rest =>
        let (d, last, rest) := doubleStar d before rest
        readFrom fuel d (some last) rest
      | _ => readFrom fuel (d.push .anyBytes) (some c) cs
    | '[' => do
      let (part, rest) ← classAfterBracket cs
      readFrom fuel (d.push part) (some ']') rest
    | '\x7b' => readFrom fuel d.openGroup (some c) cs
    | '\x7d' => do readFrom fuel (← d.closeGroup) (some c) cs
    | ',' => readFrom fuel d.nextBranch (some c) cs
    | '\\' =>
      match cs with
      | [] => .error .danglingEscape
      | e :: rest => readFrom fuel (d.push (.literal e)) (some e) rest
    | c => readFrom fuel (d.push (.literal c)) (some c) cs

def Pattern.read (text : String) : Except Fault Pattern := do
  let cs := text.toList
  let d ← readFrom cs.length ⟨[], []⟩ none cs
  if d.inGroup then throw .unclosedGroup
  return ⟨text, d.parts.reverse⟩

def Fault.message (text : String) (f : Fault) : String :=
  "error parsing glob '" ++ text ++ "': " ++ f.reason

/-- Globs are read once, and then tried one after another. -/
instance patternEngine : Engine where
  Pattern := Pattern
  read text := (Pattern.read text).mapError (Fault.message text)
  build patterns := .ok ⟨patterns.length, fun path => patterns.any (·.accepts path)⟩

end CodeAtlas.Glob
