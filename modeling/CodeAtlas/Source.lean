import CodeAtlas.Failure
import CodeAtlas.Profile.Basic
import CodeAtlas.Query.Engine
import CodeAtlas.Text.Utf8

/-!
Source files with their syntax tree.  The parser itself is a parameter: `Parser` gives the tree of a
byte sequence for each grammar, or says why there is none.  It repairs malformed text, so a tree
alone says little, and `SourceFile.parseValid` refuses those with repairs.
-/

namespace CodeAtlas

/-- Why a parser gives no tree, whatever the text. -/
inductive ParserFault where
  /-- The grammar was made for another version of the parser. -/
  | incompatible (reason : String)
  /-- The parser gave up before the end of the text. -/
  | noTree
deriving DecidableEq, Repr

def ParserFault.message (grammar : String) : ParserFault → String
  | .incompatible reason => "grammar " ++ grammar ++ " is incompatible: " ++ reason
  | .noTree => "parser produced no tree"

/-- Gives the syntax tree of a byte sequence. -/
abbrev Parser := Handle → List UInt8 → Except ParserFault Node

structure SourceFile where
  path : String
  /-- The id of the profile it was parsed with. -/
  language : String
  /-- The id of the grammar it was parsed with. -/
  grammar : String
  bytes : List UInt8
  root : Node
deriving Inhabited

namespace SourceFile

/-- The whole text, or nothing when the bytes are no UTF-8. -/
def text (f : SourceFile) : String :=
  (Text.Utf8.decode? f.bytes).getD ""

/-- The text of a node, or nothing when its bytes are no UTF-8. -/
def nodeText (f : SourceFile) (i : NodeInfo) : String :=
  (Text.Utf8.decode? (i.bytes f.bytes)).getD ""

def spanOf (f : SourceFile) (i : NodeInfo) : Span :=
  Span.ofRange f.bytes i.startByte i.endByte

/-- Where and why the text is malformed: at the first repair, or at the root when none shows. -/
def fault? (f : SourceFile) : Option (Location × String) :=
  if f.root.info.hasFault then
    let i := ((Node.firstFault? f.root).getD f.root).info
    let l := Location.ofOffset f.bytes i.startByte
    some (l, if i.missing then "missing `" ++ i.kind ++ "` at " ++ l.describe
             else "syntax error at " ++ l.describe)
  else none

/-- A file with the tree of its bytes for the grammar that the profile has for its path. -/
def parse (tree : Handle → List UInt8 → Node) (p : Profile) (path : String) (bytes : List UInt8) :
    SourceFile :=
  let g := p.grammarForPath path
  ⟨path, p.id, g.id, bytes, tree g.handle bytes⟩

/-- A parsed file, unless its text is malformed. -/
def checked (f : SourceFile) : Except Failure SourceFile :=
  match f.fault? with
  | some (l, reason) => .error (.parse f.path reason (some l))
  | none => .ok f

/-- A parsed file without repairs.  A fault of the parser itself has no place in the text. -/
def parseValid (parser : Parser) (p : Profile) (path : String) (bytes : List UInt8) :
    Except Failure SourceFile :=
  let g := p.grammarForPath path
  match parser g.handle bytes with
  | .error e => .error (.parse path (e.message g.id) none)
  | .ok root => checked (parse (fun _ _ => root) p path bytes)

def describe (f : SourceFile) : String :=
  "ParsedFile \x7b path: " ++ Text.quoted f.path ++ ", language: " ++ Text.quoted f.language ++
    ", grammar: GrammarId(" ++ Text.quoted f.grammar ++ ") \x7d"

end SourceFile

end CodeAtlas
