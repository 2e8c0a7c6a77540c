import CodeAtlas.Text.Utf8

/-!
Glob patterns over the bytes of a path.  A star and a question mark also match a slash, and a double
star that fills a whole segment matches any number of segments:

    src/*.rs       src/a.rs, src/x/a.rs
    **/generated   generated, x/y/generated
    out/**         everything below out, not out itself

`Glob.matches` follows every way to match at once: it keeps the texts that may be left over after the
parts read so far, so a part never has to be tried twice at one place.
-/

namespace CodeAtlas.Glob

inductive Part where
  | literal (c : Char)
  /-- Any one byte. -/
  | anyByte
  /-- Any bytes. -/
  | anyBytes
  /-- A double star at the start: any directories. -/
  | leading
  /-- A double star at the end, with the slash before it: anything below. -/
  | trailing
  /-- A double star in between, with both slashes: any directories. -/
  | between
  /-- A byte in, or not in, one of the ranges. -/
  | oneOf (negated : Bool) (ranges : List (Char × Char))
  | alternatives (branches : List (List Part))
deriving Repr, Inhabited

/-- A pattern and the text it was read from. -/
structure Pattern where
  text : String
  parts : List Part
deriving Repr, Inhabited

/-! ## Bytes -/

/-- The ends of a text, from the whole text to the empty one. -/
def suffixes : List UInt8 → List (List UInt8)
  | [] => [[]]
  | b :: bs => (b :: bs) :: suffixes bs

def slash : UInt8 := 47

/-- What follows a slash, for every slash. -/
def afterSlashes : List UInt8 → List (List UInt8)
  | [] => []
  | b :: bs => if b = slash then bs :: afterSlashes bs else afterSlashes bs

/-- The text after the given bytes, if it starts with them. -/
def afterBytes : List UInt8 → List UInt8 → List (List UInt8)
  | [], bs => [bs]
  | _ :: _, [] => []
  | a :: as, b :: bs => if a = b then afterBytes as bs else []

/-- Whether a byte belongs to a range of characters.  The range is written with the bytes of its two
ends, and the range proper runs from the last byte of the first to the first byte of the second. -/
def inRange (b : UInt8) (range : Char × Char) : Bool :=
  let low := String.utf8EncodeChar range.1
  if range.1 = range.2 then low.contains b
  else
    let high := String.utf8EncodeChar range.2
    low.dropLast.contains b || high.tail.contains b ||
      (match low.getLast?, high.head? with
       | some l, some h => decide (l ≤ b) && decide (b ≤ h)
       | _, _ => false)

/-! ## Matching -/

mutual

/-- A part that stands for nothing: a group of nothing else. -/
def Part.isVoid : Part → Bool
  | .alternatives branches => allVoid branches
  | _ => false

def isVoid : List Part → Bool
  | [] => true
  | p :: ps => p.isVoid && isVoid ps

def allVoid : List (List Part) → Bool
  | [] => true
  | b :: bs => isVoid b && allVoid bs

end

mutual

/-- The texts that may be left after a part has matched at the start. -/
def Part.rests : Part → List UInt8 → List (List UInt8)
  | .literal c, bytes => afterBytes (String.utf8EncodeChar c) bytes
  | .anyByte, [] => []
  | .anyByte, _ :: bs => [bs]
  | .anyBytes, bytes => suffixes bytes
  | .leading, bytes => bytes :: afterSlashes bytes
  | .trailing, [] => []
  | .trailing, b :: bs => if b = slash then suffixes bs else []
  | .between, [] => []
  | .between, b :: bs => if b = slash then bs :: afterSlashes bs else []
  | .oneOf _ _, [] => []
  | .oneOf negated ranges, b :: bs => if ranges.any (inRange b) != negated then [bs] else []
  | .alternatives branches, bytes =>
    if allVoid branches then [bytes] else restsOfAny branches bytes

/-- The texts that may be left after all parts have matched in order, from one of the given texts. -/
def restsOf : List Part → List (List UInt8) → List (List UInt8)
  | [], starts => starts
  | p :: ps, starts => restsOf ps (starts.flatMap (fun s => p.rests s)).eraseDups

/-- The texts that may be left after one of the branches; a branch that stands for nothing is no
branch. -/
def restsOfAny : List (List Part) → List UInt8 → List (List UInt8)
  | [], _ => []
  | b :: bs, bytes =>
    if isVoid b then restsOfAny bs bytes else restsOf b [bytes] ++ restsOfAny bs bytes

end

namespace Pattern

/-- Whether a pattern matches the whole of a path.  A double star alone matches every path. -/
def accepts (g : Pattern) (path : String) : Bool :=
  match g.parts with
  | [.leading] => true
  | parts => (restsOf parts [Text.Utf8.encode path]).any List.isEmpty

end Pattern

end CodeAtlas.Glob
