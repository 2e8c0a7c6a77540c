/-!
Places in a source file.  Byte offsets count from 0, lines and columns from 1, and a column counts
bytes.  `Location.ofOffset` and `Span.ofRange` derive lines and columns from the bytes: a line ends
with each line feed byte.
-/

namespace CodeAtlas

structure Location where
  offset : Nat
  line : Nat
  column : Nat
deriving DecidableEq, Repr, Inhabited

namespace Location

/-- Line, column and byte offset as messages show them. -/
def describe (l : Location) : String :=
  toString l.line ++ ":" ++ toString l.column ++ " (byte " ++ toString l.offset ++ ")"

/-- The number of bytes after the last line feed. -/
def bytesInLastLine (bytes : List UInt8) : Nat :=
  (bytes.reverse.takeWhile (· != 10)).length

def ofOffset (bytes : List UInt8) (offset : Nat) : Location :=
  let before := bytes.take offset
  ⟨offset, before.count 10 + 1, bytesInLastLine before + 1⟩

end Location

/-- A stretch of a source file; the end is exclusive. -/
structure Span where
  startByte : Nat
  endByte : Nat
  startLine : Nat
  startCol : Nat
  endLine : Nat
  endCol : Nat
deriving DecidableEq, Repr, Inhabited

namespace Span

def ofRange (bytes : List UInt8) (start stop : Nat) : Span :=
  let first := Location.ofOffset bytes start
  let last := Location.ofOffset bytes stop
  ⟨start, stop, first.line, first.column, last.line, last.column⟩

def contains (s t : Span) : Bool :=
  s.startByte ≤ t.startByte && t.endByte ≤ s.endByte

def containsOffset (s : Span) (offset : Nat) : Bool :=
  s.startByte ≤ offset && offset < s.endByte

/-- The number of bytes; a span that ends before it starts has none. -/
def length (s : Span) : Nat :=
  s.endByte - s.startByte

def isEmpty (s : Span) : Bool :=
  s.length == 0

def sameRange (s t : Span) : Bool :=
  s.startByte == t.startByte && s.endByte == t.endByte

/-- The start of the span as line and column. -/
def describe (s : Span) : String :=
  toString s.startLine ++ ":" ++ toString s.startCol

@[simp] theorem startByte_ofRange (bytes : List UInt8) (a b : Nat) :
    (ofRange bytes a b).startByte = a := rfl

@[simp] theorem endByte_ofRange (bytes : List UInt8) (a b : Nat) :
    (ofRange bytes a b).endByte = b := rfl

end Span

end CodeAtlas
