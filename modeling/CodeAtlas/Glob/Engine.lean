import CodeAtlas.Text.Words

/-!
Globs.  The library that reads globs and makes one matcher of them is a parameter: a `Glob.Engine`
refuses texts that are no globs, and it may refuse globs that are too much for it together.
-/

namespace CodeAtlas.Glob

/-- A matcher for several globs. -/
structure PatternSet where
  /-- The number of globs. -/
  length : Nat
  /-- Whether one of the globs matches a path. -/
  accepts : String → Bool

/-- A library for globs.  Its faults are given in words. -/
class Engine where
  Pattern : Type
  read : String → Except String Pattern
  build : List Pattern → Except String PatternSet

variable [Engine]

/-- The globs of some texts, or the first text that is none with its fault. -/
def readAll : List String → Except (String × String) (List Engine.Pattern)
  | [] => .ok []
  | text :: more =>
    match Engine.read text with
    | .error reason => .error (text, reason)
    | .ok p => (readAll more).map (p :: ·)

/-- The matcher for some texts.  If the globs are too much together, the fault is that of all texts,
with commas between them. -/
def PatternSet.compile (texts : List String) : Except (String × String) PatternSet :=
  match readAll texts with
  | .error fault => .error fault
  | .ok patterns => (Engine.build patterns).mapError fun reason => (Text.join ", " texts, reason)

end CodeAtlas.Glob
