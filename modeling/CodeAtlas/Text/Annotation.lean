import CodeAtlas.Text.Words

/-!
Type and base-class texts without the punctuation around them.

    typeText? ": T", typeText? "-> T"               T
    bases? "(Base, Mixin)", ": public Base"         Base, Mixin and Base
    bases? "extends Base implements Shape"          Base, Shape
-/

namespace CodeAtlas.Text

/-! ## Types -/

/-- Without the arrows at the start. -/
def dropArrows : List Char → List Char
  | '-' :: '>' :: rest => dropArrows rest
  | cs => cs

/-- A collapsed text without leading arrows, then without leading colons, then trimmed. -/
def bareType (cs : List Char) : List Char :=
  trimChars (dropLeading (· == ':') (dropArrows cs))

/-- The type in an annotation, if there is one. -/
def typeText? (s : String) : Option String :=
  let bare := bareType (collapseChars s.toList)
  if bare.isEmpty then none else some (String.ofList bare)

/-! ## Bases -/

/-- Words that introduce or qualify a base. -/
def heritageKeywords : List (List Char) :=
  ["extends".toList, "implements".toList, "public".toList, "protected".toList, "private".toList,
    "virtual".toList]

def isHeritageKeyword (word : List Char) : Bool :=
  heritageKeywords.contains word

/-- Every occurrence of `old` replaced by `new`, from the left and without overlap; `skip`
characters still belong to the last occurrence. -/
def replaceFrom (old new : List Char) : Nat → List Char → List Char
  | _, [] => []
  | skip + 1, _ :: cs => replaceFrom old new skip cs
  | 0, c :: cs =>
    if (stripLead? old (c :: cs)).isSome then new ++ replaceFrom old new (old.length - 1) cs
    else c :: replaceFrom old new 0 cs

/-- Without one pair of parentheses around the whole text. -/
def dropParens (cs : List Char) : List Char :=
  match stripLead? ['('] cs with
  | some inner =>
    match stripTail? [')'] inner with
    | some body => trimChars body
    | none => cs
  | none => cs

/-- A collapsed heritage text without leading colons and enclosing parentheses. -/
def heritageBody (cs : List Char) : List Char :=
  dropParens (trimChars (dropLeading (· == ':') cs))

/-- One base: the words of a list item that are no keywords. -/
def baseOf (item : List Char) : List Char :=
  trimChars ([' '].intercalate ((pieces (· == ' ') item).filter (fun w => !isHeritageKeyword w)))

/-- The bases in a heritage text, with a comma and a space between two. -/
def basesChars (cs : List Char) : List Char :=
  let listed := replaceFrom " implements ".toList ", ".toList 0 (heritageBody cs)
  ", ".toList.intercalate ((pieces (· == ',') listed).map baseOf)

/-- The bases in a heritage text, if there is more than blanks. -/
def bases? (s : String) : Option String :=
  let joined := basesChars (collapseChars s.toList)
  if joined.all isBlank then none else some (String.ofList joined)

end CodeAtlas.Text
