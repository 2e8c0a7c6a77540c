import CodeAtlas.Text.Blank

/-!
Words and separators.  `pieces` cuts a text at every separator and keeps the empty pieces, `words`
keeps the non-blank runs, and `collapse` writes the words back with one space between two.
-/

namespace CodeAtlas.Text

/-! ## Cutting -/

/-- The pieces between separators, empty ones included; there is always at least one. -/
def pieces (sep : Char → Bool) : List Char → List (List Char)
  | [] => [[]]
  | c :: cs =>
    if sep c then [] :: pieces sep cs
    else
      match pieces sep cs with
      | [] => [[c]]
      | w :: ws => (c :: w) :: ws

/-- The maximal runs of characters that are not blank. -/
def words (cs : List Char) : List (List Char) :=
  (pieces isBlank cs).filter (fun w => !w.isEmpty)

/-- The words of a text with one space between two of them. -/
def collapseChars (cs : List Char) : List Char :=
  [' '].intercalate (words cs)

def collapse (s : String) : String :=
  String.ofList (collapseChars s.toList)

/-! ## Trimming -/

def dropLeading (p : Char → Bool) (cs : List Char) : List Char :=
  cs.dropWhile p

def dropTrailing (p : Char → Bool) (cs : List Char) : List Char :=
  (cs.reverse.dropWhile p).reverse

def trimChars (cs : List Char) : List Char :=
  dropTrailing isBlank (dropLeading isBlank cs)

def allBlank (s : String) : Bool :=
  s.toList.all isBlank

/-! ## Affixes -/

/-- The text after `lead`, when it starts with `lead`. -/
def stripLead? : List Char → List Char → Option (List Char)
  | [], cs => some cs
  | _ :: _, [] => none
  | a :: as, c :: cs => if a = c then stripLead? as cs else none

theorem stripLead?_append (lead cs : List Char) : stripLead? lead (lead ++ cs) = some cs := by
  induction lead with
  | nil => rfl
  | cons a as ih => simp [stripLead?, ih]

theorem eq_append_of_stripLead? {lead cs rest : List Char} (h : stripLead? lead cs = some rest) :
    cs = lead ++ rest := by
  induction lead generalizing cs with
  | nil => simpa [stripLead?] using h
  | cons a as ih =>
    cases cs with
    | nil => simp [stripLead?] at h
    | cons c cs =>
      by_cases hc : a = c
      · subst hc
        simp only [stripLead?, if_true] at h
        simp [ih h]
      · simp [stripLead?, hc] at h

theorem isSome_stripLead?_iff (lead cs : List Char) :
    (stripLead? lead cs).isSome = true ↔ lead <+: cs := by
  constructor
  · intro h
    obtain ⟨rest, hrest⟩ := Option.isSome_iff_exists.mp h
    exact ⟨rest, (eq_append_of_stripLead? hrest).symm⟩
  · rintro ⟨rest, rfl⟩
    rw [stripLead?_append]
    rfl

/-- The text before `tail`, when it ends with `tail`. -/
def stripTail? (tail cs : List Char) : Option (List Char) :=
  (stripLead? tail.reverse cs.reverse).map List.reverse

def startsWith (lead s : String) : Bool :=
  (stripLead? lead.toList s.toList).isSome

def endsWith (tail s : String) : Bool :=
  (stripTail? tail.toList s.toList).isSome

/-! ## Lines -/

/-- A line without the carriage return at its end. -/
def dropReturn (line : List Char) : List Char :=
  if line.getLast? = some '\r' then line.dropLast else line

/-- The lines of a text.  A final line feed ends the last line and starts no other, and a carriage
return before a line feed belongs to the line end. -/
def lines (cs : List Char) : List (List Char) :=
  let cut := pieces (· == '\n') cs
  let ended := cut.dropLast.map dropReturn
  match cut.getLast? with
  | some (c :: rest) => ended ++ [c :: rest]
  | _ => ended

/-- ASCII lower case; every other character stays. -/
def lowerAscii (s : String) : String :=
  String.ofList (s.toList.map Char.toLower)

/-- Equality up to the case of ASCII letters. -/
def sameIgnoringCase (s t : String) : Bool :=
  lowerAscii s == lowerAscii t

/-- The byte order of two texts, which for UTF-8 is the order of their code points. -/
def lexLe (s t : String) : Bool :=
  decide (s ≤ t)

def join (sep : String) (parts : List String) : String :=
  sep.intercalate parts

end CodeAtlas.Text
