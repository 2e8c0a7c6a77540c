import CodeAtlas.Profile.Asset
import CodeAtlas.Proofs.Text.Lines

/-!
Headers of query texts.  The first two lines that are not blank name a language and a version:

    ;;  language:  rust
    ;   version: 007

A header line is described by its parts (`HeaderLine`), what it names by the characters of the value
(`LanguageLine`, `VersionLine`).  Reading takes each part as long as it can, and since no two parts
share a character where they meet, it finds these parts and no others (`headerWord?_eq_some_iff`).  So
a text is read exactly if its header has this form, and otherwise the first line that has not is
named (`parse_iff_header`).
-/

namespace CodeAtlas

open Text

/-! ## Stretches of characters -/

theorem dropWhile_stretch {p : Char → Bool} {run rest : List Char} (hrun : ∀ c ∈ run, p c = true)
    (hrest : ∀ c ∈ rest.head?, p c = false) : (run ++ rest).dropWhile p = rest := by
  rw [List.dropWhile_append_of_pos hrun]
  cases rest with
  | nil => rfl
  | cons c rest => exact List.dropWhile_cons_of_neg (by simp [hrest c rfl])

theorem takeWhile_stretch {p : Char → Bool} {run rest : List Char} (hrun : ∀ c ∈ run, p c = true)
    (hrest : ∀ c ∈ rest.head?, p c = false) : (run ++ rest).takeWhile p = run := by
  rw [List.takeWhile_append_of_pos hrun]
  cases rest with
  | nil => simp
  | cons c rest => rw [List.takeWhile_cons_of_neg (by simp [hrest c rfl]), List.append_nil]

theorem head?_dropWhile_stretch {p : Char → Bool} (cs : List Char) :
    ∀ c ∈ (cs.dropWhile p).head?, p c = false := by
  intro c hc
  have hne : cs.dropWhile p ≠ [] := by
    intro hnil
    simp [hnil] at hc
  rw [List.head?_eq_some_head hne] at hc
  obtain rfl := Option.some.inj hc
  exact List.head_dropWhile_not p hne

namespace Asset

/-! ## The form of a header -/

/-- One semicolon or more, blanks, a name with its colon, blanks, and a value. -/
def HeaderLine (name : String) (value line : List Char) : Prop :=
  ∃ marks blanks gap, line = marks ++ (blanks ++ (name.toList ++ (gap ++ value))) ∧ marks ≠ [] ∧
    (∀ c ∈ marks, c = ';') ∧ (∀ c ∈ blanks, isBlank c = true) ∧ ∀ c ∈ gap, isBlank c = true

/-- Some characters, each of them an ASCII letter or digit or one of three signs. -/
def IsTag (tag : String) : Prop :=
  tag ≠ "" ∧ ∀ c ∈ tag.toList, c.isAlphanum = true ∨ c ∈ ['_', '+', '-']

-- the characters of the tag are checked, and not all that there are
instance (tag : String) : Decidable (IsTag tag) :=
  have : Decidable (∀ c ∈ tag.toList, c.isAlphanum = true ∨ c ∈ ['_', '+', '-']) :=
    List.decidableBAll _ _
  inferInstanceAs (Decidable (_ ∧ _))

/-- The line names a language. -/
def LanguageLine (language : String) (line : List Char) : Prop :=
  IsTag language ∧ HeaderLine "language:" language.toList line

/-- The line names a version, in decimal digits and below `2 ^ 32`. -/
def VersionLine (version : Nat) (line : List Char) : Prop :=
  ∃ digits, digits ≠ [] ∧ (∀ c ∈ digits, c.isDigit = true) ∧ HeaderLine "version:" digits line ∧
    Nat.ofDigitChars 10 digits 0 = version ∧ version < UInt32.size

def writtenLines (source : String) : List (List Char) :=
  ((source.toList.splitOn '\n').filter (fun line => !line.all isBlank)).map trimChars

/-- The first line of a text names a language. -/
def NamesLanguage (source language : String) : Prop :=
  ∃ line, (writtenLines source)[0]? = some line ∧ LanguageLine language line

/-- The second line of a text names a version. -/
def NamesVersion (source : String) (version : Nat) : Prop :=
  ∃ line, (writtenLines source)[1]? = some line ∧ VersionLine version line

/-- What is wrong with the header of a text for a query of a language, and how it is put: the first of
three defects that it has. -/
inductive HeaderDefect (language query source : String) : ProfileFault → String → Prop where
  | language (h : ∀ tag, ¬ NamesLanguage source tag) :
      HeaderDefect language query source (.noLanguage language query)
        "missing `; language:` header"
  | version {tag : String} (htag : NamesLanguage source tag)
      (h : ∀ version, ¬ NamesVersion source version) :
      HeaderDefect language query source (.noVersion language query)
        "missing `; version:` header"
  | foreign {tag : String} {version : Nat} (htag : NamesLanguage source tag)
      (hversion : NamesVersion source version) (h : tag ≠ language) :
      HeaderDefect language query source (.foreignAsset language query tag)
        ("asset is tagged for language " ++ Text.quoted tag)

/-! ## Reading a line -/

theorem unblank_of_isTagChar {c : Char} (h : isTagChar c = true) : isBlank c = false := by
  have hrange : 43 ≤ c.toNat ∧ c.toNat ≤ 122 := by
    delta isTagChar Char.isAlphanum Char.isAlpha Char.isUpper Char.isLower Char.isDigit at h
    simp only [Bool.or_eq_true, Bool.and_eq_true, decide_eq_true_eq, beq_iff_eq,
      UInt32.le_iff_toNat_le, ge_iff_le] at h
    change (((((65 ≤ c.toNat ∧ c.toNat ≤ 90) ∨ 97 ≤ c.toNat ∧ c.toNat ≤ 122) ∨
      48 ≤ c.toNat ∧ c.toNat ≤ 57) ∨ c = '_') ∨ c = '+') ∨ c = '-' at h
    rcases h with ((h | rfl) | rfl) | rfl
    · omega
    all_goals decide
  have hne : isBlank c ≠ true := by
    simp only [isBlank, ne_eq, Bool.or_eq_true, Bool.and_eq_true, decide_eq_true_eq, beq_iff_eq]
    omega
  exact Bool.eq_false_iff.mpr hne

theorem unblank_of_isDigit {c : Char} (h : c.isDigit = true) : isBlank c = false := by
  apply unblank_of_isTagChar
  simp [isTagChar, Char.isAlphanum, h]

theorem only?_eq_some_iff {ok : Char → Bool} (hok : ∀ c, ok c = true → isBlank c = false)
    (value word : List Char) :
    only? ok value = some word ↔
      word ≠ [] ∧ (∀ c ∈ word, ok c = true) ∧
        ∃ blanks, value = word ++ blanks ∧ ∀ c ∈ blanks, isBlank c = true := by
  unfold only?
  dsimp only
  constructor
  · intro h
    split at h
    · cases h
    · rename_i hvalue
      cases h
      simp only [Bool.or_eq_true, List.isEmpty_iff, Bool.not_eq_true', not_or, Bool.not_eq_false,
        List.all_eq_true] at hvalue
      refine ⟨hvalue.1, fun c hc => List.mem_takeWhile_imp hc, value.dropWhile ok, ?_, hvalue.2⟩
      exact List.takeWhile_append_dropWhile.symm
  · rintro ⟨hne, hword, blanks, rfl, hblanks⟩
    have hnext : ∀ c ∈ blanks.head?, ok c = false := by
      intro c hc
      by_contra hc'
      have hblank := hblanks c (List.mem_of_mem_head? hc)
      rw [hok c (by simpa using hc')] at hblank
      cases hblank
    rw [takeWhile_stretch hword hnext, dropWhile_stretch hword hnext]
    simpa [hne] using hblanks

theorem headerValue?_eq_some_iff {name : String} {w : Char} {ws : List Char}
    (hname : name.toList = w :: ws) (hblank : isBlank w = false) (hmark : w ≠ ';')
    (line value : List Char) :
    headerValue? name line = some value ↔
      HeaderLine name value line ∧ ∀ c ∈ value.head?, isBlank c = false := by
  constructor
  · intro h
    unfold headerValue? at h
    split at h
    · rename_i rest
      obtain ⟨after, hafter, rfl⟩ := Option.map_eq_some_iff.mp h
      refine ⟨⟨';' :: rest.takeWhile (· == ';'), (rest.dropWhile (· == ';')).takeWhile isBlank,
        after.takeWhile isBlank, ?_, by simp, ?_, ?_, ?_⟩, head?_dropWhile_stretch after⟩
      · rw [dropLeading, List.takeWhile_append_dropWhile, ← eq_append_of_stripLead? hafter,
          dropLeading, List.takeWhile_append_dropWhile, List.cons_append,
          List.takeWhile_append_dropWhile]
      · intro c hc
        rcases List.mem_cons.mp hc with rfl | hc
        · rfl
        · simpa using List.mem_takeWhile_imp hc
      · exact fun c hc => List.mem_takeWhile_imp hc
      · exact fun c hc => List.mem_takeWhile_imp hc
    · cases h
  · rintro ⟨⟨marks, blanks, gap, rfl, hne, hmarks, hblanks, hgap⟩, hvalue⟩
    obtain ⟨m, more, rfl⟩ := List.exists_cons_of_ne_nil hne
    obtain ⟨rfl, hmore⟩ := List.forall_mem_cons.mp hmarks
    have hword : ∀ c ∈ (name.toList ++ (gap ++ value)).head?, isBlank c = false := by
      intro c hc
      rw [hname] at hc
      cases hc
      exact hblank
    have hbody : ∀ c ∈ (blanks ++ (name.toList ++ (gap ++ value))).head?, (c == ';') = false := by
      intro c hc
      apply beq_eq_false_iff_ne.mpr
      cases blanks with
      | nil =>
        rw [List.nil_append, hname] at hc
        cases hc
        exact hmark
      | cons b blanks =>
        cases hc
        rintro rfl
        exact absurd (hblanks ';' List.mem_cons_self) (by decide)
    have hsemicolons : (more ++ (blanks ++ (name.toList ++ (gap ++ value)))).dropWhile (· == ';') =
        blanks ++ (name.toList ++ (gap ++ value)) :=
      dropWhile_stretch (fun c hc => beq_iff_eq.mpr (hmore c hc)) hbody
    -- each stretch ends where the next part of the line starts
    rw [List.cons_append, headerValue?, hsemicolons, dropLeading, dropWhile_stretch hblanks hword,
      stripLead?_append, Option.map_some, dropLeading, dropWhile_stretch hgap hvalue]

/-- In a line without blanks at its end, the value is the whole rest of the line. -/
theorem headerWord?_eq_some_iff (name : String) {w : Char} {ws : List Char}
    (hname : name.toList = w :: ws) (hblank : isBlank w = false) (hmark : w ≠ ';')
    {ok : Char → Bool} (hok : ∀ c, ok c = true → isBlank c = false) {line : List Char}
    (hlast : ∀ c ∈ line.getLast?, isBlank c = false) (word : List Char) :
    (headerValue? name line).bind (only? ok) = some word ↔
      word ≠ [] ∧ (∀ c ∈ word, ok c = true) ∧ HeaderLine name word line := by
  rw [Option.bind_eq_some_iff]
  constructor
  · rintro ⟨value, hvalue, hword⟩
    obtain ⟨hne, hchars, blanks, rfl, hblanks⟩ := (only?_eq_some_iff hok value word).mp hword
    obtain ⟨hline, -⟩ := (headerValue?_eq_some_iff hname hblank hmark line _).mp hvalue
    have hnone : blanks = [] := by
      rcases List.eq_nil_or_concat blanks with rfl | ⟨init, b, rfl⟩
      · rfl
      · obtain ⟨marks, lead, gap, rfl, -⟩ := hline
        have hb := hlast b (by simp)
        rw [hblanks b (by simp)] at hb
        cases hb
    rw [hnone, List.append_nil] at hline
    exact ⟨hne, hchars, hline⟩
  · rintro ⟨hne, hchars, hline⟩
    have hhead : ∀ c ∈ word.head?, isBlank c = false :=
      fun c hc => hok c (hchars c (List.mem_of_mem_head? hc))
    refine ⟨word, (headerValue?_eq_some_iff hname hblank hmark line word).mpr ⟨hline, hhead⟩, ?_⟩
    exact (only?_eq_some_iff hok word word).mpr ⟨hne, hchars, [], by simp, by simp⟩

theorem isTag_ofList_iff (word : List Char) :
    IsTag (String.ofList word) ↔ word ≠ [] ∧ ∀ c ∈ word, isTagChar c = true := by
  have hempty : String.ofList word ≠ "" ↔ word ≠ [] := by
    rw [ne_eq, ne_eq, ← String.toList_inj, String.toList_ofList]
    rfl
  unfold IsTag
  rw [hempty, String.toList_ofList]
  simp [isTagChar, or_assoc]

section

variable {line : List Char} (hlast : ∀ c ∈ line.getLast?, isBlank c = false)
include hlast

theorem languageTag?_eq_some_iff (language : String) :
    languageTag? line = some language ↔ LanguageLine language line := by
  have hword := headerWord?_eq_some_iff "language:" rfl (by decide) (by decide)
    (fun c => unblank_of_isTagChar) hlast
  have hread : languageTag? line =
      ((headerValue? "language:" line).bind (only? isTagChar)).map String.ofList := by
    rw [languageTag?, Option.map_bind]
    congr 1
    funext value
    exact (Option.map_eq_bind ..).symm
  rw [hread, Option.map_eq_some_iff]
  constructor
  · rintro ⟨word, hfound, rfl⟩
    obtain ⟨hne, hchars, hline⟩ := (hword word).mp hfound
    refine ⟨(isTag_ofList_iff word).mpr ⟨hne, hchars⟩, ?_⟩
    rwa [String.toList_ofList]
  · rintro ⟨htag, hline⟩
    rw [← String.ofList_toList (s := language)] at htag
    obtain ⟨hne, hchars⟩ := (isTag_ofList_iff _).mp htag
    exact ⟨language.toList, (hword _).mpr ⟨hne, hchars, hline⟩, String.ofList_toList⟩

theorem version?_eq_some_iff (version : Nat) :
    version? line = some version ↔ VersionLine version line := by
  have hword := headerWord?_eq_some_iff "version:" rfl (by decide) (by decide)
    (fun c => unblank_of_isDigit) hlast
  have hread : version? line = ((headerValue? "version:" line).bind (only? Char.isDigit)).bind
      fun digits => if digitsValue digits < UInt32.size then some (digitsValue digits) else none := by
    unfold version?
    cases headerValue? "version:" line <;> rfl
  have hvalue : ∀ digits, digitsValue digits = Nat.ofDigitChars 10 digits 0 := by
    intro digits
    rw [Nat.ofDigitChars_eq_foldl]
    simp [digitsValue, Nat.mul_comm]
  rw [hread, Option.bind_eq_some_iff]
  constructor
  · rintro ⟨digits, hfound, hnumber⟩
    obtain ⟨hne, hchars, hline⟩ := (hword digits).mp hfound
    split at hnumber
    · rename_i hsmall
      cases hnumber
      exact ⟨digits, hne, hchars, hline, (hvalue digits).symm, hsmall⟩
    · cases hnumber
  · rintro ⟨digits, hne, hchars, hline, rfl, hsmall⟩
    refine ⟨digits, (hword digits).mpr ⟨hne, hchars, hline⟩, ?_⟩
    rw [hvalue, if_pos hsmall]

end

/-! ## Reading a text -/

theorem unblank_getLast?_writtenLines {source : String} {line : List Char}
    (h : line ∈ writtenLines source) : ∀ c ∈ line.getLast?, isBlank c = false := by
  obtain ⟨raw, -, rfl⟩ := List.mem_map.mp h
  exact unblank_getLast?_trimChars raw

theorem first_eq_some_iff (source language : String) :
    (headerLines source).head?.bind languageTag? = some language ↔
      NamesLanguage source language := by
  have hlines : headerLines source = writtenLines source := trimmed_lines source.toList
  rw [hlines, List.head?_eq_getElem?, Option.bind_eq_some_iff]
  apply exists_congr
  intro line
  apply and_congr_right
  intro hline
  exact languageTag?_eq_some_iff (unblank_getLast?_writtenLines (List.mem_of_getElem? hline)) language

theorem second_eq_some_iff (source : String) (version : Nat) :
    ((headerLines source).drop 1).head?.bind version? = some version ↔
      NamesVersion source version := by
  have hlines : headerLines source = writtenLines source := trimmed_lines source.toList
  rw [hlines, List.head?_drop, Option.bind_eq_some_iff]
  apply exists_congr
  intro line
  apply and_congr_right
  intro hline
  exact version?_eq_some_iff (unblank_getLast?_writtenLines (List.mem_of_getElem? hline)) version

theorem parse_of_named {language source : String} {version : Nat}
    (hlanguage : NamesLanguage source language) (hversion : NamesVersion source version)
    (name : QueryName) : parse language name source = .ok ⟨name, language, version, source⟩ := by
  rw [← first_eq_some_iff] at hlanguage
  rw [← second_eq_some_iff] at hversion
  simp only [parse, hlanguage, hversion, beq_self_eq_true, if_true]

theorem parse_of_defect {language source reason : String} {name : QueryName} {e : ProfileFault}
    (h : HeaderDefect language name.text source e reason) :
    parse language name source = .error e := by
  cases h with
  | language h =>
    have hfirst : (headerLines source).head?.bind languageTag? = none := by
      apply Option.eq_none_iff_forall_ne_some.mpr
      intro tag htag
      exact h tag ((first_eq_some_iff source tag).mp htag)
    simp [parse, hfirst]
  | version htag h =>
    rw [← first_eq_some_iff] at htag
    have hsecond : ((headerLines source).drop 1).head?.bind version? = none := by
      apply Option.eq_none_iff_forall_ne_some.mpr
      intro version hversion
      exact h version ((second_eq_some_iff source version).mp hversion)
    simp only [parse, htag, hsecond]
  | foreign htag hversion h =>
    rw [← first_eq_some_iff] at htag
    rw [← second_eq_some_iff] at hversion
    simp only [parse, htag, hversion, beq_eq_false_iff_ne.mpr h, Bool.false_eq_true, if_false]

/-- A header names the language and a version, or it has a first defect. -/
theorem named_or_defect (language query source : String) :
    (∃ version, NamesLanguage source language ∧ NamesVersion source version) ∨
      ∃ e reason, HeaderDefect language query source e reason := by
  by_cases htag : ∃ tag, NamesLanguage source tag
  · obtain ⟨tag, htag⟩ := htag
    by_cases hversion : ∃ version, NamesVersion source version
    · obtain ⟨version, hversion⟩ := hversion
      by_cases h : tag = language
      · subst h
        exact Or.inl ⟨version, htag, hversion⟩
      · exact Or.inr ⟨_, _, .foreign htag hversion h⟩
    · exact Or.inr ⟨_, _, .version htag (not_exists.mp hversion)⟩
  · exact Or.inr ⟨_, _, .language (not_exists.mp htag)⟩

theorem parse_eq_ok_iff (language : String) (name : QueryName) (source : String) (a : Asset) :
    parse language name source = .ok a ↔
      ∃ version, NamesLanguage source language ∧ NamesVersion source version ∧
        a = ⟨name, language, version, source⟩ := by
  constructor
  · intro h
    rcases named_or_defect language name.text source with ⟨version, htag, hversion⟩ | ⟨e, _, hdefect⟩
    · rw [parse_of_named htag hversion name] at h
      exact ⟨version, htag, hversion, (Except.ok.inj h).symm⟩
    · rw [parse_of_defect hdefect] at h
      cases h
  · rintro ⟨version, htag, hversion, rfl⟩
    exact parse_of_named htag hversion name

theorem parse_eq_error_iff (language : String) (name : QueryName) (source : String)
    (e : ProfileFault) :
    parse language name source = .error e ↔
      ∃ reason, HeaderDefect language name.text source e reason := by
  constructor
  · intro h
    rcases named_or_defect language name.text source with ⟨version, htag, hversion⟩ |
      ⟨e', reason, hdefect⟩
    · rw [parse_of_named htag hversion name] at h
      cases h
    · rw [parse_of_defect hdefect] at h
      obtain rfl := Except.error.inj h
      exact ⟨reason, hdefect⟩
  · rintro ⟨reason, hdefect⟩
    exact parse_of_defect hdefect

theorem HeaderDefect.message_eq {language query source reason : String} {e : ProfileFault}
    (h : HeaderDefect language query source e reason) :
    e.message = ProfileFault.assetMessage language query reason := by
  cases h <;> rfl

/-! ## Headers that are written -/

def writtenLine (name : String) (word : List Char) : List Char :=
  ';' :: ' ' :: (name.toList ++ ' ' :: word)

def languageLine (language : String) : List Char :=
  writtenLine "language:" language.toList

def versionLine (version : Nat) : List Char :=
  writtenLine "version:" (Nat.toDigits 10 version)

def header (language : String) (version : Nat) : String :=
  String.ofList (languageLine language ++ '\n' :: versionLine version ++ ['\n'])

theorem headerLine_writtenLine (name : String) (word : List Char) :
    HeaderLine name word (writtenLine name word) := by
  refine ⟨[';'], [' '], [' '], by simp [writtenLine], ?_⟩
  simp [isBlank_space]

section

variable {word : List Char} (hword : ∀ c ∈ word, isBlank c = false)
include hword

theorem newline_not_mem_writtenLine {name : String} (hname : '\n' ∉ name.toList) :
    '\n' ∉ writtenLine name word := by
  have hnot : '\n' ∉ word := by
    intro hmem
    have hblank := hword _ hmem
    rw [isBlank_newline] at hblank
    cases hblank
  simp [writtenLine, hname, hnot]

theorem trimChars_writtenLine (name : String) (hne : word ≠ []) :
    trimChars (writtenLine name word) = writtenLine name word := by
  have hsplit : writtenLine name word = (';' :: ' ' :: (name.toList ++ [' '])) ++ word := by
    simp [writtenLine]
  apply trimChars_of_ends
  · intro c hc
    cases hc
    decide
  · rw [hsplit, List.getLast?_append_of_ne_nil _ hne]
    intro c hc
    exact hword c (List.mem_of_mem_getLast? hc)

end

/-- A text that starts with the two lines has them for its header. -/
theorem named_of_written {language source : String} {version : Nat} {rest : List Char}
    (htag : IsTag language) (hversion : version < UInt32.size)
    (hsource : source.toList =
      languageLine language ++ '\n' :: (versionLine version ++ '\n' :: rest)) :
    NamesLanguage source language ∧ NamesVersion source version := by
  obtain ⟨hne, htagged⟩ : language.toList ≠ [] ∧ ∀ c ∈ language.toList, isTagChar c = true := by
    apply (isTag_ofList_iff language.toList).mp
    rwa [String.ofList_toList]
  have hdigits : ∀ c ∈ Nat.toDigits 10 version, c.isDigit = true :=
    fun c hc => Nat.isDigit_of_mem_toDigits (by omega) (by omega) hc
  have hfirst : ∀ c ∈ language.toList, isBlank c = false :=
    fun c hc => unblank_of_isTagChar (htagged c hc)
  have hsecond : ∀ c ∈ Nat.toDigits 10 version, isBlank c = false :=
    fun c hc => unblank_of_isDigit (hdigits c hc)
  have hkeep : ∀ name word lines,
      (writtenLine name word :: lines).filter (fun line => !line.all isBlank) =
        writtenLine name word :: lines.filter (fun line => !line.all isBlank) :=
    fun _ _ _ => List.filter_cons_of_pos rfl
  have hlines : writtenLines source =
      languageLine language :: versionLine version :: writtenLines (String.ofList rest) := by
    rw [writtenLines, hsource, languageLine, versionLine,
      splitOn_line (newline_not_mem_writtenLine hfirst (by decide)),
      splitOn_line (newline_not_mem_writtenLine hsecond (by decide)),
      hkeep, hkeep, List.map_cons, List.map_cons, trimChars_writtenLine hfirst _ hne,
      trimChars_writtenLine hsecond _ Nat.toDigits_ne_nil, writtenLines, String.toList_ofList]
  refine ⟨⟨_, by rw [hlines]; rfl, htag, headerLine_writtenLine _ _⟩, _, by rw [hlines]; rfl,
    _, Nat.toDigits_ne_nil, hdigits, headerLine_writtenLine _ _, ?_, hversion⟩
  exact Nat.ofDigitChars_ten_toDigits

/-- **A text is read exactly if it has a header.**  Its first line that is not blank is one
semicolon or more, then `language:` and the language, and the second one is the same with `version:`
and digits below `2 ^ 32`; the asset has what the lines say, and the text itself.  A text without
such a header is refused with the first of its defects: no language, no version, another language.
And a header that is written for a language and a version is read back as these, whatever follows
it. -/
theorem parse_iff_header (language : String) (name : QueryName) (source : String) :
    (∀ a, parse language name source = .ok a ↔
      ∃ version, NamesLanguage source language ∧ NamesVersion source version ∧
        a = ⟨name, language, version, source⟩) ∧
    (∀ e, parse language name source = .error e ↔
      ∃ reason, HeaderDefect language name.text source e reason ∧
        e.message = ProfileFault.assetMessage language name.text reason) ∧
    (∀ version rest, IsTag language → version < UInt32.size → source = header language version ++ rest →
      parse language name source = .ok ⟨name, language, version, source⟩) := by
  refine ⟨parse_eq_ok_iff language name source, fun e => ?_,
    fun version rest htag hversion hsource => ?_⟩
  · rw [parse_eq_error_iff]
    apply exists_congr
    intro reason
    rw [iff_self_and]
    exact HeaderDefect.message_eq
  · have hstart : source.toList =
        languageLine language ++ '\n' :: (versionLine version ++ '\n' :: rest.toList) := by
      rw [hsource, String.toList_append, header, String.toList_ofList]
      simp
    obtain ⟨hlanguage, hnumber⟩ := named_of_written htag hversion hstart
    exact parse_of_named hlanguage hnumber name

theorem parse_iff_header_greatest : IsTag "c++" ∧ 4294967295 < UInt32.size ∧
    parse "c++" .scope (header "c++" 4294967295 ++ "(x) @y") =
      .ok ⟨.scope, "c++", 4294967295, header "c++" 4294967295 ++ "(x) @y"⟩ := by
  have htag : IsTag "c++" := by decide
  obtain ⟨-, -, hread⟩ := parse_iff_header "c++" .scope (header "c++" 4294967295 ++ "(x) @y")
  exact ⟨htag, by decide, hread 4294967295 "(x) @y" htag (by decide) rfl⟩

end Asset

end CodeAtlas
