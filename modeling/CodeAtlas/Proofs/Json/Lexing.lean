import CodeAtlas.Json.Printer
import CodeAtlas.Json.Reader
import Mathlib.Data.List.Basic
import Mathlib.Data.List.TakeWhile
import Mathlib.Tactic.IntervalCases
import Mathlib.Tactic.SplitIfs

/-!
The text of a value and its tokens.  `toTokens` says which tokens a value has, and the reader cuts
the laid-out text of a value into exactly these:

    Whole v → tokens? (pretty v).toList = some v.toTokens      (tokens?_pretty)

Each piece of text is dealt with in front of any other text: a string ends at its own quote, whatever
its characters (`tokens?_writeText`), but a number or a word ends only where what follows goes on
neither (`Ends`), and in the layout a comma, a closing bracket or the end of a line follows it.
-/

namespace CodeAtlas.Json

/-! ## Strings -/

theorem hexValue?_hexDigit {k : Nat} (h : k < 16) : hexValue? (hexDigit k) = some k := by
  interval_cases k <;> decide

theorem hexDigit_ne {k : Nat} (h : k < 16) : hexDigit k ≠ '"' ∧ hexDigit k ≠ '\\' := by
  interval_cases k <;> decide

theorem hex4?_hexDigits {n : Nat} (h : n < 0x20) :
    hex4? '0' '0' (hexDigit (n / 16)) (hexDigit (n % 16)) = some n := by
  have hzero : hexValue? '0' = some 0 := by decide
  have hhigh := hexValue?_hexDigit (k := n / 16) (by omega)
  have hlow := hexValue?_hexDigit (k := n % 16) (by omega)
  simp only [hex4?, hzero, hhigh, hlow, Option.bind_eq_bind, Option.bind_some, Option.pure_def,
    Option.some.injEq]
  omega

theorem writeChar_cases (c : Char) :
    (∃ e, shortEscape? e = some c ∧ writeChar c = ['\\', e]) ∨
    (c.toNat < 0x20 ∧
      writeChar c = ['\\', 'u', '0', '0', hexDigit (c.toNat / 16), hexDigit (c.toNat % 16)]) ∨
    (c ≠ '"' ∧ c ≠ '\\' ∧ 0x20 ≤ c.toNat ∧ writeChar c = [c]) := by
  have hcode : ∀ n, c.toNat = n → Char.ofNat n = c := by
    rintro n rfl
    exact Char.ofNat_toNat c
  unfold writeChar
  split_ifs with hquote hslash hcontrol hn hr ht hb hf
  · exact .inl ⟨'"', by rw [hquote]; rfl, rfl⟩
  · exact .inl ⟨'\\', by rw [hslash]; rfl, rfl⟩
  · exact .inl ⟨'n', by rw [hn]; rfl, rfl⟩
  · exact .inl ⟨'r', by rw [hr]; rfl, rfl⟩
  · exact .inl ⟨'t', by rw [ht]; rfl, rfl⟩
  · exact .inl ⟨'b', congrArg some (hcode 8 hb), rfl⟩
  · exact .inl ⟨'f', congrArg some (hcode 12 hf), rfl⟩
  · exact .inr (.inl ⟨hcontrol, rfl⟩)
  · exact .inr (.inr ⟨hquote, hslash, by omega, rfl⟩)

theorem untilQuote_writeChar (c : Char) (cs : List Char) :
    untilQuote (writeChar c ++ cs) = (untilQuote cs).map (fun r => (writeChar c ++ r.1, r.2)) := by
  obtain ⟨e, -, hw⟩ | ⟨hc, hw⟩ | ⟨hquote, hslash, -, hw⟩ := writeChar_cases c
  · rw [hw]
    rfl
  · have hhigh := hexDigit_ne (k := c.toNat / 16) (by omega)
    have hlow := hexDigit_ne (k := c.toNat % 16) (by omega)
    simp [hw, untilQuote, hhigh, hlow, Function.comp_def]
  · simp [hw, untilQuote, hslash]

theorem unescape_writeChar (c : Char) (cs : List Char) :
    unescape none (writeChar c ++ cs) = (unescape none cs).map (c :: ·) := by
  obtain ⟨e, he, hw⟩ | ⟨hc, hw⟩ | ⟨-, hslash, hc, hw⟩ := writeChar_cases c
  · have hu : e ≠ 'u' := by
      rintro rfl
      cases he
    simp [hw, unescape, he, hu]
  · have hlow : isLowSurrogate c.toNat = false := by simp [isLowSurrogate]; omega
    have hhigh : isHighSurrogate c.toNat = false := by simp [isHighSurrogate]; omega
    simp [hw, unescape, hex4?_hexDigits hc, hlow, hhigh]
  · simp [hw, unescape, hslash, hc]

theorem untilQuote_written (cs rest : List Char) :
    untilQuote (cs.flatMap writeChar ++ '"' :: rest) = some (cs.flatMap writeChar, rest) := by
  induction cs with
  | nil => rfl
  | cons c cs ih =>
    rw [List.flatMap_cons, List.append_assoc, untilQuote_writeChar, ih]
    rfl

theorem unescape_written (cs : List Char) : unescape none (cs.flatMap writeChar) = some cs := by
  induction cs with
  | nil => rfl
  | cons c cs ih =>
    rw [List.flatMap_cons, unescape_writeChar, ih]
    rfl

/-! ## Numbers -/

theorem head?_toDigits_ne {n : Nat} (h : 0 < n) : (Nat.toDigits 10 n).head? ≠ some '0' := by
  induction n using Nat.strongRecOn with
  | ind n ih =>
    by_cases hn : n < 10
    · rw [Nat.toDigits_of_lt_base hn, List.head?_cons]
      intro heq
      have := Nat.digitChar_eq_zero.mp (Option.some.inj heq)
      omega
    · rw [Nat.toDigits_of_base_le (by omega) (by omega),
        List.head?_append_of_ne_nil _ Nat.toDigits_ne_nil]
      exact ih (n / 10) (by omega) (by omega)

theorem digitsValue_toDigits (n : Nat) : digitsValue (Nat.toDigits 10 n) = n := by
  have hfold : digitsValue (Nat.toDigits 10 n) = Nat.ofDigitChars 10 (Nat.toDigits 10 n) 0 := by
    rw [Nat.ofDigitChars_eq_foldl]
    simp [digitsValue, Nat.mul_comm]
  rw [hfold, Nat.ofDigitChars_ten_toDigits]

theorem numeral?_toDigits {n : Nat} (h : n < UInt64.size) :
    numeral? (Nat.toDigits 10 n) = some (.natural n) := by
  have hdigits : ∀ c ∈ Nat.toDigits 10 n, c.isDigit = true :=
    fun c hc => Nat.isDigit_of_mem_toDigits (by omega) (by omega) hc
  have hwhole : (Nat.toDigits 10 n).takeWhile Char.isDigit = Nat.toDigits 10 n := by
    rw [List.takeWhile_eq_self_iff]
    exact hdigits
  have htail : (Nat.toDigits 10 n).dropWhile Char.isDigit = [] := by
    rw [List.dropWhile_eq_nil_iff]
    exact hdigits
  have hminus : (Nat.toDigits 10 n).head? ≠ some '-' := by
    intro heq
    have := hdigits '-' (List.mem_of_mem_head? heq)
    simp at this
  have hvalid : ((Nat.toDigits 10 n).isEmpty ||
      ((Nat.toDigits 10 n).head? == some '0' && decide ((Nat.toDigits 10 n).length > 1)) ||
      !validTail []) = false := by
    rcases Nat.eq_zero_or_pos n with rfl | hpos
    · rfl
    · simp [Nat.toDigits_ne_nil, head?_toDigits_ne hpos, validTail, validExponent]
  simp only [numeral?, beq_eq_false_iff_ne.mpr hminus, Bool.false_eq_true, if_false, hwhole, htail,
    hvalid, List.isEmpty_nil, Bool.not_true, digitsValue_toDigits, h, if_true]

/-! ## Tokens -/

theorem length_untilQuote {cs : List Char} {r : List Char × List Char}
    (h : untilQuote cs = some r) : r.2.length ≤ cs.length := by
  fun_induction untilQuote cs generalizing r with
  | case1 => cases h
  | case2 rest =>
    cases h
    simp
  | case3 c rest ih =>
    obtain ⟨s, hs, rfl⟩ := Option.map_eq_some_iff.mp h
    have := ih hs
    simp only [List.length_cons]
    omega
  | case4 c rest _ _ ih =>
    obtain ⟨s, hs, rfl⟩ := Option.map_eq_some_iff.mp h
    have := ih hs
    simp only [List.length_cons]
    omega

theorem tokensWithin_eq {f g : Nat} {cs : List Char} (hf : cs.length ≤ f) (hg : cs.length ≤ g) :
    tokensWithin f cs = tokensWithin g cs := by
  induction f generalizing g cs with
  | zero =>
    rw [List.length_eq_zero_iff.mp (Nat.le_zero.mp hf)]
    simp only [tokensWithin]
  | succ f ih =>
    cases cs with
    | nil => simp only [tokensWithin]
    | cons c rest =>
      rw [List.length_cons] at hf hg
      obtain ⟨g, rfl⟩ : ∃ n, g = n + 1 := ⟨g - 1, by omega⟩
      have hrest : ∀ more : List Char, more.length ≤ rest.length →
          tokensWithin f more = tokensWithin g more := by
        intro more hmore
        exact ih (by omega) (by omega)
      have hnumeral := hrest (rest.dropWhile isNumeralChar) (List.length_dropWhile_le ..)
      have hword := hrest (rest.dropWhile Char.isAlpha) (List.length_dropWhile_le ..)
      cases hquoted : untilQuote rest with
      | none =>
        simp only [tokensWithin, hquoted, Option.bind_eq_bind, Option.bind_none, hrest rest le_rfl,
          hnumeral, hword]
      | some r =>
        have hafter := hrest r.2 (length_untilQuote hquoted)
        simp only [tokensWithin, hquoted, Option.bind_eq_bind, Option.bind_some, hafter,
          hrest rest le_rfl, hnumeral, hword]

theorem tokensWithin_of_length_le {f : Nat} {cs : List Char} (h : cs.length ≤ f) :
    tokensWithin f cs = tokens? cs :=
  tokensWithin_eq h le_rfl

@[simp] theorem tokens?_nil : tokens? [] = some [] := rfl

theorem tokens?_space {c : Char} (h : isSpace c = true) (cs : List Char) :
    tokens? (c :: cs) = tokens? cs := by
  simp only [tokens?, List.length_cons, tokensWithin, h, if_true]

/-- The token of a character that is one by itself. -/
def mark? : Char → Option Token
  | '[' => some .openArray
  | ']' => some .closeArray
  | '\x7b' => some .openObject
  | '\x7d' => some .closeObject
  | ',' => some .comma
  | ':' => some .colon
  | _ => none

theorem tokens?_mark {c : Char} {t : Token} (h : mark? c = some t) (cs : List Char) :
    tokens? (c :: cs) = (tokens? cs).map (t :: ·) := by
  unfold mark? at h
  split at h <;> cases h <;> rfl

theorem toList_writeText (s : String) :
    (writeText s).toList = '"' :: s.toList.flatMap writeChar ++ ['"'] := by
  rw [writeText, String.toList_ofList]

theorem tokens?_writeText (s : String) (cs : List Char) :
    tokens? ((writeText s).toList ++ cs) = (tokens? cs).map (.leaf (.text s) :: ·) := by
  have htext : (writeText s).toList ++ cs = '"' :: (s.toList.flatMap writeChar ++ '"' :: cs) := by
    simp [toList_writeText]
  have hlength : cs.length ≤ (s.toList.flatMap writeChar ++ '"' :: cs).length := by
    simp only [List.length_append, List.length_cons]
    omega
  have hquote : isSpace '"' = false := by decide
  rw [htext, tokens?, List.length_cons, tokensWithin]
  simp only [hquote, Bool.false_eq_true, if_false, untilQuote_written, Option.bind_eq_bind,
    Option.bind_some, unescape_written, tokensWithin_of_length_le hlength, String.ofList_toList]
  cases tokens? cs <;> rfl

/-- What follows goes on neither a number nor a word. -/
def Ends (cs : List Char) : Prop :=
  ∀ c ∈ cs.head?, isNumeralChar c = false ∧ c.isAlpha = false

theorem Ends.nil : Ends [] := by
  simp [Ends]

theorem Ends.cons {c : Char} (h : isNumeralChar c = false ∧ c.isAlpha = false) (cs : List Char) :
    Ends (c :: cs) := by
  simpa [Ends] using h

/-- A run of characters of one class ends where the class does. -/
theorem takeWhile_of_head? {p : Char → Bool} {ws cs : List Char} (hw : ∀ c ∈ ws, p c = true)
    (hcs : ∀ c ∈ cs.head?, p c = false) :
    (ws ++ cs).takeWhile p = ws ∧ (ws ++ cs).dropWhile p = cs := by
  rw [List.takeWhile_append_of_pos hw, List.dropWhile_append_of_pos hw]
  cases cs with
  | nil => simp
  | cons c cs => simp [hcs c rfl]

theorem isSpace_eq_false {c : Char} (h : c.isAlphanum = true) : isSpace c = false := by
  by_contra hblank
  simp only [isSpace, Bool.not_eq_false, Bool.or_eq_true, beq_iff_eq] at hblank
  obtain ((rfl | rfl) | rfl) | rfl := hblank <;> simp at h

theorem tokens?_digit {d : Char} (h : d.isDigit = true) (cs : List Char) :
    tokens? (d :: cs) = (do
      let value ← numeral? ((d :: cs).takeWhile isNumeralChar)
      let more ← tokens? (cs.dropWhile isNumeralChar)
      return .leaf value :: more) := by
  have hspace : isSpace d = false := isSpace_eq_false (by simp [Char.isAlphanum, h])
  have hnumeral : isNumeralChar d = true := by simp [isNumeralChar, h]
  have hlength : (cs.dropWhile isNumeralChar).length ≤ cs.length := List.length_dropWhile_le ..
  rw [tokens?, List.length_cons, tokensWithin]
  · simp only [hspace, hnumeral, Bool.false_eq_true, if_false, if_true,
      tokensWithin_of_length_le hlength]
  all_goals
    rintro rfl
    simp at h

theorem tokens?_toString {n : Nat} (h : n < UInt64.size) {cs : List Char} (hcs : Ends cs) :
    tokens? ((toString n).toList ++ cs) = (tokens? cs).map (.leaf (.natural n) :: ·) := by
  have hdigits : ∀ c ∈ Nat.toDigits 10 n, c.isDigit = true :=
    fun c hc => Nat.isDigit_of_mem_toDigits (by omega) (by omega) hc
  have hnumeral : ∀ c ∈ Nat.toDigits 10 n, isNumeralChar c = true := by
    intro c hc
    simp [isNumeralChar, hdigits c hc]
  have hvalue := numeral?_toDigits h
  rw [Nat.toString_eq_ofList_toDigits, String.toList_ofList]
  cases hds : Nat.toDigits 10 n with
  | nil => exact absurd hds Nat.toDigits_ne_nil
  | cons d ds =>
    rw [hds] at hdigits hnumeral hvalue
    have hend : ∀ c ∈ cs.head?, isNumeralChar c = false := fun c hc => (hcs c hc).1
    rw [List.cons_append, tokens?_digit (hdigits d (by simp)), ← List.cons_append,
      (takeWhile_of_head? hnumeral hend).1, hvalue,
      (takeWhile_of_head? (List.forall_mem_of_forall_mem_cons hnumeral) hend).2]
    cases tokens? cs <;> rfl

theorem tokens?_letter {c : Char} (h : c.isAlpha = true) (hnumeral : isNumeralChar c = false)
    (word : List Char) (hword : word.all Char.isAlpha = true) {cs : List Char}
    (hcs : ∀ d ∈ cs.head?, d.isAlpha = false) :
    tokens? (c :: word ++ cs) =
      if String.ofList (c :: word) == "null" then (tokens? cs).map (.leaf .null :: ·)
      else if String.ofList (c :: word) == "true" then (tokens? cs).map (.leaf (.bool true) :: ·)
      else if String.ofList (c :: word) == "false" then (tokens? cs).map (.leaf (.bool false) :: ·)
      else none := by
  have hspace : isSpace c = false := isSpace_eq_false (by simp [Char.isAlphanum, h])
  have hrest : ∀ d ∈ word, d.isAlpha = true := List.all_eq_true.mp hword
  have hall : ∀ d ∈ c :: word, d.isAlpha = true := List.forall_mem_cons.mpr ⟨h, hrest⟩
  have hlength : cs.length ≤ (word ++ cs).length := by simp
  rw [List.cons_append, tokens?, List.length_cons, tokensWithin]
  · simp only [hspace, hnumeral, Bool.false_eq_true, if_false, ← List.cons_append,
      (takeWhile_of_head? hall hcs).1, (takeWhile_of_head? hrest hcs).2,
      tokensWithin_of_length_le hlength]
  all_goals
    rintro rfl
    simp at h

/-- The values that are written as a word. -/
def words : List Json := [.null, .bool true, .bool false]

theorem tokens?_word {v : Json} (h : v ∈ words) {cs : List Char} (hcs : Ends cs) :
    tokens? ((writeLeaf v).toList ++ cs) = (tokens? cs).map (.leaf v :: ·) := by
  have hend : ∀ c ∈ cs.head?, c.isAlpha = false := fun c hc => (hcs c hc).2
  simp only [words, List.mem_cons, List.not_mem_nil, or_false] at h
  obtain rfl | rfl | rfl := h
  · exact tokens?_letter (c := 'n') (by decide) (by decide) ['u', 'l', 'l'] (by decide) hend
  · exact tokens?_letter (c := 't') (by decide) (by decide) ['r', 'u', 'e'] (by decide) hend
  · exact tokens?_letter (c := 'f') (by decide) (by decide) ['a', 'l', 's', 'e'] (by decide) hend

/-! ## Layout -/

/-- Every number in the value is a natural number of 64 bits. -/
inductive Whole : Json → Prop
  | null : Whole .null
  | bool (b : Bool) : Whole (.bool b)
  | natural {n : Nat} (h : n < UInt64.size) : Whole (.natural n)
  | text (s : String) : Whole (.text s)
  | array {items : List Json} (h : ∀ v ∈ items, Whole v) : Whole (.array items)
  | object {fields : List (String × Json)} (h : ∀ f ∈ fields, Whole f.2) : Whole (.object fields)

theorem Whole.ofFields {fields : List (String × Json)} (h : fields.Forall fun f => Whole f.2) :
    Whole (.object fields) :=
  .object (List.forall_iff_forall_mem.mp h)

mutual

def toTokens : Json → List Token
  | .array items => .openArray :: itemTokens items
  | .object fields => .openObject :: fieldTokens fields
  | leaf => [.leaf leaf]

def itemTokens : List Json → List Token
  | [] => [.closeArray]
  | [v] => toTokens v ++ [.closeArray]
  | v :: vs => toTokens v ++ .comma :: itemTokens vs

def fieldTokens : List (String × Json) → List Token
  | [] => [.closeObject]
  | [(k, v)] => .leaf (.text k) :: .colon :: toTokens v ++ [.closeObject]
  | (k, v) :: fs => .leaf (.text k) :: .colon :: toTokens v ++ .comma :: fieldTokens fs

end

theorem tokens?_margin (level : Nat) (cs : List Char) :
    tokens? ((margin level).toList ++ cs) = tokens? cs := by
  rw [margin, String.toList_ofList]
  induction 2 * level with
  | zero => rfl
  | succ n ih => rw [List.replicate_succ, List.cons_append, tokens?_space (by decide), ih]

theorem tokens?_newline (level : Nat) (cs : List Char) :
    tokens? ('\n' :: ((margin level).toList ++ cs)) = tokens? cs := by
  rw [tokens?_space (by decide), tokens?_margin]

/-- A value is cut into its tokens, whatever follows that cannot be taken for a part of it. -/
def Legible (v : Json) : Prop :=
  ∀ (level : Nat) (cs : List Char), Ends cs →
    tokens? ((prettyAt level v).toList ++ cs) = (tokens? cs).map (v.toTokens ++ ·)

theorem tokens?_prettyItems {items : List Json} (hne : items ≠ []) (h : ∀ v ∈ items, Legible v)
    (outer inner : Nat) (cs : List Char) :
    tokens? ((prettyItems inner items).toList ++ '\n' :: ((margin outer).toList ++ ']' :: cs)) =
      (tokens? cs).map (itemTokens items ++ ·) := by
  -- the end of the array goes along: it is what follows the last item in place of a comma
  induction items with
  | nil => exact absurd rfl hne
  | cons v vs ih =>
    have hv := h v (by simp)
    cases vs with
    | nil =>
      simp only [prettyItems, String.toList_append, List.append_assoc]
      rw [tokens?_margin, hv inner _ (.cons (by decide) _), tokens?_newline,
        tokens?_mark (c := ']') rfl, Option.map_map]
      simp only [itemTokens, Function.comp_def, List.append_assoc, List.singleton_append]
    | cons w ws =>
      have hrest := ih (by simp) fun u hu => h u (by simp [hu])
      simp only [prettyItems, String.toList_append, List.append_assoc, String.reduceToList,
        List.cons_append, List.nil_append]
      rw [tokens?_margin, hv inner _ (.cons (by decide) _),
        tokens?_mark (c := ',') rfl, tokens?_space (by decide), hrest,
        Option.map_map, Option.map_map]
      simp only [itemTokens, Function.comp_def, List.append_assoc, List.cons_append]

theorem tokens?_prettyFields {fields : List (String × Json)} (hne : fields ≠ [])
    (h : ∀ f ∈ fields, Legible f.2) (outer inner : Nat) (cs : List Char) :
    tokens? ((prettyFields inner fields).toList ++
        '\n' :: ((margin outer).toList ++ '\x7d' :: cs)) =
      (tokens? cs).map (fieldTokens fields ++ ·) := by
  induction fields with
  | nil => exact absurd rfl hne
  | cons f fs ih =>
    obtain ⟨k, v⟩ := f
    have hv : Legible v := h (k, v) (by simp)
    cases fs with
    | nil =>
      simp only [prettyFields, String.toList_append, List.append_assoc, String.reduceToList,
        List.cons_append, List.nil_append]
      rw [tokens?_margin, tokens?_writeText, tokens?_mark (c := ':') rfl,
        tokens?_space (by decide), hv inner _ (.cons (by decide) _), tokens?_newline,
        tokens?_mark (c := '\x7d') rfl]
      simp only [fieldTokens, Option.map_map, Function.comp_def, List.append_assoc,
        List.cons_append, List.nil_append]
    | cons g gs =>
      have hrest := ih (by simp) fun u hu => h u (by simp [hu])
      simp only [prettyFields, String.toList_append, List.append_assoc, String.reduceToList,
        List.cons_append, List.nil_append]
      rw [tokens?_margin, tokens?_writeText, tokens?_mark (c := ':') rfl,
        tokens?_space (by decide), hv inner _ (.cons (by decide) _),
        tokens?_mark (c := ',') rfl, tokens?_space (by decide), hrest]
      simp only [fieldTokens, Option.map_map, Function.comp_def, List.append_assoc,
        List.cons_append]

theorem legible_of_whole {v : Json} (h : Whole v) : Legible v := by
  -- what follows is arbitrary, so that a value can be followed by the rest of its array or object
  induction h with
  | null =>
    intro level cs hcs
    exact tokens?_word (v := .null) (by simp [words]) hcs
  | bool b =>
    intro level cs hcs
    cases b with
    | false => exact tokens?_word (v := .bool false) (by simp [words]) hcs
    | true => exact tokens?_word (v := .bool true) (by simp [words]) hcs
  | natural hn =>
    intro level cs hcs
    exact tokens?_toString hn hcs
  | text s =>
    intro level cs hcs
    exact tokens?_writeText s cs
  | @array items h ih =>
    intro level cs hcs
    cases items with
    | nil =>
      simp only [prettyAt, writeLeaf, String.reduceToList, List.cons_append, List.nil_append]
      rw [tokens?_mark (c := '[') rfl,
        tokens?_mark (c := ']') rfl]
      simp only [toTokens, itemTokens, Option.map_map, Function.comp_def, List.cons_append,
        List.nil_append]
    | cons v vs =>
      simp only [prettyAt, String.toList_append, List.append_assoc, String.reduceToList,
        List.cons_append, List.nil_append]
      rw [tokens?_mark (c := '[') rfl, tokens?_space (by decide),
        tokens?_prettyItems (by simp) ih]
      simp only [toTokens, Option.map_map, Function.comp_def, List.cons_append]
  | @object fields h ih =>
    intro level cs hcs
    cases fields with
    | nil =>
      simp only [prettyAt, writeLeaf, String.reduceToList, List.cons_append, List.nil_append]
      rw [tokens?_mark (c := '\x7b') rfl,
        tokens?_mark (c := '\x7d') rfl]
      simp only [toTokens, fieldTokens, Option.map_map, Function.comp_def, List.cons_append,
        List.nil_append]
    | cons f fs =>
      simp only [prettyAt, String.toList_append, List.append_assoc, String.reduceToList,
        List.cons_append, List.nil_append]
      rw [tokens?_mark (c := '\x7b') rfl, tokens?_space (by decide),
        tokens?_prettyFields (by simp) ih]
      simp only [toTokens, Option.map_map, Function.comp_def, List.cons_append]

theorem tokens?_pretty {v : Json} (h : Whole v) : tokens? (pretty v).toList = some v.toTokens := by
  have hread := legible_of_whole h 0 [] .nil
  rwa [List.append_nil, tokens?_nil, Option.map_some, List.append_nil] at hread

end CodeAtlas.Json
