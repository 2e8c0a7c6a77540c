import CodeAtlas.Text.Blank

/-!
Regular expressions for query predicates: literals, classes, groups, alternation, repetition, the
text anchors and word boundaries.  `parse?` refuses a malformed expression.  `search` asks whether
some stretch of a text matches, by the set of places where a match that starts at a given place can
end, so it is total whatever the expression.
-/

namespace CodeAtlas

inductive CharSet where
  | range (low high : Nat)
  | digit
  | word
  | blank
  | not (s : CharSet)
  | or (s t : CharSet)
  | none
deriving Repr, Inhabited

namespace CharSet

def isWord (c : Char) : Bool :=
  c.isAlphanum || c == '_'

def mem (c : Char) : CharSet → Bool
  | .range low high => low ≤ c.toNat && c.toNat ≤ high
  | .digit => c.isDigit
  | .word => isWord c
  | .blank => Text.isBlank c
  | .not s => !s.mem c
  | .or s t => s.mem c || t.mem c
  | .none => false

def single (c : Char) : CharSet := .range c.toNat c.toNat

def dot : CharSet := .not (single '\n')

end CharSet

inductive Regex where
  | empty
  | char (set : CharSet)
  | seq (a b : Regex)
  | alt (a b : Regex)
  | star (a : Regex)
  | start
  | stop
  | boundary (inside : Bool)
deriving Repr, Inhabited

namespace Regex

/-! ## Matching -/

/-- Places reached from `frontier` by any number of steps. -/
def closure (step : Nat → List Nat) : Nat → List Nat → List Nat → List Nat
  | 0, _, seen => seen
  | fuel + 1, frontier, seen =>
    let next := (frontier.flatMap step).eraseDups.filter (fun i => !seen.contains i)
    if next.isEmpty then seen else closure step fuel next (seen ++ next)

/-- Whether a word character stands at a place. -/
def wordAt (text : Array (Option Char)) (i : Nat) : Bool :=
  match text[i]? with
  | some (some c) => CharSet.isWord c
  | _ => false

/-- Where a match that starts at a place can end. -/
def ends (text : Array (Option Char)) : Regex → Nat → List Nat
  | .empty, i => [i]
  | .char set, i =>
    match text[i]? with
    | some (some c) => if set.mem c then [i + 1] else []
    | _ => []
  | .seq a b, i => ((ends text a i).flatMap (ends text b)).eraseDups
  | .alt a b, i => (ends text a i ++ ends text b i).eraseDups
  | .star a, i => closure (ends text a) (text.size + 1) [i] [i]
  | .start, i => if i = 0 then [i] else []
  | .stop, i => if i = text.size then [i] else []
  | .boundary inside, i =>
    let before := i != 0 && wordAt text (i - 1)
    if (before != wordAt text i) != inside then [i] else []

/-- Whether some stretch of the text matches. -/
def search (r : Regex) (text : List (Option Char)) : Bool :=
  let units := text.toArray
  (List.range (units.size + 1)).any (fun i => !(ends units r i).isEmpty)

/-! ## Reading -/

/-- `a` from `low` to `high` times; without `high`, any number of times from `low` on. -/
def times (a : Regex) (low : Nat) (high : Option Nat) : Regex :=
  let front := (List.replicate low a).foldr .seq .empty
  match high with
  | none => .seq front (.star a)
  | some h => .seq front ((List.replicate (h - low) a).foldr (fun x rest => .alt .empty (.seq x rest)) .empty)

/-- The set of a class letter such as `d`. -/
def classLetter? : Char → Option CharSet
  | 'd' => some .digit
  | 'D' => some (.not .digit)
  | 's' => some .blank
  | 'S' => some (.not .blank)
  | 'w' => some .word
  | 'W' => some (.not .word)
  | _ => none

/-- The character of an escape that stands for one character. -/
def escapedChar? (c : Char) : Option Char :=
  match c with
  | 'a' => some (Char.ofNat 7)
  | 'f' => some (Char.ofNat 12)
  | 't' => some '\t'
  | 'n' => some '\n'
  | 'r' => some '\r'
  | 'v' => some (Char.ofNat 11)
  | c => if c.toNat < 0x80 && !c.isAlphanum && c != '<' && c != '>' then some c else none

/-- The items of a bracketed class up to its closing bracket. -/
def classItems : Nat → CharSet → List Char → Option (CharSet × List Char)
  | 0, _, _ => none
  | _, _, [] => none
  | fuel + 1, acc, c :: rest =>
    let finish (low : Char) (after : List Char) : Option (CharSet × List Char) :=
      match after with
      | '-' :: '\\' :: h :: more =>
        match escapedChar? h with
        | some high =>
          if low ≤ high then classItems fuel (.or acc (.range low.toNat high.toNat)) more else none
        | none => none
      | '-' :: ']' :: more => some (.or (.or acc (CharSet.single low)) (CharSet.single '-'), more)
      | '-' :: high :: more =>
        if low ≤ high then classItems fuel (.or acc (.range low.toNat high.toNat)) more else none
      | _ => classItems fuel (.or acc (CharSet.single low)) after
    match c with
    | ']' => some (acc, rest)
    | '\\' =>
      match rest with
      | [] => none
      | e :: after =>
        match classLetter? e with
        | some set => classItems fuel (.or acc set) after
        | none =>
          match escapedChar? e with
          | some low => finish low after
          | none => none
    | low => finish low rest

/-- A bracketed class after its opening bracket. -/
def bracket (fuel : Nat) (cs : List Char) : Option (Regex × List Char) :=
  let negated := cs.head? == some '^'
  let body := if negated then cs.drop 1 else cs
  let first := body.head? == some ']'
  let acc := if first then CharSet.single ']' else .none
  match classItems fuel acc (if first then body.drop 1 else body) with
  | some (set, rest) => some (.char (if negated then .not set else set), rest)
  | none => none

def leadingNumber? (cs : List Char) : Option (Nat × List Char) :=
  let ds := cs.takeWhile Char.isDigit
  if ds.isEmpty then none
  else some (ds.foldl (fun n d => n * 10 + (d.toNat - 48)) 0, cs.dropWhile Char.isDigit)

/-- The bounds of a counted repetition after its opening brace. -/
def counts? (cs : List Char) : Option ((Nat × Option Nat) × List Char) :=
  match leadingNumber? cs with
  | some (low, '\x7d' :: rest) => some ((low, some low), rest)
  | some (low, ',' :: '\x7d' :: rest) => some ((low, none), rest)
  | some (low, ',' :: after) =>
    match leadingNumber? after with
    | some (high, '\x7d' :: rest) => if low ≤ high then some ((low, some high), rest) else none
    | _ => none
  | _ => none

/-- An expression with the repetition marks that follow it. -/
def repetitions : Nat → Regex → List Char → Option (Regex × List Char)
  | 0, _, _ => none
  | fuel + 1, a, cs =>
    let lazy (rest : List Char) := if rest.head? == some '?' then rest.drop 1 else rest
    match cs with
    | '*' :: rest => repetitions fuel (.star a) (lazy rest)
    | '+' :: rest => repetitions fuel (.seq a (.star a)) (lazy rest)
    | '?' :: rest => repetitions fuel (.alt a .empty) (lazy rest)
    | '\x7b' :: rest =>
      match counts? rest with
      | some ((low, high), after) => repetitions fuel (times a low high) (lazy after)
      | none => none
    | _ => some (a, cs)

mutual

/-- Branches up to the end of the group. -/
def alternatives : Nat → List Char → Option (Regex × List Char)
  | 0, _ => none
  | fuel + 1, cs =>
    match sequence fuel cs with
    | some (a, '|' :: rest) => (alternatives fuel rest).map (fun r => (.alt a r.1, r.2))
    | other => other

/-- Repeated atoms up to the end of the branch. -/
def sequence : Nat → List Char → Option (Regex × List Char)
  | 0, _ => none
  | fuel + 1, cs =>
    match cs with
    | [] => some (.empty, [])
    | '|' :: _ => some (.empty, cs)
    | ')' :: _ => some (.empty, cs)
    | _ =>
      match atom fuel cs with
      | some (a, rest) =>
        match repetitions (rest.length + 1) a rest with
        | some (b, after) => (sequence fuel after).map (fun r => (.seq b r.1, r.2))
        | none => none
      | none => none

/-- One expression without the marks after it. -/
def atom : Nat → List Char → Option (Regex × List Char)
  | 0, _ => none
  | fuel + 1, cs =>
    match cs with
    | [] => none
    | '(' :: '?' :: ':' :: rest => group fuel rest
    | '(' :: '?' :: _ => none
    | '(' :: rest => group fuel rest
    | '[' :: rest => bracket (rest.length + 1) rest
    | '.' :: rest => some (.char .dot, rest)
    | '^' :: rest => some (.start, rest)
    | '$' :: rest => some (.stop, rest)
    | '\\' :: 'b' :: rest => some (.boundary false, rest)
    | '\\' :: 'B' :: rest => some (.boundary true, rest)
    | '\\' :: 'A' :: rest => some (.start, rest)
    | '\\' :: 'z' :: rest => some (.stop, rest)
    | '\\' :: e :: rest =>
      match classLetter? e with
      | some set => some (.char set, rest)
      | none => (escapedChar? e).map (fun c => (.char (CharSet.single c), rest))
    | '\\' :: [] => none
    | c :: rest =>
      if c == '*' || c == '+' || c == '?' || c == '\x7b' then none
      else some (.char (CharSet.single c), rest)

/-- The branches of a group and its closing parenthesis. -/
def group : Nat → List Char → Option (Regex × List Char)
  | 0, _ => none
  | fuel + 1, cs =>
    match alternatives fuel cs with
    | some (a, ')' :: rest) => some (a, rest)
    | _ => none

end

def parse? (s : String) : Option Regex :=
  match alternatives (4 * s.length + 4) s.toList with
  | some (r, []) => some r
  | _ => none

end Regex

end CodeAtlas
