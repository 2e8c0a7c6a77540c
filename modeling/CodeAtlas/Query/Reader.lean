import CodeAtlas.Grammar.Vocabularies
import CodeAtlas.Query.Fault
import CodeAtlas.Query.Pattern

/-!
Reading query texts.

    (kind field: (other)? @label !absent) @label     a node, its children in order, its captures
    (_)   _   "token"   [a b]                        any named node, any node, a token, a choice
    ((kind) @label (#eq? @label "text"))             a group with predicates
    ; to the end of the line                         a comment

Names are checked against the grammar as they are read, a field after the pattern it leads, so the
first fault in that order is the one reported.  The reader spends fuel on every nested call; the
length of the text is enough.
-/

namespace CodeAtlas

namespace QueryReader

/-- What has been read so far: the labels of the whole query, and the predicates of the current
pattern. -/
structure Progress where
  labels : List String
  conditions : List Condition
deriving Repr

/-- What a reader leaves: what it read, the progress after it, and the rest of the text. -/
abbrev Outcome (α : Type) := α × Progress × List Char

def fail {α : Type} (fault : QueryFault) (rest : List Char) : Except QueryStop α :=
  .error ⟨fault, rest⟩

/-! ## Words -/

def isSpace (c : Char) : Bool :=
  c == ' ' || (0x09 ≤ c.toNat && c.toNat ≤ 0x0D)

/-- The text after blanks and comments; `comment` says whether it starts inside a comment. -/
def skipFrom : Bool → List Char → List Char
  | _, [] => []
  | true, c :: rest => skipFrom (c != '\n') rest
  | false, c :: rest =>
    if c == ';' then skipFrom true rest
    else if isSpace c then skipFrom false rest
    else c :: rest

def skip (cs : List Char) : List Char :=
  skipFrom false cs

def startsName (c : Char) : Bool :=
  c.isAlphanum || c == '_' || c == '-'

def continuesName (c : Char) : Bool :=
  startsName c || c == '.'

def name? (cs : List Char) : Option (String × List Char) :=
  match cs with
  | c :: rest =>
    if startsName c then
      some (String.ofList (c :: rest.takeWhile continuesName), rest.dropWhile continuesName)
    else none
  | [] => none

/-- The characters of a quoted text after its opening quote, which ends in the same line. -/
def quotedBody : List Char → Option (List Char × List Char)
  | [] => none
  | '"' :: rest => some ([], rest)
  | '\n' :: _ => none
  | '\\' :: e :: rest =>
    let c := match e with
      | 'n' => '\n'
      | 'r' => '\r'
      | 't' => '\t'
      | '0' => Char.ofNat 0
      | e => e
    (quotedBody rest).map (fun r => (c :: r.1, r.2))
  | c :: rest => (quotedBody rest).map (fun r => (c :: r.1, r.2))

/-- The list with a label at its end, unless it already holds it. -/
def addLabel (labels : List String) (label : String) : List String :=
  if labels.contains label then labels else labels ++ [label]

/-! ## Predicates -/

/-- The arguments of a predicate up to its closing parenthesis. -/
def predicateArguments (labels : List String) :
    Nat → List Char → Except QueryStop (List Argument × List Char)
  | 0, cs => fail .malformed cs
  | fuel + 1, cs =>
    let next (argument : Argument) (rest : List Char) : Except QueryStop (List Argument × List Char) := do
      let (arguments, after) ← predicateArguments labels fuel (skip rest)
      return (argument :: arguments, after)
    match cs with
    | ')' :: rest => return ([], skip rest)
    | '@' :: rest =>
      match name? rest with
      | some (label, after) =>
        if labels.contains label then next (.capture label) after else fail .unknownCapture rest
      | none => fail .malformed rest
    | '"' :: rest =>
      match quotedBody rest with
      | some (body, after) => next (.text (String.ofList body)) after
      | none => fail .malformed cs
    | _ =>
      match name? cs with
      | some (word, after) => next (.text word) after
      | none => fail .malformed cs

/-- A predicate after its number sign. -/
def condition (labels : List String) (fuel : Nat) (cs : List Char) :
    Except QueryStop (Condition × List Char) :=
  match name? cs with
  | some (word, mark :: rest) =>
    if mark == '?' || mark == '!' then do
      let (arguments, after) ← predicateArguments labels fuel (skip rest)
      return (⟨word.push mark, arguments⟩, after)
    else fail .malformed (mark :: rest)
  | some (_, []) => fail .malformed []
  | none => fail .malformed cs

/-! ## Patterns -/

/-- The patterns with a change to the first of them, which is the one that marks belong to. -/
def onFirst (f : Pattern → Pattern) : List Pattern → List Pattern
  | [] => []
  | p :: ps => f p :: ps

/-- Quantity marks and captures after a pattern. -/
def suffixes : Nat → List Pattern → Progress → List Char → Except QueryStop (Outcome (List Pattern))
  | 0, _, _, cs => fail .malformed cs
  | fuel + 1, ps, progress, cs =>
    let quantified (q : Quantity) (rest : List Char) : Except QueryStop (Outcome (List Pattern)) :=
      if ps.length ≤ 1 then suffixes fuel (onFirst (.withQuantity q) ps) progress (skip rest)
      else fail .malformed cs
    match cs with
    | '+' :: rest => quantified .many rest
    | '*' :: rest => quantified .any rest
    | '?' :: rest => quantified .optional rest
    | '@' :: rest =>
      match name? rest with
      | some (label, after) =>
        suffixes fuel (onFirst (.withCapture label) ps)
          { progress with labels := addLabel progress.labels label } (skip after)
      | none => fail .malformed rest
    | _ => return (ps, progress, cs)

mutual

/-- One pattern with its suffixes.  A group may hold several sibling patterns, and a predicate
none. -/
def pattern (v : Vocabulary) : Nat → Progress → List Char → Except QueryStop (Outcome (List Pattern))
  | 0, _, cs => fail .malformed cs
  | fuel + 1, progress, cs =>
    match cs with
    | '[' :: rest => do
      let (branches, progress, rest) ← branches v fuel progress (skip rest)
      suffixes (rest.length + 1) [.choice .one branches] progress (skip rest)
    | '(' :: rest =>
      match skip rest with
      | '#' :: body => do
        let (c, rest) ← condition progress.labels (body.length + 1) body
        return ([], { progress with conditions := progress.conditions ++ [c] }, rest)
      | inner@(c :: _) =>
        if c == '(' || c == '"' || c == '[' then do
          let (ps, progress, rest) ← group v fuel progress inner
          suffixes (rest.length + 1) ps progress (skip rest)
        else
          match name? inner with
          | none => fail .malformed inner
          | some (word, after) =>
            if word == "_" || word == "ERROR" || v.knowsKind word then do
              let ((absent, items), progress, rest) ← contents v fuel progress (skip after)
              let test := if word == "_" then NodeTest.anyNamed else .kind word
              suffixes (rest.length + 1) [.ofTest test absent items] progress (skip rest)
            else fail .unknownKind inner
      | [] => fail .malformed []
    | '"' :: rest =>
      match quotedBody rest with
      | none => fail .malformed cs
      | some (body, after) =>
        let token := String.ofList body
        if v.knowsToken token then
          suffixes (after.length + 1) [.ofTest (.token token) [] []] progress (skip after)
        else fail .unknownKind rest
    | _ =>
      match name? cs with
      | none => fail .malformed cs
      | some ("_", after) => suffixes (after.length + 1) [.ofTest .anything [] []] progress (skip after)
      | some (word, after) =>
        match skip after with
        | ':' :: rest => do
          let (ps, progress, rest) ← pattern v fuel progress (skip rest)
          if v.knowsField word then return (onFirst (.withField word) ps, progress, rest)
          else fail .unknownField cs
        | _ => fail .malformed cs

/-- The branches of a choice up to its closing bracket. -/
def branches (v : Vocabulary) : Nat → Progress → List Char → Except QueryStop (Outcome (List Pattern))
  | 0, _, cs => fail .malformed cs
  | fuel + 1, progress, cs => do
    let (ps, progress, rest) ← pattern v fuel progress cs
    if ps.length > 1 then fail .malformed cs
    else
      match rest with
      | ']' :: after => return (ps, progress, after)
      | ')' :: _ => fail .malformed rest
      | _ => do
        let (more, progress, rest) ← branches v fuel progress rest
        return (ps ++ more, progress, rest)

/-- The sibling patterns of a group up to its closing parenthesis. -/
def group (v : Vocabulary) : Nat → Progress → List Char → Except QueryStop (Outcome (List Pattern))
  | 0, _, cs => fail .malformed cs
  | fuel + 1, progress, cs =>
    match cs with
    | ')' :: after => return ([], progress, after)
    | ']' :: _ => fail .malformed cs
    | _ => do
      let (ps, progress, rest) ← pattern v fuel progress cs
      let (more, progress, rest) ← group v fuel progress rest
      return (ps ++ more, progress, rest)

/-- The absent fields and child patterns of a node up to its closing parenthesis. -/
def contents (v : Vocabulary) : Nat → Progress → List Char →
    Except QueryStop (Outcome (List String × List Pattern))
  | 0, _, cs => fail .malformed cs
  | fuel + 1, progress, cs =>
    match cs with
    | ')' :: after => return (([], []), progress, after)
    | ']' :: _ => fail .malformed cs
    | '!' :: rest =>
      match name? (skip rest) with
      | none => fail .malformed (skip rest)
      | some (word, after) =>
        if v.knowsField word then do
          let ((absent, items), progress, rest) ← contents v fuel progress (skip after)
          return ((word :: absent, items), progress, rest)
        else fail .unknownField (skip rest)
    | _ => do
      let (ps, progress, rest) ← pattern v fuel progress cs
      let ((absent, items), progress, rest) ← contents v fuel progress rest
      return ((absent, ps ++ items), progress, rest)

end

/-- A top-level pattern as read, with the text that starts at it. -/
structure Draft where
  siblings : List Pattern
  conditions : List Condition
  source : List Char

/-- The top-level patterns of a text without leading blanks. -/
def drafts (v : Vocabulary) :
    Nat → List String → List Char → Except QueryStop (List Draft × List String)
  | _, labels, [] => return ([], labels)
  | 0, _, cs => fail .malformed cs
  | fuel + 1, labels, cs => do
    let (ps, progress, rest) ← pattern v fuel ⟨labels, []⟩ cs
    let (more, labels) ← drafts v fuel progress.labels rest
    return (⟨ps, progress.conditions, cs⟩ :: more, labels)

/-! ## Deciding predicates -/

def wrongCount (operator expected : String) (got : Nat) : String :=
  "Wrong number of arguments to #" ++ operator ++ " predicate. Expected " ++ expected ++ ", got " ++
    toString got ++ "."

/-- A complaint about a text where a label is due. -/
def wantsCapture (operator value : String) : String :=
  "First argument to #" ++ operator ++ " predicate must be a capture name. Got literal \"" ++ value ++
    "\"."

/-- The texts among arguments, or the first label. -/
def texts : List Argument → Except String (List String)
  | [] => .ok []
  | .text t :: rest => do return t :: (← texts rest)
  | .capture l :: _ => .error l

/-- The predicate that a condition writes: none for an operator without a meaning here. -/
def predicate (c : Condition) : Except String (Option Predicate) :=
  match c.operator with
  | "eq?" | "not-eq?" | "any-eq?" | "any-not-eq?" =>
    match c.arguments with
    | [.capture label, other] =>
      .ok (some (.equal (c.operator == "eq?" || c.operator == "any-eq?") label other))
    | [.text t, _] => .error (wantsCapture "eq?" t)
    | arguments => .error (wrongCount "eq?" "2" arguments.length)
  | "match?" | "not-match?" | "any-match?" | "any-not-match?" =>
    match c.arguments with
    | [.capture label, .text t] =>
      match Regex.parse? t with
      | some r => .ok (some (.search (c.operator == "match?" || c.operator == "any-match?") label r))
      | none => .error ("Invalid regex '" ++ t ++ "'")
    | [.text t, _] => .error (wantsCapture "match?" t)
    | [.capture _, .capture l] =>
      .error ("Second argument to #match? predicate must be a literal. Got capture @" ++ l ++ ".")
    | arguments => .error (wrongCount "match?" "2" arguments.length)
  | "any-of?" | "not-any-of?" =>
    match c.arguments with
    | .capture label :: rest =>
      match texts rest with
      | .ok ts => .ok (some (.oneOf (c.operator == "any-of?") label ts))
      | .error l =>
        .error ("Arguments to #any-of? predicate must be literals. Got capture @" ++ l ++ ".")
    | .text t :: _ => .error (wantsCapture "any-of?" t)
    | [] => .error (wrongCount "any-of?" "at least 1" 0)
  | _ => .ok none

def predicates : List Condition → Except String (List Predicate)
  | [] => .ok []
  | c :: cs => do
    let p ← predicate c
    let ps ← predicates cs
    return p.toList ++ ps

def clause (d : Draft) : Except QueryStop Clause :=
  match predicates d.conditions with
  | .ok ps => .ok ⟨d.siblings, ps⟩
  | .error reason => .error ⟨.badPredicate reason, d.source⟩

end QueryReader

namespace TreeQuery

/-- The query that a text writes for a grammar. -/
def read (v : Vocabulary) (source : String) : Except QueryStop TreeQuery := do
  let cs := QueryReader.skip source.toList
  let (drafts, labels) ← QueryReader.drafts v (2 * cs.length + 2) [] cs
  return ⟨← drafts.mapM QueryReader.clause, labels⟩

/-- Reads a query text for a grammar handle; a failure is the text of its message. -/
def compile (handle : Handle) (source : String) : Except String TreeQuery :=
  (read handle.vocabulary source).mapError (QueryStop.message source)

end TreeQuery

end CodeAtlas
