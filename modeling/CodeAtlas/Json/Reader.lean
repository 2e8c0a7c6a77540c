import CodeAtlas.Json.Value

/-!
Reading JSON.  A text is cut into tokens and the tokens are read by recursive descent.  Nesting is
limited: `read limit` refuses a document that opens `limit` or more arrays and objects inside one
another.  Both passes spend one unit of fuel a token, and the length of what they read is enough.
-/

namespace CodeAtlas.Json

/-! ## Tokens -/

/-- The tokens of a JSON text. -/
inductive Token where
  | openArray
  | closeArray
  | openObject
  | closeObject
  | comma
  | colon
  | leaf (value : Json)
deriving Repr, Inhabited

def hexValue? (c : Char) : Option Nat :=
  if '0' ≤ c && c ≤ '9' then some (c.toNat - 48)
  else if 'a' ≤ c && c ≤ 'f' then some (c.toNat - 87)
  else if 'A' ≤ c && c ≤ 'F' then some (c.toNat - 55)
  else none

def hex4? (a b c d : Char) : Option Nat := do
  return ((← hexValue? a) * 16 + (← hexValue? b)) * 256 + (← hexValue? c) * 16 + (← hexValue? d)

/-- The character of a one-letter escape. -/
def shortEscape? : Char → Option Char
  | '"' => some '"'
  | '\\' => some '\\'
  | '/' => some '/'
  | 'b' => some (Char.ofNat 8)
  | 'f' => some (Char.ofNat 12)
  | 'n' => some '\n'
  | 'r' => some '\r'
  | 't' => some '\t'
  | _ => none

/-- The first half of a surrogate pair. -/
def isHighSurrogate (n : Nat) : Bool := 0xD800 ≤ n && n ≤ 0xDBFF

/-- The second half of a surrogate pair. -/
def isLowSurrogate (n : Nat) : Bool := 0xDC00 ≤ n && n ≤ 0xDFFF

/-- The characters between the quotes of a string; `half` is a surrogate that waits for its other
half. -/
def unescape : Option Nat → List Char → Option (List Char)
  | none, [] => some []
  | some _, [] => none
  | half, '\\' :: 'u' :: a :: b :: c :: d :: rest =>
    match hex4? a b c d, half with
    | none, _ => none
    | some low, some high =>
      if isLowSurrogate low then
        (unescape none rest).map (Char.ofNat (0x10000 + (high - 0xD800) * 0x400 + (low - 0xDC00)) :: ·)
      else none
    | some n, none =>
      if isHighSurrogate n then unescape (some n) rest
      else if isLowSurrogate n then none
      else (unescape none rest).map (Char.ofNat n :: ·)
  | some _, _ :: _ => none
  | none, '\\' :: e :: rest =>
    match shortEscape? e with
    | some c => (unescape none rest).map (c :: ·)
    | none => none
  | none, c :: rest =>
    if c.toNat < 0x20 || c == '\\' then none else (unescape none rest).map (c :: ·)

/-- The raw characters up to the closing quote, and what follows it. -/
def untilQuote : List Char → Option (List Char × List Char)
  | [] => none
  | '"' :: rest => some ([], rest)
  | '\\' :: c :: rest => (untilQuote rest).map (fun r => ('\\' :: c :: r.1, r.2))
  | c :: rest => (untilQuote rest).map (fun r => (c :: r.1, r.2))

def isNumeralChar (c : Char) : Bool :=
  c.isDigit || c == '-' || c == '+' || c == '.' || c == 'e' || c == 'E'

def digitsValue (ds : List Char) : Nat :=
  ds.foldl (fun n d => n * 10 + (d.toNat - 48)) 0

/-- An exponent part, or nothing. -/
def validExponent : List Char → Bool
  | [] => true
  | e :: rest =>
    (e == 'e' || e == 'E') &&
      (match rest with
       | s :: ds => if s == '+' || s == '-' then !ds.isEmpty && ds.all Char.isDigit
                    else (s :: ds).all Char.isDigit
       | [] => false)

/-- A fraction and exponent part, or nothing. -/
def validTail : List Char → Bool
  | '.' :: rest => !(rest.takeWhile Char.isDigit).isEmpty && validExponent (rest.dropWhile Char.isDigit)
  | rest => validExponent rest

/-- The value of a numeral. -/
def numeral? (cs : List Char) : Option Json :=
  let minus := cs.head? == some '-'
  let body := if minus then cs.drop 1 else cs
  let whole := body.takeWhile Char.isDigit
  let tail := body.dropWhile Char.isDigit
  if whole.isEmpty || (whole.head? == some '0' && whole.length > 1) || !validTail tail then none
  else
    let n := digitsValue whole
    if !tail.isEmpty then some (.numeral (String.ofList cs))
    else if minus then
      if 0 < n && n ≤ UInt64.size / 2 then some (.negative n) else some (.numeral (String.ofList cs))
    else if n < UInt64.size then some (.natural n)
    else some (.numeral (String.ofList cs))

def isSpace (c : Char) : Bool :=
  c == ' ' || c == '\t' || c == '\n' || c == '\r'

/-- The tokens of a text. -/
def tokensWithin : Nat → List Char → Option (List Token)
  | _, [] => some []
  | 0, _ :: _ => none
  | fuel + 1, c :: rest =>
    if isSpace c then tokensWithin fuel rest
    else
      match c with
      | '[' => (tokensWithin fuel rest).map (.openArray :: ·)
      | ']' => (tokensWithin fuel rest).map (.closeArray :: ·)
      | '\x7b' => (tokensWithin fuel rest).map (.openObject :: ·)
      | '\x7d' => (tokensWithin fuel rest).map (.closeObject :: ·)
      | ',' => (tokensWithin fuel rest).map (.comma :: ·)
      | ':' => (tokensWithin fuel rest).map (.colon :: ·)
      | '"' => do
        let (raw, after) ← untilQuote rest
        let body ← unescape none raw
        let more ← tokensWithin fuel after
        return .leaf (.text (String.ofList body)) :: more
      | _ =>
        if isNumeralChar c then do
          let value ← numeral? ((c :: rest).takeWhile isNumeralChar)
          let more ← tokensWithin fuel (rest.dropWhile isNumeralChar)
          return .leaf value :: more
        else
          let word := String.ofList ((c :: rest).takeWhile Char.isAlpha)
          let after := rest.dropWhile Char.isAlpha
          if word == "null" then (tokensWithin fuel after).map (.leaf .null :: ·)
          else if word == "true" then (tokensWithin fuel after).map (.leaf (.bool true) :: ·)
          else if word == "false" then (tokensWithin fuel after).map (.leaf (.bool false) :: ·)
          else none

def tokens? (cs : List Char) : Option (List Token) :=
  tokensWithin cs.length cs

/-! ## Values -/

mutual

/-- The value at the start of the tokens, with room for `depth` levels of nesting. -/
def valueWithin : Nat → Nat → List Token → Option (Json × List Token)
  | 0, _, _ => none
  | _, _, [] => none
  | fuel + 1, depth, t :: ts =>
    match t with
    | .leaf v => some (v, ts)
    | .openArray =>
      if depth ≤ 1 then none
      else
        match ts with
        | .closeArray :: rest => some (.array [], rest)
        | _ => (itemsWithin fuel (depth - 1) ts).map (fun r => (.array r.1, r.2))
    | .openObject =>
      if depth ≤ 1 then none
      else
        match ts with
        | .closeObject :: rest => some (.object [], rest)
        | _ => (fieldsWithin fuel (depth - 1) ts).map (fun r => (.object r.1, r.2))
    | _ => none

/-- One item or more, up to the end of the array. -/
def itemsWithin : Nat → Nat → List Token → Option (List Json × List Token)
  | 0, _, _ => none
  | fuel + 1, depth, ts =>
    match valueWithin fuel depth ts with
    | some (v, .comma :: rest) => (itemsWithin fuel depth rest).map (fun r => (v :: r.1, r.2))
    | some (v, .closeArray :: rest) => some ([v], rest)
    | _ => none

/-- One field or more, up to the end of the object. -/
def fieldsWithin : Nat → Nat → List Token → Option (List (String × Json) × List Token)
  | 0, _, _ => none
  | fuel + 1, depth, ts =>
    match ts with
    | .leaf (.text key) :: .colon :: after =>
      match valueWithin fuel depth after with
      | some (v, .comma :: rest) =>
        (fieldsWithin fuel depth rest).map (fun r => ((key, v) :: r.1, r.2))
      | some (v, .closeObject :: rest) => some ([(key, v)], rest)
      | _ => none
    | _ => none

end

/-- The one value that a text holds, if it nests fewer than `limit` arrays and objects. -/
def read (limit : Nat) (s : String) : Option Json := do
  let ts ← tokens? s.toList
  match valueWithin (2 * ts.length + 1) limit ts with
  | some (v, []) => some v
  | _ => none

/-- How deep a document may nest: it must stay below this many levels. -/
def nestingLimit : Nat := 128

def parse? (s : String) : Option Json :=
  read nestingLimit s

end CodeAtlas.Json
