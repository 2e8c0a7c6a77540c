import CodeAtlas.Text.Words
import CodeAtlas.Url.Percent
import CodeAtlas.Url.Punycode

/-!
Hosts: names, IPv4 addresses and IPv6 addresses.  Under the schemes that a browser knows a name is
decoded, brought to lower case and written in ASCII, and a name whose last label is a number has to be
an IPv4 address; under other schemes a name is kept as it is.
-/

namespace CodeAtlas.Url

inductive Fault where
  | emptyHost
  | internationalName
  | invalidPort
  | invalidIpv4
  | invalidIpv6
  | invalidHostCharacter
  | noScheme
deriving DecidableEq, Repr, Inhabited

def Fault.reason : Fault → String
  | .emptyHost => "empty host"
  | .internationalName => "invalid international domain name"
  | .invalidPort => "invalid port number"
  | .invalidIpv4 => "invalid IPv4 address"
  | .invalidIpv6 => "invalid IPv6 address"
  | .invalidHostCharacter => "invalid domain character"
  | .noScheme => "relative URL without a base"

inductive Host where
  | name (text : String)
  | ipv4 (address : Nat)
  | ipv6 (pieces : List Nat)
deriving DecidableEq, Repr, Inhabited

/-! ## IPv4 -/

/-- A number of an IPv4 address: `none` if it is none, and `none` inside if it is too large. -/
def ipv4Number (cs : List Char) : Option (Option Nat) :=
  let read (base : Nat) (digits : List Char) : Option (Option Nat) :=
    if digits.isEmpty then some (some 0)
    else do
      let values ← digits.mapM Json.hexValue?
      if values.all (· < base) then
        let n := values.foldl (fun n d => n * base + d) 0
        return if n < UInt32.size then some n else none
      else none
  match cs with
  | [] => none
  | '0' :: 'x' :: digits => read 16 digits
  | '0' :: 'X' :: digits => read 16 digits
  | '0' :: d :: digits => read 8 (d :: digits)
  | digits => read 10 digits

/-- The labels of a name, without the empty one after a final dot. -/
def labels (cs : List Char) : List (List Char) :=
  let all := Text.pieces (· == '.') cs
  if 1 < all.length && all.getLast? == some [] then all.dropLast else all

/-- Whether the last label of a name is a number. -/
def endsInNumber (cs : List Char) : Bool :=
  match (labels cs).getLast? with
  | some last => (!last.isEmpty && last.all Char.isDigit) || (ipv4Number last).isSome
  | none => false

/-- The address of a name whose last label is a number. -/
def ipv4? (cs : List Char) : Option Nat := do
  let parts := labels cs
  if 4 < parts.length then failure
  let numbers ← parts.mapM fun p => (ipv4Number p).bind id
  let last ← numbers.getLast?
  let lead := numbers.dropLast
  if Nat.pow 256 (4 - lead.length) ≤ last || lead.any (255 < ·) then failure
  return lead.zipIdx.foldl (fun n p => n + p.1 * Nat.pow 256 (3 - p.2)) last

def ipv4Text (n : Nat) : String :=
  Text.join "." ([3, 2, 1, 0].map fun i => toString (n / Nat.pow 256 i % 256))

/-! ## IPv6 -/

/-- A piece of an IPv6 address: one to four hexadecimal digits. -/
def ipv6Piece? (cs : List Char) : Option Nat := do
  if cs.isEmpty || 4 < cs.length then failure
  let values ← cs.mapM Json.hexValue?
  return values.foldl (fun n d => n * 16 + d) 0

/-- A decimal number of an IPv4 tail: below 256 and without a needless zero. -/
def tailNumber? (cs : List Char) : Option Nat :=
  if cs.isEmpty || 3 < cs.length || !cs.all Char.isDigit || (1 < cs.length && cs.head? == some '0')
  then none
  else
    let n := cs.foldl (fun n d => n * 10 + (d.toNat - 48)) 0
    if n < 256 then some n else none

/-- The pieces of a part without a double colon; `tail` allows an IPv4 address at its end. -/
def ipv6Pieces? (tail : Bool) : List (List Char) → Option (List Nat)
  | [] => some []
  | [last] =>
    if tail && last.contains '.' then do
      match (← (Text.pieces (· == '.') last).mapM tailNumber?) with
      | [a, b, c, d] => some [a * 256 + b, c * 256 + d]
      | _ => none
    else (ipv6Piece? last).map ([·])
  | p :: more => do return (← ipv6Piece? p) :: (← ipv6Pieces? tail more)

/-- The text before and after the first double colon. -/
def aroundDoubleColon : List Char → Option (List Char × List Char)
  | ':' :: ':' :: rest => some ([], rest)
  | c :: rest => (aroundDoubleColon rest).map fun p => (c :: p.1, p.2)
  | [] => none

/-- The eight pieces of an address; a double colon stands for at least one piece of zero. -/
def ipv6? (cs : List Char) : Option (List Nat) := do
  let cut (part : List Char) : List (List Char) :=
    if part.isEmpty then [] else Text.pieces (· == ':') part
  match aroundDoubleColon cs with
  | none =>
    let pieces ← ipv6Pieces? true (cut cs)
    if pieces.length = 8 then some pieces else none
  | some (before, after) =>
    let head ← ipv6Pieces? false (cut before)
    let tail ← ipv6Pieces? true (cut after)
    if head.length + tail.length < 8 then
      some (head ++ List.replicate (8 - head.length - tail.length) 0 ++ tail)
    else none

/-- The length of the run of zeros at the start. -/
def zeroRun (pieces : List Nat) : Nat := (pieces.takeWhile (· == 0)).length

/-- The first longest run of at least two zeros: where it starts and how long it is. -/
def longestZeros (pieces : List Nat) : Option (Nat × Nat) :=
  let runs := (List.range pieces.length).map fun i => (i, zeroRun (pieces.drop i))
  let best := runs.foldl (fun b r => if b.2 < r.2 then r else b) (0, 0)
  if 1 < best.2 then some best else none

/-- An address with its first longest run of zeros left out. -/
def ipv6Text (pieces : List Nat) : String :=
  let written (ps : List Nat) : String :=
    Text.join ":" (ps.map fun p => String.ofList (Nat.toDigits 16 p))
  match longestZeros pieces with
  | none => written pieces
  | some (start, length) =>
    written (pieces.take start) ++ "::" ++ written (pieces.drop (start + length))

/-! ## Names -/

/-- The lower case of a letter, for the alphabets with capitals in common use; full-width forms become
ASCII and the other full stops become points. -/
def foldChar (c : Char) : Char :=
  let n := c.toNat
  let shift (k : Nat) : Char := Char.ofNat (n + k)
  if n < 128 then c.toLower
  else if (0xC0 ≤ n && n ≤ 0xDE && n != 0xD7) || (0x391 ≤ n && n ≤ 0x3A9) || (0x410 ≤ n && n ≤ 0x42F)
  then shift 32
  else if 0x400 ≤ n && n ≤ 0x40F then shift 80
  else if ((0x100 ≤ n && n ≤ 0x12F) || (0x132 ≤ n && n ≤ 0x137) || (0x14A ≤ n && n ≤ 0x177)) && n % 2 == 0
  then shift 1
  else if ((0x139 ≤ n && n ≤ 0x148) || (0x179 ≤ n && n ≤ 0x17E)) && n % 2 == 1 then shift 1
  else if n == 0x3002 || n == 0xFF61 then '.'
  else if 0xFF01 ≤ n && n ≤ 0xFF5E then (Char.ofNat (n - 0xFEE0)).toLower
  else c

/-- Characters that leave no trace in a name. -/
def isTraceless (c : Char) : Bool :=
  c.toNat == 0xAD || c.toNat == 0x200B || c.toNat == 0x2060 || c.toNat == 0xFEFF

/-- Characters that a name under a known scheme cannot hold. -/
def isForbidden (c : Char) : Bool :=
  c.toNat ≤ 0x20 || c.toNat == 0x7F || c.toNat == 0xFFFD || "%#/:<>?@[\\]^|".toList.contains c

def asciiLabel (cs : List Char) : List Char :=
  if cs.all (fun c => c.toNat < 128) then cs else "xn--".toList ++ Punycode.encode cs

/-- A name in ASCII and lower case. -/
def asciiName (cs : List Char) : Except Fault (List Char) :=
  let folded := (cs.filter (fun c => !isTraceless c)).map foldChar
  if folded.any isForbidden then .error .internationalName
  else .ok (['.'].intercalate ((Text.pieces (· == '.') folded).map asciiLabel))

namespace Host

def bracketed (cs : List Char) : Except Fault Host :=
  if cs.getLast? == some ']' then
    match ipv6? cs.tail.dropLast with
    | some pieces => .ok (.ipv6 pieces)
    | none => .error .invalidIpv6
  else .error .invalidIpv6

/-- A host under a scheme that a browser knows. -/
def known (cs : List Char) : Except Fault Host := do
  if cs.head? == some '[' then bracketed cs
  else
    let name ← asciiName (Text.Utf8.decodeLossy (decodeBytes cs)).toList
    if name.isEmpty then throw .emptyHost
    if endsInNumber name then
      match ipv4? name with
      | some n => return .ipv4 n
      | none => throw .invalidIpv4
    else return .name (String.ofList name)

/-- A host under another scheme. -/
def other (cs : List Char) : Except Fault Host :=
  if cs.head? == some '[' then bracketed cs
  else if cs.any (fun c => "\x00\t\n\r #/:<>?@[\\]^|".toList.contains c) then
    .error .invalidHostCharacter
  else .ok (.name (encode controlSet cs))

def text : Host → String
  | .name s => s
  | .ipv4 n => ipv4Text n
  | .ipv6 pieces => "[" ++ ipv6Text pieces ++ "]"

end Host

end CodeAtlas.Url
