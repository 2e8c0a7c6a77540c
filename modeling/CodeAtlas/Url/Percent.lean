import CodeAtlas.Json.Reader
import CodeAtlas.Text.Utf8

/-!
Percent encoding.  A byte outside ASCII, a control character and each character of a given set are
written as a percent sign and two hexadecimal digits; everything else stands for itself, so a percent
sign that is there already is left alone.
-/

namespace CodeAtlas.Url

/-- A set of ASCII characters to encode, besides the controls. -/
abbrev EncodeSet := List Char

/-- Nothing but the controls. -/
def controlSet : EncodeSet := []

def fragmentSet : EncodeSet := [' ', '"', '<', '>', '\x60']

def querySet : EncodeSet := [' ', '"', '#', '<', '>']

/-- For the schemes that a browser knows the quote is encoded too. -/
def specialQuerySet : EncodeSet := '\'' :: querySet

def pathSet : EncodeSet := ['#', '?', '\x7b', '\x7d'] ++ fragmentSet

def userSet : EncodeSet := ['/', ':', ';', '=', '@', '[', '\\', ']', '^', '|'] ++ pathSet

def hexUpper (n : Nat) : Char :=
  if n < 10 then Char.ofNat (48 + n) else Char.ofNat (55 + n)

def percentByte (b : UInt8) : List Char :=
  ['%', hexUpper (b.toNat / 16), hexUpper (b.toNat % 16)]

/-- A character in percent encoding, if it needs it. -/
def encodeChar (set : EncodeSet) (c : Char) : List Char :=
  if c.toNat < 0x20 || 0x7F ≤ c.toNat || set.contains c then
    (String.utf8EncodeChar c).flatMap percentByte
  else [c]

def encode (set : EncodeSet) (cs : List Char) : String :=
  String.ofList (cs.flatMap (encodeChar set))

/-- The bytes of a text with its percent encoding undone; a percent sign without two digits after it
stands for itself. -/
def decodeBytes : List Char → List UInt8
  | '%' :: a :: b :: rest =>
    match Json.hexValue? a, Json.hexValue? b with
    | some high, some low => (high * 16 + low).toUInt8 :: decodeBytes rest
    | _, _ => 37 :: decodeBytes (a :: b :: rest)
  | c :: rest => String.utf8EncodeChar c ++ decodeBytes rest
  | [] => []

end CodeAtlas.Url
