/-!
UTF-8, read one byte at a time.  The state between two bytes says how many bytes the current
character still owes and in which range the next one must lie, so overlong forms and surrogates are
refused at the first byte that rules them out.  A run of bytes that cannot be completed counts as
one unreadable unit, which is what the lossy reading replaces by U+FFFD.
-/

namespace CodeAtlas.Text.Utf8

/-- Between two bytes: `owed` bytes are missing, the next one lies in `[low, high]`, and `value`
holds the bits read so far. -/
structure State where
  owed : Nat
  low : UInt8
  high : UInt8
  value : Nat
deriving Repr, DecidableEq

def State.start : State := ⟨0, 0x80, 0xBF, 0⟩

/-- The first byte of a character: the units that are complete after it, and the state. -/
def lead (b : UInt8) : List (Option Char) × State :=
  if b < 0x80 then ([some (Char.ofNat b.toNat)], .start)
  else if 0xC2 ≤ b && b ≤ 0xDF then ([], ⟨1, 0x80, 0xBF, b.toNat - 0xC0⟩)
  else if b == 0xE0 then ([], ⟨2, 0xA0, 0xBF, 0⟩)
  else if b == 0xED then ([], ⟨2, 0x80, 0x9F, 0x0D⟩)
  else if 0xE1 ≤ b && b ≤ 0xEF then ([], ⟨2, 0x80, 0xBF, b.toNat - 0xE0⟩)
  else if b == 0xF0 then ([], ⟨3, 0x90, 0xBF, 0⟩)
  else if 0xF1 ≤ b && b ≤ 0xF3 then ([], ⟨3, 0x80, 0xBF, b.toNat - 0xF0⟩)
  else if b == 0xF4 then ([], ⟨3, 0x80, 0x8F, 4⟩)
  else ([none], .start)

/-- One byte in a given state. -/
def step (s : State) (b : UInt8) : List (Option Char) × State :=
  if s.owed = 0 then lead b
  else if s.low ≤ b && b ≤ s.high then
    let value := s.value * 64 + (b.toNat - 0x80)
    if s.owed = 1 then ([some (Char.ofNat value)], .start)
    else ([], ⟨s.owed - 1, 0x80, 0xBF, value⟩)
  else
    let (units, next) := lead b
    (none :: units, next)

/-- The units of a byte sequence from a given state. -/
def unitsFrom : State → List UInt8 → List (Option Char)
  | s, [] => if s.owed = 0 then [] else [none]
  | s, b :: bs =>
    let (units, next) := step s b
    units ++ unitsFrom next bs

/-- The characters of a byte sequence, with `none` for each stretch that encodes no character. -/
def units (bytes : List UInt8) : List (Option Char) :=
  unitsFrom .start bytes

def decode? (bytes : List UInt8) : Option String :=
  ((units bytes).mapM id).map String.ofList

/-- The text with U+FFFD for each unreadable stretch. -/
def decodeLossy (bytes : List UInt8) : String :=
  String.ofList ((units bytes).map (·.getD (Char.ofNat 0xFFFD)))

def encode (s : String) : List UInt8 :=
  s.toUTF8.data.toList

def byteLength (cs : List Char) : Nat :=
  cs.foldl (fun n c => n + c.utf8Size) 0

end CodeAtlas.Text.Utf8
