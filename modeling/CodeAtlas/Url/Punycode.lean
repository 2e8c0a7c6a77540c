/-!
Punycode: a label with characters outside ASCII as a label of letters, digits and hyphens.  The
characters outside ASCII are written in increasing order, each as the distance from the one before in
digits of base 36 whose thresholds adapt to the distances seen.
-/

namespace CodeAtlas.Url.Punycode

/-- A digit: `a` to `z`, then `0` to `9`. -/
def digit (n : Nat) : Char :=
  if n < 26 then Char.ofNat (97 + n) else Char.ofNat (22 + n)

/-- The threshold of the digit at distance `k`. -/
def threshold (k bias : Nat) : Nat :=
  if k ≤ bias then 1 else if bias + 26 ≤ k then 26 else k - bias

/-- Divides by 35 down to 455, counting 36 for each division. -/
def shrink (delta k : Nat) : Nat × Nat :=
  if 455 < delta then shrink (delta / 35) (k + 36) else (delta, k)
termination_by delta
decreasing_by exact Nat.div_lt_self (by omega) (by omega)

/-- The bias after a distance, with the number of characters written so far. -/
def adapt (delta count : Nat) (first : Bool) : Nat :=
  let halved := if first then delta / 700 else delta / 2
  let (delta, k) := shrink (halved + halved / count) 0
  k + 36 * delta / (delta + 38)

/-- A distance in digits; at most one digit for each unit of `fuel`. -/
def digits (bias : Nat) : Nat → Nat → Nat → List Char
  | 0, _, _ => []
  | fuel + 1, k, q =>
    let t := threshold k bias
    if q < t then [digit q]
    else digit (t + (q - t) % (36 - t)) :: digits bias fuel (k + 36) ((q - t) / (36 - t))

/-- The output, the distance, the bias, and the number of characters written. -/
structure State where
  output : List Char
  delta : Nat
  bias : Nat
  written : Nat

/-- One character of the label in the round for code point `n`. -/
def step (basic n : Nat) (s : State) (c : Char) : State :=
  if c.toNat < n then { s with delta := s.delta + 1 }
  else if c.toNat = n then
    ⟨s.output ++ digits s.bias 16 36 s.delta, 0, adapt s.delta (s.written + 1) (s.written == basic),
      s.written + 1⟩
  else s

/-- The rounds for the code points above `n`, in increasing order. -/
def rounds (label : List Char) (basic : Nat) : List Nat → Nat → State → State
  | [], _, s => s
  | m :: more, n, s =>
    let s := { s with delta := s.delta + (m - n) * (s.written + 1) }
    let s := label.foldl (step basic m) s
    rounds label basic more (m + 1) { s with delta := s.delta + 1 }

def encode (label : List Char) : List Char :=
  let basic := label.filter (fun c => c.toNat < 128)
  let points := ((label.map Char.toNat).filter (128 ≤ ·)).eraseDups.mergeSort
  let start : State :=
    ⟨if basic.isEmpty then [] else basic ++ ['-'], 0, 72, basic.length⟩
  (rounds label basic.length points 128 start).output

end CodeAtlas.Url.Punycode
