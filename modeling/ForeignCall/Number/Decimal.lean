import ForeignCall.Number

/-!
Decimal text of numbers: the fewest digits that read back as the same number, written without an
exponent.

A positive number lies in an interval of reals that round to it, ends included when its significand
is even. On the decimal grid with `n` digits only the two neighbours of the number can be the
nearest points, so the first grid with a neighbour in the interval gives the fewest digits. Of two
neighbours the nearer is taken, and the upper one in a tie.
-/

set_option autoImplicit false

namespace ForeignCall

namespace Number

open FloatFormat

/-- The reals that round to a number, in units of 2^-1076, around `centre`. -/
structure Neighbourhood where
  centre : Nat
  lower : Nat
  upper : Nat
  closed : Bool

def neighbourhood (x : Number) : Neighbourhood :=
  let bits := x.bits.toNat
  let gap := twoPow (binary64.scale bits)
  let below :=
    if binary64.fractionField bits = 0 ∧ binary64.exponentField bits ≠ 0 then gap else 2 * gap
  ⟨4 * x.magnitude, 4 * x.magnitude - below, 4 * x.magnitude + 2 * gap, x.magnitude / gap % 2 == 0⟩

def denominator : Nat := twoPow (binary64.unit + 2)

/-- The least `j ≤ i + fuel` from `i` on with `v · 10^(j+1) ≥ 1`, for `v` below one. -/
def leadingZeros (v : Nat) : Nat → Nat → Nat
  | 0, i => i
  | fuel + 1, i => if denominator ≤ v * Nat.pow 10 (i + 1) then i else leadingZeros v fuel (i + 1)

/-- Where the decimal point of `v` stands: `10^(k-1) ≤ v < 10^k`. -/
def pointPosition (v : Nat) : Int :=
  if denominator ≤ v then ((Nat.toDigits 10 (v / denominator)).length : Int)
  else -(leadingZeros v 400 0 : Int)

/-- The number with `n` digits that reads back, if there is one on that grid: `d · 10^(k-n)`. -/
def onGrid? (s : Neighbourhood) (k : Int) (n : Nat) : Option Nat :=
  let e := k - n
  let up := Nat.pow 10 (-e).toNat
  let step := denominator * Nat.pow 10 e.toNat
  let low := s.centre * up / step
  let below := if s.closed then s.lower * up ≤ low * step else s.lower * up < low * step
  let above :=
    if s.closed then (low + 1) * step ≤ s.upper * up else (low + 1) * step < s.upper * up
  if above then
    if below ∧ 2 * (s.centre * up - low * step) < step then some low else some (low + 1)
  else if below then some low
  else none

def fewestDigits (s : Neighbourhood) (k : Int) : Nat → Nat → Nat × Int
  | 0, n => (s.centre, k - n)
  | fuel + 1, n =>
    match onGrid? s k n with
    | some d => (d, k - n)
    | none => fewestDigits s k fuel (n + 1)

def shortest (x : Number) : Nat × Int :=
  let s := x.neighbourhood
  fewestDigits s (pointPosition s.centre) 17 1

def positional (d : Nat) (e : Int) : List Char :=
  if 0 ≤ e then Nat.toDigits 10 d ++ List.replicate e.toNat '0'
  else
    let places := (-e).toNat
    let digits := Nat.toDigits 10 d
    let padded := List.replicate (places + 1 - digits.length) '0' ++ digits
    let whole := padded.take (padded.length - places)
    let part := (padded.drop (padded.length - places)).reverse.dropWhile (· == '0') |>.reverse
    if part.isEmpty then whole else whole ++ '.' :: part

/-- The text of a number: its shortest decimal, `-0` for negative zero, and words for the rest. -/
def text (x : Number) : String :=
  if x.isNaN then "NaN"
  else
    let sign := if x.isNegative then "-" else ""
    if x.isInfinite then sign ++ "inf"
    else if x.isZero then sign ++ "0"
    else
      let (d, e) := x.shortest
      sign ++ String.ofList (positional d e)

end Number

end ForeignCall
