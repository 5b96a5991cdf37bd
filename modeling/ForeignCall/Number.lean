import ForeignCall.PowerOfTwo

/-!
Numbers of the script: IEEE 754 binary64, computed on their bits.

Every finite number is a whole count of least subnormals, `magnitude · 2^-1074` with a sign, so
conversions are exact arithmetic on natural numbers followed by one rounding function. A format is
a pair of field widths, which serves binary32 slots too.
-/

set_option autoImplicit false

namespace ForeignCall

structure FloatFormat where
  fraction : Nat
  exponent : Nat
  deriving DecidableEq, Repr

namespace FloatFormat

def binary32 : FloatFormat := ⟨23, 8⟩

def binary64 : FloatFormat := ⟨52, 11⟩

variable (f : FloatFormat)

def topExponent : Nat := twoPow f.exponent - 1

def infinity : Nat := f.topExponent * twoPow f.fraction

def signBit : Nat := twoPow (f.fraction + f.exponent)

def quietBit : Nat := twoPow (f.fraction - 1)

def fractionField (bits : Nat) : Nat := bits % twoPow f.fraction

def exponentField (bits : Nat) : Nat := bits / twoPow f.fraction % twoPow f.exponent

def isNegative (bits : Nat) : Bool := bits / f.signBit % 2 == 1

def isNaN (bits : Nat) : Bool :=
  f.exponentField bits == f.topExponent && f.fractionField bits != 0

def isInfinite (bits : Nat) : Bool :=
  f.exponentField bits == f.topExponent && f.fractionField bits == 0

def significand (bits : Nat) : Nat :=
  if f.exponentField bits = 0 then f.fractionField bits
  else f.fractionField bits + twoPow f.fraction

def scale (bits : Nat) : Nat := f.exponentField bits - 1

def magnitude (bits : Nat) : Nat := f.significand bits * twoPow (f.scale bits)

/-- Exponent of the least subnormal: it is `2^-(unit f)`. -/
def unit : Nat := twoPow (f.exponent - 1) - 2 + f.fraction

end FloatFormat

def roundHalfEven (n k : Nat) : Nat :=
  let quotient := n / twoPow k
  let rest := n % twoPow k
  if twoPow k < 2 * rest ∨ (twoPow k = 2 * rest ∧ quotient % 2 = 1) then quotient + 1 else quotient

/-- The bits of the number of format `f` nearest to `n / 2^shift` least subnormals: of the
candidates, the one with an even significand in a tie, and infinity beyond the largest. -/
def FloatFormat.encode (f : FloatFormat) (n shift : Nat) : Nat :=
  let drop := max shift (n.log2 - f.fraction)
  min ((drop - shift) * twoPow f.fraction + roundHalfEven n drop) f.infinity

structure Number where
  bits : UInt64
  deriving DecidableEq, Repr, Inhabited

namespace Number

open FloatFormat

def raw (x : Number) : Nat := x.bits.toNat

def isNaN (x : Number) : Bool := binary64.isNaN x.raw

def isNegative (x : Number) : Bool := binary64.isNegative x.raw

def isInfinite (x : Number) : Bool := binary64.isInfinite x.raw

def magnitude (x : Number) : Nat := binary64.magnitude x.raw

def isZero (x : Number) : Bool := x.raw % binary64.signBit == 0

/-- IEEE equality: the zeros are equal, and a NaN equals nothing. -/
def equals (x y : Number) : Bool :=
  !x.isNaN && !y.isNaN && (x.bits == y.bits || (x.isZero && y.isZero))

def nan : Number := ⟨0x7ff8000000000000⟩

def zero : Number := ⟨0⟩

def ofInt (i : Int) : Number :=
  ⟨UInt64.ofNat ((if i < 0 then binary64.signBit else 0)
    + binary64.encode (i.natAbs * twoPow binary64.unit) 0)⟩

def ofNat (n : Nat) : Number := ofInt n

/-- The whole part of the absolute value. An infinity counts as 2^1024, past every bound. -/
def wholePart (x : Number) : Nat := x.magnitude / twoPow binary64.unit

/-- The number rounded toward zero as 64 raw bits: a negative number is held at -2^63, any other
at 2^64 - 1, and a NaN is zero. -/
def toWord (x : Number) : Nat :=
  if x.isNaN then 0
  else if x.isNegative then (UInt64.size - min x.wholePart (twoPow 63)) % UInt64.size
  else min x.wholePart (UInt64.size - 1)

def truncate (x : Number) (width : Nat) : Nat := x.toWord % twoPow width

def toInt? (x : Number) : Option Int :=
  if x.isNaN || x.isInfinite || x.magnitude % twoPow binary64.unit != 0 then none
  else if x.isNegative then some (-(x.wholePart : Int))
  else some x.wholePart

/-- The number held in binary32 bits. A NaN keeps its sign and payload and becomes quiet. -/
def ofBinary32 (b : Nat) : Number :=
  let sign := if binary32.isNegative b then binary64.signBit else 0
  let rest :=
    if binary32.isNaN b then
      binary64.infinity + binary64.quietBit
        + binary32.fractionField b % binary32.quietBit
          * twoPow (binary64.fraction - binary32.fraction)
    else if binary32.isInfinite b then binary64.infinity
    else binary64.encode (binary32.magnitude b * twoPow (binary64.unit - binary32.unit)) 0
  ⟨UInt64.ofNat (sign + rest)⟩

def toBinary32 (x : Number) : Nat :=
  let sign := if x.isNegative then binary32.signBit else 0
  let rest :=
    if x.isNaN then
      binary32.infinity + binary32.quietBit
        + binary64.fractionField x.raw % binary64.quietBit
          / twoPow (binary64.fraction - binary32.fraction)
    else if x.isInfinite then binary32.infinity
    else binary32.encode x.magnitude (binary64.unit - binary32.unit)
  sign + rest

end Number

end ForeignCall
