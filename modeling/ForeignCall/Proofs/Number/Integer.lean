import ForeignCall.Descriptor
import ForeignCall.Proofs.Heap.Bytes
import ForeignCall.Proofs.Number

/-!
Integers of the script in integer slots.

A number that is an integer is the number of that integer, up to the sign of a zero, and the slot of
an integer type that can represent it holds it exactly.
-/

set_option autoImplicit false

namespace ForeignCall

namespace Number

open FloatFormat

theorem encode_subnormal {q : Nat} (low : q < 2 ^ 52) : binary64.encode q 0 = q := by
  have log : q.log2 - binary64.fraction = 0 := by
    rcases Nat.eq_zero_or_pos q with rfl | positive
    · rfl
    · have := (Nat.log2_lt (by omega)).2 low
      rw [show binary64.fraction = 52 from rfl]
      omega
  have whole : roundHalfEven q 0 = q := by simpa [twoPow] using roundHalfEven_mul q 0
  rw [encode]
  simp only [log, Nat.max_self, whole]
  rw [show binary64.infinity = 2047 * 2 ^ 52 from rfl]
  omega

/-- Encoding gives back the bits of a finite number, the sign left out. -/
theorem encode_magnitude {x : Number} (number : x.isNaN = false) (finite : x.isInfinite = false) :
    binary64.encode x.magnitude 0 = x.raw % 2 ^ 63 := by
  have fraction : twoPow binary64.fraction = 2 ^ 52 := rfl
  have exponent : twoPow binary64.exponent = 2048 := rfl
  have top : binary64.exponentField x.raw ≠ 2047 := by
    intro same
    have top : binary64.topExponent = 2047 := rfl
    simp only [isNaN, isInfinite, FloatFormat.isNaN, FloatFormat.isInfinite, same, top] at *
    simp_all
  have split : x.raw % 2 ^ 63 =
      binary64.exponentField x.raw * 2 ^ 52 + binary64.fractionField x.raw := by
    rw [exponentField, fractionField, fraction, exponent]
    omega
  have below : binary64.exponentField x.raw < 2048 := Nat.mod_lt _ (by decide)
  have part : binary64.fractionField x.raw < 2 ^ 52 := Nat.mod_lt _ (by decide)
  rw [split, magnitude, FloatFormat.magnitude, significand, scale, fraction, twoPow_eq]
  by_cases small : binary64.exponentField x.raw = 0
  · rw [if_pos small, small, Nat.zero_sub, Nat.pow_zero, Nat.mul_one, Nat.zero_mul, Nat.zero_add]
    exact encode_subnormal part
  · rw [if_neg small, encode_normal (by omega) (by omega) (by omega)]
    omega


/-- The number is the integer `i`. Both zeros are the integer zero. -/
structure IsInt (x : Number) (i : Int) : Prop where
  number : x.isNaN = false
  finite : x.isInfinite = false
  whole : x.magnitude = x.wholePart * twoPow binary64.unit
  value : i = if x.isNegative then -(x.wholePart : Int) else x.wholePart

theorem isInt_of_toInt? {x : Number} {i : Int} (same : x.toInt? = some i) : x.IsInt i := by
  rw [toInt?] at same
  split at same
  · cases same
  · rename_i whole
    simp only [Bool.or_eq_true, bne_iff_ne, not_or, Bool.not_eq_true, not_not] at whole
    obtain ⟨⟨number, finite⟩, rest⟩ := whole
    refine ⟨number, finite, ?_, ?_⟩
    · rw [wholePart, Nat.div_mul_cancel (Nat.dvd_of_mod_eq_zero rest)]
    · split at same <;> simp_all

theorem IsInt.natAbs_eq {x : Number} {i : Int} (int : x.IsInt i) : i.natAbs = x.wholePart := by
  rw [int.value]
  split <;> simp

theorem raw_lt (x : Number) : x.raw < 2 ^ 64 := x.bits.toNat_lt

theorem eq_of_raw {x y : Number} (same : x.raw = y.raw) : x = y := by
  cases x
  cases y
  exact congrArg Number.mk (UInt64.toNat_inj.1 same)

theorem isNegative_eq (x : Number) : x.isNegative = decide (2 ^ 63 ≤ x.raw) := by
  have below := x.raw_lt
  rw [isNegative, FloatFormat.isNegative, show binary64.signBit = 2 ^ 63 from rfl, Bool.eq_iff_iff,
    beq_iff_eq, decide_eq_true_iff]
  omega

theorem IsInt.raw_ofInt {x : Number} {i : Int} (int : x.IsInt i) :
    (ofInt i).raw = (if i < 0 then 2 ^ 63 else 0) + x.raw % 2 ^ 63 := by
  have small : x.raw % 2 ^ 63 < 2 ^ 63 := Nat.mod_lt _ (by decide)
  rw [raw, ofInt, int.natAbs_eq, ← int.whole, encode_magnitude int.number int.finite,
    UInt64.toNat_ofNat', show binary64.signBit = 2 ^ 63 from rfl]
  apply Nat.mod_eq_of_lt
  split <;> omega

/-- The number of the integer that a whole number of the script stands for is that number. -/
theorem IsInt.ofInt_equals {x : Number} {i : Int} (int : x.IsInt i) :
    (ofInt i).equals x = true := by
  have bits := int.raw_ofInt
  have below := x.raw_lt
  have value := int.value
  rw [isNegative_eq] at value
  by_cases same : (ofInt i).raw = x.raw
  · simp [eq_of_raw same, equals, int.number]
  · -- The bits differ only where the sign of a zero got lost.
    have unsigned : x.raw % 2 ^ 63 = 0 := by
      have whole : x.wholePart = 0 := by
        simp only [decide_eq_true_eq] at value
        split at value <;> split at bits <;> omega
      have nothing : x.magnitude = 0 := by rw [int.whole, whole, Nat.zero_mul]
      rw [← encode_magnitude int.number int.finite, nothing]
      exact encode_subnormal (by decide)
    have positive : (ofInt i).raw = 0 := by
      simp only [decide_eq_true_eq] at value
      split at value <;> split at bits <;> omega
    have left : ofInt i = Number.zero := eq_of_raw positive
    have right : x.isZero = true := by
      rw [isZero, show binary64.signBit = 2 ^ 63 from rfl, unsigned]
      rfl
    rw [left, equals, int.number, right, show Number.zero.isNaN = false from rfl,
      show Number.zero.isZero = true from rfl]
    simp

/-- Within 64 bits the word of a number is the integer next to it on the side of zero, modulo 2^64. -/
theorem toWord_eq {x : Number} {i : Int} (number : x.isNaN = false)
    (value : i = if x.isNegative then -(x.wholePart : Int) else x.wholePart) (low : -(2 ^ 63) ≤ i)
    (high : i < 2 ^ 64) : (x.toWord : Int) = i % 2 ^ 64 := by
  rw [toWord, number, twoPow_eq, show UInt64.size = 2 ^ 64 from rfl]
  simp only [Bool.false_eq_true, if_false]
  split <;> rename_i sign
  · rw [sign, if_pos rfl] at value
    omega
  · simp only [sign, Bool.false_eq_true, if_false] at value
    omega

theorem isInt_ofInt {i : Int} (small : i.natAbs < 2 ^ 53) : (ofInt i).IsInt i := by
  obtain ⟨number, finite, sign, magnitude⟩ := parts_ofInt small
  have whole := wholePart_ofInt small
  refine ⟨number, finite, by rw [magnitude, whole], ?_⟩
  rw [sign, whole]
  split <;> rename_i negative
  · have := of_decide_eq_true negative
    omega
  · simp only [decide_eq_true_eq] at negative
    omega

theorem IsInt.toInt?_eq {x : Number} {i : Int} (int : x.IsInt i) : x.toInt? = some i := by
  have whole : (x.magnitude % twoPow binary64.unit != 0) = false := by
    rw [int.whole, Nat.mul_mod_left]
    rfl
  rw [toInt?, int.number, int.finite, whole, int.value]
  cases x.isNegative <;> rfl

end Number

namespace IntFormat

/-- The range of an integer type. -/
def Represents (format : IntFormat) (i : Int) : Prop :=
  if format.signed then -(2 ^ (format.width.bits - 1)) ≤ i ∧ i < 2 ^ (format.width.bits - 1)
  else 0 ≤ i ∧ i < 2 ^ format.width.bits

instance (format : IntFormat) (i : Int) : Decidable (format.Represents i) := by
  unfold Represents
  infer_instance

theorem bits_le (width : Width) : 8 ≤ width.bits ∧ width.bits ≤ 64 := by
  cases width <;> decide

theorem truncate_lt (x : Number) (width : Width) : x.truncate width.bits < UInt64.size := by
  have positive := Nat.two_pow_pos width.bits
  rw [Number.truncate, twoPow_eq]
  exact Nat.lt_of_lt_of_le (Nat.mod_lt _ positive)
    (Nat.pow_le_pow_right two_pos (bits_le width).2)

/-- The integer of the type's range that is congruent to `n`. -/
def wrap (format : IntFormat) (n : Int) : Int :=
  if format.signed then n.bmod (2 ^ format.width.bits) else n % 2 ^ format.width.bits

theorem represents_wrap_iff (format : IntFormat) (n i : Int) :
    (format.Represents i ∧ i % 2 ^ format.width.bits = n % 2 ^ format.width.bits) ↔
      i = format.wrap n := by
  obtain ⟨width, signed⟩ := format
  cases width <;> cases signed <;> simp [Represents, wrap, Width.bits, Int.bmod] <;> omega

theorem wrap_of_represents {format : IntFormat} {i : Int} (fits : format.Represents i) :
    format.wrap i = i :=
  ((represents_wrap_iff format i i).1 ⟨fits, rfl⟩).symm

/-- The slot of an integer type is read as the integer of its range that the number wraps to. -/
theorem asInt_truncate (format : IntFormat) {x : Number} {n : Int}
    (word : (x.toWord : Int) = n % 2 ^ 64) :
    (Slot.ofNat (x.truncate format.width.bits)).asInt format.width.bits format.signed =
      format.wrap n := by
  obtain ⟨width, signed⟩ := format
  rw [Slot.asInt, Slot.low, Slot.toNat_ofNat (truncate_lt x width), Number.truncate]
  cases width <;> cases signed <;> simp [wrap, Width.bits, Int.bmod, twoPow_eq] <;> try split
  all_goals omega

/-- What an integer type can represent comes back from the slot it is lowered to. -/
theorem asInt_of_represents {format : IntFormat} {x : Number} {i : Int} (int : x.IsInt i)
    (fits : format.Represents i) :
    (Slot.ofNat (x.truncate format.width.bits)).asInt format.width.bits format.signed = i := by
  have bounds : -(2 ^ 63) ≤ i ∧ i < 2 ^ 64 := by
    obtain ⟨width, signed⟩ := format
    cases width <;> cases signed <;>
      simp only [Represents, Width.bits, if_true, if_false, Bool.false_eq_true] at fits <;> omega
  rw [asInt_truncate format (Number.toWord_eq int.number int.value bounds.1 bounds.2),
    wrap_of_represents fits]

end IntFormat
end ForeignCall
