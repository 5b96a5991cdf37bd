import ForeignCall.Number
import Mathlib

/-!
Whole numbers below 2^53 are numbers of the script, so that they come back as they were.
-/

set_option autoImplicit false

namespace ForeignCall

theorem twoPow_eq (n : Nat) : twoPow n = 2 ^ n := by
  rw [twoPow, Nat.one_shiftLeft]

theorem roundHalfEven_mul (q k : Nat) : roundHalfEven (q * twoPow k) k = q := by
  have positive : 0 < twoPow k := by
    rw [twoPow_eq]
    exact Nat.two_pow_pos k
  simp only [roundHalfEven, Nat.mul_mod_left, Nat.mul_div_cancel q positive]
  exact if_neg (by omega)

namespace Number

open FloatFormat

theorem exists_significand {n : Nat} (positive : 0 < n) (small : n < 2 ^ 53) :
    ∃ e q, e ≤ 52 ∧ 2 ^ 52 ≤ q ∧ q < 2 ^ 53 ∧ n * 2 ^ 1074 = q * 2 ^ (e + 1022) := by
  have low : 2 ^ n.log2 ≤ n := Nat.log2_self_le (by omega)
  have high : n < 2 ^ (n.log2 + 1) := Nat.lt_log2_self
  have exponent : n.log2 ≤ 52 := Nat.lt_succ_iff.1 ((Nat.log2_lt (by omega)).2 small)
  refine ⟨n.log2, n * 2 ^ (52 - n.log2), exponent, ?_, ?_, ?_⟩
  · calc 2 ^ 52 = 2 ^ n.log2 * 2 ^ (52 - n.log2) := by rw [← Nat.pow_add, Nat.add_sub_cancel' exponent]
      _ ≤ n * 2 ^ (52 - n.log2) := Nat.mul_le_mul_right _ low
  · calc n * 2 ^ (52 - n.log2) < 2 ^ (n.log2 + 1) * 2 ^ (52 - n.log2) :=
          Nat.mul_lt_mul_of_pos_right high (Nat.two_pow_pos _)
      _ = 2 ^ 53 := by rw [← Nat.pow_add, show n.log2 + 1 + (52 - n.log2) = 53 by omega]
  · rw [Nat.mul_assoc, ← Nat.pow_add, show 52 - n.log2 + (n.log2 + 1022) = 1074 by omega]

/-- A number with a full significand is encoded as it is: no digit is dropped. -/
theorem encode_normal {q scale : Nat} (low : 2 ^ 52 ≤ q) (high : q < 2 ^ 53)
    (finite : scale ≤ 2045) :
    binary64.encode (q * 2 ^ scale) 0 = scale * 2 ^ 52 + q := by
  have log : (q * 2 ^ scale).log2 = 52 + scale := by
    have positive := Nat.two_pow_pos scale
    rw [Nat.log2_eq_iff (Nat.mul_ne_zero (by omega) (by omega)),
      show 52 + scale + 1 = 53 + scale by omega, Nat.pow_add, Nat.pow_add 2 53]
    exact ⟨Nat.mul_le_mul_right _ low, Nat.mul_lt_mul_of_pos_right high positive⟩
  have drop : max 0 ((q * 2 ^ scale).log2 - binary64.fraction) = scale := by
    rw [log, show binary64.fraction = 52 from rfl]
    omega
  rw [encode]
  simp only [drop]
  rw [← twoPow_eq scale, roundHalfEven_mul, Nat.sub_zero,
    show binary64.infinity = 2047 * 2 ^ 52 from rfl, show twoPow binary64.fraction = 2 ^ 52 from rfl]
  exact Nat.min_eq_left (by omega)

theorem encode_whole {n e q : Nat} (small : e ≤ 52) (low : 2 ^ 52 ≤ q) (high : q < 2 ^ 53)
    (same : n * 2 ^ 1074 = q * 2 ^ (e + 1022)) :
    binary64.encode (n * twoPow binary64.unit) 0 = (e + 1022) * 2 ^ 52 + q := by
  rw [show binary64.unit = 1074 from rfl, twoPow_eq, same]
  exact encode_normal low high (by omega)

theorem fields_of_bits {e q sign : Nat} (small : e ≤ 52) (low : 2 ^ 52 ≤ q) (high : q < 2 ^ 53)
    (signed : sign = 0 ∨ sign = 2 ^ 63) :
    let bits := sign + ((e + 1022) * 2 ^ 52 + q)
    binary64.exponentField bits = e + 1023 ∧ binary64.fractionField bits = q - 2 ^ 52 ∧
      binary64.isNegative bits = decide (sign = 2 ^ 63) := by
  intro bits
  have fraction : twoPow binary64.fraction = 2 ^ 52 := rfl
  have exponent : twoPow binary64.exponent = 2048 := rfl
  have top : binary64.signBit = 2 ^ 63 := rfl
  refine ⟨?_, ?_, ?_⟩
  · rw [exponentField, fraction, exponent]
    omega
  · rw [fractionField, fraction]
    omega
  · rw [FloatFormat.isNegative, top, Bool.eq_iff_iff, beq_iff_eq, decide_eq_true_iff]
    omega

/-- The number of an integer below 2^53 in absolute value is exactly that integer. -/
theorem parts_ofInt {i : Int} (small : i.natAbs < 2 ^ 53) :
    (ofInt i).isNaN = false ∧ (ofInt i).isInfinite = false ∧
      (ofInt i).isNegative = decide (i < 0) ∧
      (ofInt i).magnitude = i.natAbs * twoPow binary64.unit := by
  rcases Nat.eq_zero_or_pos i.natAbs with zero | positive
  · obtain rfl : i = 0 := Int.natAbs_eq_zero.1 zero
    exact ⟨rfl, rfl, rfl, rfl⟩
  · obtain ⟨e, q, bound, low, high, same⟩ := exists_significand positive small
    have signed : (if i < 0 then 2 ^ 63 else 0) = 0 ∨ (if i < 0 then 2 ^ 63 else 0) = 2 ^ 63 := by
      split <;> simp
    have bits : (ofInt i).raw = (if i < 0 then 2 ^ 63 else 0) + ((e + 1022) * 2 ^ 52 + q) := by
      simp only [raw, ofInt, encode_whole bound low high same]
      rw [UInt64.toNat_ofNat', show binary64.signBit = 2 ^ 63 from rfl]
      exact Nat.mod_eq_of_lt (by omega)
    obtain ⟨exponent, fraction, sign⟩ := fields_of_bits bound low high signed
    rw [← bits] at exponent fraction sign
    have finite : (binary64.exponentField (ofInt i).raw == binary64.topExponent) = false := by
      rw [exponent, show binary64.topExponent = 2047 from rfl, beq_eq_false_iff_ne]
      omega
    refine ⟨?_, ?_, ?_, ?_⟩
    · rw [isNaN, FloatFormat.isNaN, finite, Bool.false_and]
    · rw [isInfinite, FloatFormat.isInfinite, finite, Bool.false_and]
    · rw [isNegative, sign]
      split <;> simp [*]
    · simp only [magnitude, FloatFormat.magnitude, significand, scale, exponent, fraction]
      rw [if_neg (by omega), show twoPow binary64.fraction = 2 ^ 52 from rfl,
        Nat.sub_add_cancel low, show e + 1023 - 1 = e + 1022 by omega, twoPow_eq, ← same,
        show binary64.unit = 1074 from rfl, twoPow_eq]

theorem wholePart_ofInt {i : Int} (small : i.natAbs < 2 ^ 53) :
    (ofInt i).wholePart = i.natAbs := by
  obtain ⟨-, -, -, magnitude⟩ := parts_ofInt small
  rw [wholePart, magnitude, twoPow_eq]
  exact Nat.mul_div_cancel _ (Nat.two_pow_pos _)

end Number

end ForeignCall
