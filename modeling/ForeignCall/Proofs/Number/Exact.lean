import ForeignCall.Proofs.Number.Integer

/-!
Exact values of the numbers of the script.

A finite number is a rational number, a signed count of least subnormals. The part of it that an
integer slot keeps is the integer next to it on the side of zero, and that integer is a number of the
script as well.
-/

set_option autoImplicit false

namespace ForeignCall

/-- The integer next to a rational number on the side of zero. -/
def towardZero (q : ℚ) : ℤ := if q < 0 then ⌈q⌉ else ⌊q⌋

theorem towardZero_intCast (i : ℤ) : towardZero i = i := by
  rw [towardZero]
  split <;> simp

theorem towardZero_neg (q : ℚ) : towardZero (-q) = -towardZero q := by
  rcases lt_trichotomy q 0 with negative | rfl | positive
  · have positive : ¬ -q < 0 := by linarith
    rw [towardZero, if_neg positive, towardZero, if_pos negative, Int.floor_neg]
  · simp [towardZero]
  · have negative : -q < 0 := by linarith
    rw [towardZero, if_pos negative, towardZero, if_neg positive.not_gt, Int.ceil_neg]

theorem towardZero_div (m d : ℕ) : towardZero (m / d : ℚ) = (m / d : ℕ) := by
  have natural : ¬ (m / d : ℚ) < 0 := not_lt.2 (by positivity)
  rw [towardZero, if_neg natural, Rat.floor_natCast_div_natCast, Int.natCast_div]

namespace Number

variable {x y : Number} {q : ℚ} {i : ℤ}

/-- The number as a rational number; a NaN and the infinities are none. -/
def value? (x : Number) : Option ℚ :=
  if x.isNaN || x.isInfinite then none
  else some ((if x.isNegative then -1 else 1) * (x.magnitude / twoPow FloatFormat.binary64.unit))

/-- The integer that the number comes to when its fractional digits are dropped. -/
def integral (x : Number) : ℤ := if x.isNegative then -(x.wholePart : ℤ) else x.wholePart

theorem exists_of_value? (value : x.value? = some q) :
    x.isNaN = false ∧ x.isInfinite = false ∧
      q = (if x.isNegative then -1 else 1) * (x.magnitude / twoPow FloatFormat.binary64.unit) := by
  rw [value?] at value
  split at value
  · cases value
  · rename_i finite
    simp only [Bool.or_eq_true, not_or, Bool.not_eq_true] at finite
    exact ⟨finite.1, finite.2, (Option.some.inj value).symm⟩

theorem towardZero_of_value? (value : x.value? = some q) : towardZero q = x.integral := by
  obtain ⟨-, -, rfl⟩ := exists_of_value? value
  rw [integral, wholePart]
  split
  · rw [neg_one_mul, towardZero_neg, towardZero_div]
  · rw [one_mul, towardZero_div]

theorem IsInt.value?_eq (int : x.IsInt i) : x.value? = some (i : ℚ) := by
  have positive : (twoPow FloatFormat.binary64.unit : ℚ) ≠ 0 := by
    rw [twoPow_eq]
    positivity
  rw [value?, int.number, int.finite, int.whole, int.value]
  simp only [Bool.or_self, Bool.false_eq_true, if_false, Nat.cast_mul, Option.some.injEq]
  rw [mul_div_assoc, div_self positive, mul_one]
  split <;> simp

theorem isInt_of_value? (value : x.value? = some (i : ℚ)) : x.IsInt i := by
  have integral := towardZero_of_value? value
  obtain ⟨number, finite, same⟩ := exists_of_value? value
  rw [towardZero_intCast] at integral
  refine ⟨number, finite, ?_, integral⟩
  have positive : (twoPow FloatFormat.binary64.unit : ℚ) ≠ 0 := by
    rw [twoPow_eq]
    positivity
  have exact : (x.wholePart : ℚ) = x.magnitude / twoPow FloatFormat.binary64.unit := by
    rw [integral, Number.integral] at same
    split at same <;> push_cast at same <;> linarith
  rw [eq_div_iff positive] at exact
  exact_mod_cast exact.symm

theorem significand_lt (x : Number) : FloatFormat.binary64.significand x.raw < 2 ^ 53 := by
  have fraction : twoPow FloatFormat.binary64.fraction = 2 ^ 52 := rfl
  have field : FloatFormat.binary64.fractionField x.raw < 2 ^ 52 := Nat.mod_lt _ (by decide)
  rw [FloatFormat.significand, fraction]
  split <;> omega

theorem pow_dvd_of_le {m p k u : ℕ} (below : m < 2 ^ p) (large : 2 ^ p ≤ m * 2 ^ k / 2 ^ u) :
    2 ^ u ∣ m * 2 ^ k := by
  have least : 2 ^ p * 2 ^ u ≤ m * 2 ^ k :=
    (Nat.le_div_iff_mul_le (Nat.two_pow_pos u)).1 large
  have scale : u ≤ k := by
    by_contra small
    have bound : m * 2 ^ k < 2 ^ p * 2 ^ u :=
      calc m * 2 ^ k < 2 ^ p * 2 ^ k := Nat.mul_lt_mul_of_pos_right below (Nat.two_pow_pos k)
        _ ≤ 2 ^ p * 2 ^ u :=
            Nat.mul_le_mul_left _ (Nat.pow_le_pow_right two_pos (Nat.le_of_not_le small))
    exact absurd least (not_le.2 bound)
  exact Dvd.dvd.mul_left (pow_dvd_pow 2 scale) m

/-- A number of 2^53 and more has no fractional digits. -/
theorem magnitude_eq_of_le (large : 2 ^ 53 ≤ x.wholePart) :
    x.magnitude = x.wholePart * twoPow FloatFormat.binary64.unit := by
  simp only [wholePart, magnitude, FloatFormat.magnitude, twoPow_eq] at large ⊢
  exact (Nat.div_mul_cancel (pow_dvd_of_le x.significand_lt large)).symm

/-- The integer a finite number comes to is a number of the script. -/
theorem exists_isInt_integral (value : x.value? = some q) : ∃ y : Number, y.IsInt x.integral := by
  obtain ⟨number, finite, -⟩ := exists_of_value? value
  rcases Nat.lt_or_ge x.wholePart (2 ^ 53) with small | large
  · refine ⟨ofInt x.integral, isInt_ofInt ?_⟩
    rw [integral]
    split <;> simpa using small
  · exact ⟨x, number, finite, magnitude_eq_of_le large, rfl⟩

end Number

end ForeignCall
