import ForeignCall.Proofs.Conversion.RoundTrip
import ForeignCall.Proofs.Number.Exact

/-!
Narrowing: what an integer slot keeps of a number.

A number of 64 bits is cut to the width of its type. What comes back from a slot of at most 32 bits,
from an element of an array or from a cell is the only integer of the type's range that differs from
the number by a multiple of two to the width. Fractional digits are dropped before that.
-/

set_option autoImplicit false

namespace ForeignCall

/-- The format of an integer type, which the storage of an enumeration or of flags is, too. -/
def Descriptor.intFormat? : Descriptor → Option IntFormat
  | .basic (.integer format) _ | .named (.enumeration format _) _ _ => some format
  | _ => none

namespace Number

variable {x y : Number} {q : ℚ} {n : ℤ}

theorem toWord_congr (number : x.isNaN = false) (number' : y.isNaN = false)
    (same : x.integral = y.integral) : x.toWord = y.toWord := by
  simp only [integral, toWord, number, number', Bool.false_eq_true, if_false] at same ⊢
  rw [twoPow_eq, show UInt64.size = 2 ^ 64 from rfl]
  split at same <;> split at same <;> simp only [*, Bool.false_eq_true, if_true, if_false] <;> omega

/-- Numbers that come to the same integer are narrowed alike. -/
theorem truncate_congr (value : x.value? = some q) (whole : y.value? = some (towardZero q : ℚ))
    (width : Nat) : x.truncate width = y.truncate width := by
  have same : x.integral = y.integral := by
    rw [← towardZero_of_value? value, ← towardZero_of_value? whole, towardZero_intCast]
  rw [truncate, truncate,
    toWord_congr (exists_of_value? value).1 (exists_of_value? whole).1 same]

end Number

section Integers

variable {d : Descriptor} {format : IntFormat} {env : Environment} {nullable : Bool} {m : Memory}

theorem Descriptor.cases_of_intFormat? (integer : d.intFormat? = some format) :
    (∃ pointer, d = .basic (.integer format) pointer) ∨
      ∃ flags name pointer, d = .named (.enumeration format flags) name pointer := by
  unfold Descriptor.intFormat? at integer
  split at integer <;> cases integer
  · exact .inl ⟨_, rfl⟩
  · exact .inr ⟨_, _, _, rfl⟩

theorem Descriptor.isData_of_intFormat? (integer : d.intFormat? = some format) :
    d.isData = true := by
  obtain ⟨_, rfl⟩ | ⟨_, _, _, rfl⟩ := cases_of_intFormat? integer <;> rfl

theorem Descriptor.isSelfSized_of_intFormat? (integer : d.intFormat? = some format) :
    d.isSelfSized = true := by
  obtain ⟨_, rfl⟩ | ⟨_, _, _, rfl⟩ := cases_of_intFormat? integer <;> rfl

theorem Descriptor.bytes_le_size (integer : d.intFormat? = some format) :
    format.width.bytes ≤ d.size := by
  obtain ⟨pointer, rfl⟩ | ⟨flags, name, pointer, rfl⟩ := cases_of_intFormat? integer
  · exact Nat.le_refl _
  · cases pointer with
    | false => exact Nat.le_refl _
    | true => exact (show format.width.bytes ≤ 8 by cases format.width <;> decide)

theorem lower_integer (integer : d.intFormat? = some format) (x : Number) :
    lower env d (.number x) nullable m = .ok (.ofNat (x.truncate format.width.bits)) m := by
  obtain ⟨_, rfl⟩ | ⟨_, _, _, rfl⟩ := Descriptor.cases_of_intFormat? integer <;> rfl

theorem lift_integer (integer : d.intFormat? = some format) (held : List Value) (slot : Slot)
    (given : Option Nat) (copy : Bool) :
    lift held d slot given copy m =
      .ok (.number (.ofInt (slot.asInt format.width.bits format.signed))) m := by
  obtain ⟨_, rfl⟩ | ⟨_, _, _, rfl⟩ := Descriptor.cases_of_intFormat? integer <;> rfl

theorem storesZero_integer (integer : d.intFormat? = some format) (x : Number) :
    d.storesZero (.number x) = (x.truncate format.width.bits == 0) := by
  obtain ⟨_, rfl⟩ | ⟨_, _, _, rfl⟩ := Descriptor.cases_of_intFormat? integer <;> rfl

theorem carries_integer (integer : d.intFormat? = some format) {x : Number} {i : ℤ}
    (int : x.IsInt i) (fits : format.Represents i) : d.Carries (.number x) := by
  obtain ⟨_, rfl⟩ | ⟨_, _, _, rfl⟩ := Descriptor.cases_of_intFormat? integer <;>
    exact ⟨x, i, rfl, int.toInt?_eq, fits⟩

/-! ### Elements and cells -/

/-- A slot that was cut to the width of its type comes back from every cell of the type. -/
theorem load_stored_integer (integer : d.intFormat? = some format) (x : Number) {h : Heap}
    {address : Nat} (within : h.Accessible address d.size) :
    ∃ g, Heap.store address d.size (.ofNat (x.truncate format.width.bits)) h = .ok () g ∧
      Heap.load address d.size g = .ok (.ofNat (x.truncate format.width.bits)) g := by
  have narrow := (Descriptor.size_of_isData (Descriptor.isData_of_intFormat? integer)).2
  have fits : (Slot.ofNat (x.truncate format.width.bits)).toNat < 256 ^ d.size :=
    Nat.lt_of_lt_of_le (truncate_lt_size x format)
      (Nat.pow_le_pow_right (by decide) (Descriptor.bytes_le_size integer))
  refine ⟨_, Heap.store_eq _ (by rwa [Nat.min_eq_left narrow]), ?_⟩
  rw [Heap.load_eq (Heap.accessible_overwritten.2 within),
    Heap.slotAt_stored_of_lt fits narrow within]

end Integers

/-! ### Arrays -/

section Arrays

variable {α : Type} {r : Repository} {element : Descriptor} {lowerItem : Value → ConversionM Slot}
  {f g : α → Value} {entries : List α}

/-- Items that are lowered alike are packed alike. -/
theorem packItems_congr {base position : Nat} {put : Nat → Value → ConversionM Unit}
    (alike : ∀ p ∈ entries, ∀ address, put address (f p) = put address (g p)) :
    packItems element base put position (entries.map f) =
      packItems element base put position (entries.map g) := by
  induction entries generalizing position with
  | nil => rfl
  | cons p rest ih =>
    have tail : ∀ q ∈ rest, ∀ address, put address (f q) = put address (g q) :=
      fun q later => alike q (List.mem_cons_of_mem p later)
    rw [List.map_cons, List.map_cons, packItems, packItems, alike p List.mem_cons_self, ih tail]

theorem packArray_congr {d : Descriptor} {mode : ArrayLength} {nullable : Bool}
    (plain : element.isInlineStruct = false)
    (allowed : lengthAllows mode entries.length = true)
    (alike : ∀ p ∈ entries, lowerItem (f p) = lowerItem (g p)) :
    packArray r d element mode .c lowerItem (.array (entries.map f)) nullable =
      packArray r d element mode .c lowerItem (.array (entries.map g)) nullable := by
  rw [packArray_eq (by rwa [List.length_map]), packArray_eq (by rwa [List.length_map]),
    List.length_map, List.length_map]
  have put : ∀ p ∈ entries, ∀ address,
      putItem r element lowerItem address (f p) = putItem r element lowerItem address (g p) := by
    intro p listed address
    simp only [putItem, plain, Bool.false_eq_true, if_false, alike p listed]
  simp only [packItems_congr put]

end Arrays

section Narrowing

variable {d : Descriptor} {format : IntFormat} {env : Environment} {nullable : Bool} {x : Number}
  {n : ℤ}

theorem truncate_eq_emod (format : IntFormat) (int : x.IsInt n) (low : -2 ^ 63 ≤ n)
    (high : n < 2 ^ 64) : (x.truncate format.width.bits : ℤ) = n % 2 ^ format.width.bits := by
  have word := Number.toWord_eq int.number int.value low high
  rw [Number.truncate, twoPow_eq]
  cases format.width <;> simp only [Width.bits] <;> omega

theorem natAbs_wrap_lt (narrow : format.width ≠ .w64) (n : ℤ) :
    (format.wrap n).natAbs < 2 ^ 53 := by
  have fits := ((format.represents_wrap_iff n _).2 rfl).1
  obtain ⟨width, signed⟩ := format
  cases width <;> cases signed <;> simp [IntFormat.Represents, Width.bits] at fits narrow <;> omega

/-- A number of 64 bits goes into a slot like the number it wraps to. -/
theorem truncate_wrap (narrow : format.width ≠ .w64) (int : x.IsInt n) (low : -2 ^ 63 ≤ n)
    (high : n < 2 ^ 64) :
    x.truncate format.width.bits = (Number.ofInt (format.wrap n)).truncate format.width.bits := by
  have small := natAbs_wrap_lt narrow n
  have congruent := ((format.represents_wrap_iff n _).2 rfl).2
  have wrapped := truncate_eq_emod format (Number.isInt_ofInt small) (by omega) (by omega)
  rw [congruent, ← truncate_eq_emod format int low high] at wrapped
  exact_mod_cast wrapped.symm

theorem lowerArray_wraps (integer : d.intFormat? = some format) (narrow : format.width ≠ .w64)
    {entries : List (Number × ℤ)} {mode : ArrayLength} {pointer : Bool} {m : Memory}
    (ints : ∀ p ∈ entries, p.1.IsInt p.2 ∧ -2 ^ 63 ≤ p.2 ∧ p.2 < 2 ^ 64)
    (allowed : lengthAllows mode entries.length = true)
    (ended : mode = .zeroTerminated → ∀ p ∈ entries, ¬ 2 ^ format.width.bits ∣ p.2) :
    (lowerArray env (.array d mode .c pointer) (.array (entries.map fun p => .number p.1))
        nullable).Gives m
      (fun lowered t => lowered.2 = entries.length ∧
        ∃ w, w.equals (.array (entries.map fun p => .number (.ofInt (format.wrap p.2)))) = true ∧
          ∀ held copy, lift held (.array d mode .c pointer) lowered.1 (some lowered.2) copy t =
            .ok w t)
      (fun _ _ => False) fun halt => halt = .exhausted := by
  have data := Descriptor.isData_of_intFormat? integer
  have sized := Descriptor.isSelfSized_of_intFormat? integer
  have alike : ∀ p ∈ entries, lower env d (.number p.1) false =
      lower env d (.number (.ofInt (format.wrap p.2))) false := by
    intro p listed
    obtain ⟨int, low, high⟩ := ints p listed
    funext m
    rw [lower_integer integer, lower_integer integer, truncate_wrap narrow int low high]
  have carries : (Descriptor.array d mode .c pointer).Carries
      (.array (entries.map fun p => .number (.ofInt (format.wrap p.2)))) := by
    refine ⟨_, rfl, by rwa [List.length_map], ?_, fun terminated => ?_⟩ <;>
      rw [List.forall_mem_map] <;> intro p listed
    · have fits := ((format.represents_wrap_iff p.2 _).2 rfl).1
      exact carries_integer integer (Number.isInt_ofInt (natAbs_wrap_lt narrow p.2)) fits
    · obtain ⟨int, low, high⟩ := ints p listed
      have word := truncate_eq_emod format int low high
      have nonzero := ended terminated p listed
      rw [storesZero_integer integer, ← truncate_wrap narrow int low high, beq_eq_false_iff_ne]
      intro zero
      rw [zero] at word
      exact nonzero (Int.dvd_of_emod_eq_zero word.symm)
  rw [lowerArray, packArray_congr (Descriptor.isInlineStruct_of_isData data) allowed alike]
  have trips : ∀ item, d.Carries item → RoundTrips (lower env d item false) d item :=
    fun item fits => lower_roundTrips data fits
  refine Action.Gives.mono_halted ((packArray_roundTrips trips
    (by simp [Descriptor.isData, data, sized]) carries (Nat.le_refl _)).mono ?_
    fun _ _ never => never) fun _ full => full.1
  rintro ⟨slot, count⟩ t ⟨counted, -, w, stores⟩
  refine ⟨by simpa [Value.items?] using counted, w, stores.equal, fun held copy => ?_⟩
  exact stores.reads _ (.inl counted) t held copy (Nat.le_refl _) fun _ _ _ => rfl

/-- What narrowing keeps. A number that is an integer of 64 bits is lowered to a slot that holds it
modulo two to the width of its type, and a cell or an element of the type gives that slot back. Up to
32 bits the slot is lifted as the number of the only integer of the type's range that is congruent to
it, and an array as the array of these. Any finite number is lowered like the integer next to it on
the side of zero, which is a number, too. -/
theorem narrowing_wraps (integer : d.intFormat? = some format) :
    (∀ (x : Number) (n : ℤ), x.value? = some (n : ℚ) → -2 ^ 63 ≤ n → n < 2 ^ 64 →
      ∃ slot : Slot, (slot.toNat : ℤ) = n % 2 ^ format.width.bits ∧
        (∀ env nullable m, lower env d (.number x) nullable m = .ok slot m) ∧
        (∀ (h : Heap) (address size : ℕ), size = d.size ∨ size = d.slotSize →
          h.Accessible address size →
          ∃ g, Heap.store address size slot h = .ok () g ∧
            Heap.load address size g = .ok slot g) ∧
        (format.width ≠ .w64 →
          (∀ i, format.Represents i ∧ i ≡ n [ZMOD 2 ^ format.width.bits] ↔ i = format.wrap n) ∧
          ∃ y : Number, y.value? = some (format.wrap n : ℚ) ∧
            ∀ held given copy m, lift held d slot given copy m = .ok (.number y) m)) ∧
    (∀ (entries : List (Number × ℤ)) mode pointer env nullable m, format.width ≠ .w64 →
      (∀ p ∈ entries, p.1.value? = some (p.2 : ℚ) ∧ -2 ^ 63 ≤ p.2 ∧ p.2 < 2 ^ 64) →
      lengthAllows mode entries.length = true →
      (mode = .zeroTerminated → ∀ p ∈ entries, ¬ 2 ^ format.width.bits ∣ p.2) →
      (lowerArray env (.array d mode .c pointer) (.array (entries.map fun p => .number p.1))
          nullable).Gives m
        (fun lowered t => lowered.2 = entries.length ∧
          ∃ w, w.equals (.array (entries.map fun p => .number (.ofInt (format.wrap p.2)))) = true ∧
            ∀ held copy, lift held (.array d mode .c pointer) lowered.1 (some lowered.2) copy t =
              .ok w t)
        (fun _ _ => False) fun halt => halt = .exhausted) ∧
    ∀ (x : Number) (q : ℚ), x.value? = some q →
      (∃ y : Number, y.value? = some (towardZero q : ℚ)) ∧
        ∀ y : Number, y.value? = some (towardZero q : ℚ) → ∀ env nullable m,
          lower env d (.number x) nullable m = lower env d (.number y) nullable m := by
  refine ⟨fun x n value low high => ?_, ?_, fun x q value => ⟨?_, fun y whole env nullable m => ?_⟩⟩
  · have int := Number.isInt_of_value? value
    have size := Descriptor.slotSize_of_isData (Descriptor.isData_of_intFormat? integer)
    refine ⟨_, ?_, fun env nullable m => lower_integer integer x, ?_, fun narrow => ⟨fun i => ?_, ?_⟩⟩
    · rw [Slot.toNat_ofNat (IntFormat.truncate_lt x format.width)]
      exact truncate_eq_emod format int low high
    · rintro h address size (rfl | rfl) within
      · exact load_stored_integer integer x within
      · rw [size] at within ⊢
        exact load_stored_integer integer x within
    · exact format.represents_wrap_iff n i
    · refine ⟨_, (Number.isInt_ofInt (natAbs_wrap_lt narrow n)).value?_eq, fun held given copy m => ?_⟩
      rw [lift_integer integer,
        IntFormat.asInt_truncate format (Number.toWord_eq int.number int.value low high)]
  · intro entries mode pointer env nullable m narrow values allowed ended
    refine lowerArray_wraps integer narrow (fun p listed => ?_) allowed ended
    exact (values p listed).imp_left Number.isInt_of_value?
  · obtain ⟨y, int⟩ := Number.exists_isInt_integral value
    rw [Number.towardZero_of_value? value]
    exact ⟨y, int.value?_eq⟩
  · rw [lower_integer integer, lower_integer integer, Number.truncate_congr value whole]

/-- The largest number below 2^64 is 2048 less, which a signed slot of 32 bits takes for -2048. -/
theorem narrowing_wraps_largest :
    let d : Descriptor := .basic (.integer ⟨.w32, true⟩) false
    d.intFormat? = some ⟨.w32, true⟩ ∧
      ∃ (x y : Number) (slot : Slot), x.value? = some ((2 ^ 64 - 2048 : ℤ) : ℚ) ∧
        y.value? = some ((-2048 : ℤ) : ℚ) ∧ slot.toNat = 2 ^ 32 - 2048 ∧
        (∀ env nullable m, lower env d (.number x) nullable m = .ok slot m) ∧
        ∀ held given copy m, lift held d slot given copy m = .ok (.number y) m := by
  intro d
  have int : (Number.ofInt (2 ^ 64 - 2048)).IsInt (2 ^ 64 - 2048) :=
    Number.isInt_of_toInt? (by decide +kernel)
  obtain ⟨slot, word, lowers, -, wraps⟩ :=
    (narrowing_wraps (d := d) rfl).1 _ _ int.value?_eq (by decide) (by decide)
  obtain ⟨-, y, value, lifts⟩ := wraps (by decide)
  have wrapped : (IntFormat.mk .w32 true).wrap (2 ^ 64 - 2048) = -2048 := by decide
  rw [wrapped] at value
  exact ⟨rfl, _, y, slot, int.value?_eq, value, by simp only [Width.bits] at word; omega, lowers, lifts⟩

end Narrowing

end ForeignCall
