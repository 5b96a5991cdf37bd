import ForeignCall.Proofs.Conversion.Clearing
import ForeignCall.Proofs.Conversion.Storing

/-!
Measuring arrays: a length that is not given is the length that lifting finds.

So the release of an array that carries its own length needs no more to be told than its lifting.
-/

set_option autoImplicit false

namespace ForeignCall

def Descriptor.isArray : Descriptor → Bool
  | .array .. => true
  | _ => false

variable {d element : Descriptor} {slot : Slot} {given : Option Nat} {h : Heap} {m t : Memory}
  {v w : Value}

/-! ### Counting -/

theorem arrayLength_reads {base : Nat} :
    (arrayLength d base given).Gives h (fun _ g => g = h) (fun _ g => g = h) fun _ => True :=
  across_arrayLength Heap.composes_same d base given h

theorem liftPositions_length {liftAt : List Value → Nat → ConversionM Value} {held : List Value}
    {count position : Nat} :
    (liftPositions liftAt held count position).Gives m (fun vs _ => vs.length = count)
      (fun _ _ => True) fun _ => True := by
  induction count generalizing m held position with
  | zero => rfl
  | succ count ih =>
    rw [liftPositions, Action.gives_bind]
    refine (Action.gives_anyhow _ _).mono (fun v t _ => ?_) fun _ _ _ => trivial
    rw [Action.gives_bind]
    refine ih.mono (fun vs u same => ?_) fun _ _ _ => trivial
    rw [Action.gives_pure, List.length_cons, same]

theorem liftBuffer_length {liftItem : List Value → Slot → ConversionM Value} {held : List Value}
    {base count : Nat} :
    (liftBuffer liftItem held element base count).Gives m
      (fun v _ => v.items?.map List.length = some count) (fun _ _ => True) fun _ => True := by
  rw [liftBuffer, Action.gives_bind]
  refine liftPositions_length.mono (fun vs t same => ?_) fun _ _ _ => trivial
  simp [Value.items?, same]

/-- An array is lifted with the length that is measured. -/
theorem arrayLength_of_lift {held : List Value} {copy : Bool} (array : d.isArray = true)
    (nonnull : slot.isNull = false) (run : lift held d slot given copy m = .ok w t) :
    ∃ count, arrayLength d slot.toNat given m.heap = .ok count m.heap ∧
      w.items?.map List.length = some count := by
  cases d with
  | array element mode form pointer =>
    suffices counts : (lift held (.array element mode form pointer) slot given copy).Gives m
        (fun w _ => ∃ count,
          arrayLength (.array element mode form pointer) slot.toNat given m.heap = .ok count m.heap ∧
            w.items?.map List.length = some count)
        (fun _ _ => True) fun _ => True from counts.of_ok run
    rw [lift, if_neg (by simp [nonnull]), Action.gives_bind, Action.gives_onHeap]
    refine ((Action.gives_self _ _).both arrayLength_reads).mono ?_ fun _ _ _ => trivial
    rintro count g ⟨measured, rfl⟩
    exact liftBuffer_length.mono (fun _ _ counted => ⟨count, measured, counted⟩) fun _ _ _ => trivial
  | _ => cases array

/-! ### Releasing -/

theorem release_of_not_array {own : Holding} (plain : d.isArray = false) (other : Option Nat) :
    release d slot own given = release d slot own other := by
  unfold release
  cases d with
  | basic type => cases type <;> rfl
  | named type => cases type <;> rfl
  | array => cases plain
  | list => rfl
  | hash => rfl

theorem release_of_measured {own : Holding} {count : Nat}
    (measured : arrayLength d slot.toNat given h = .ok count h) :
    release d slot own given h = release d slot own (some count) h := by
  cases d with
  | array element mode form pointer =>
    have told : arrayLength (.array element mode form pointer) slot.toNat (some count) h =
        .ok count h := rfl
    unfold release
    split
    · rfl
    · simp only
      split
      · rw [Action.bind_of_ok measured, Action.bind_of_ok told]
      · rfl
  | _ => rw [release_of_not_array rfl]

theorem length_eq_of_equalItems {items others : List Value}
    (equal : Value.equalItems items others = true) : items.length = others.length := by
  induction items generalizing others with
  | nil => cases others <;> simp_all [Value.equalItems]
  | cons item rest ih =>
    cases others with
    | nil => cases equal
    | cons other more =>
      simp only [Value.equalItems, Bool.and_eq_true] at equal
      rw [List.length_cons, List.length_cons, ih equal.2]

theorem length_eq_of_equals (equal : w.equals v = true) :
    w.items?.map List.length = v.items?.map List.length := by
  cases v <;> cases w <;> simp_all [Value.equals, Value.items?]
  exact length_eq_of_equalItems equal

/-- What lifts as a value that was lowered is released alike with the length that lifting was given
and with the count that lowering reported. -/
theorem release_of_lift {held : List Value} {copy : Bool} {own : Holding} {count : Option Nat}
    (equal : w.equals v = true) (counted : d.isArray = true → count = v.items?.map List.length)
    (run : lift held d slot given copy m = .ok w m) :
    release d slot own given m.heap = release d slot own count m.heap := by
  by_cases array : d.isArray = true
  · cases null : slot.isNull with
    | true => rw [release_null null, release_null null]
    | false =>
      obtain ⟨n, measured, length⟩ := arrayLength_of_lift array null run
      rw [length_eq_of_equals equal, ← counted array] at length
      rw [release_of_measured measured, length]
  · rw [release_of_not_array (by simpa using array) count]

end ForeignCall
