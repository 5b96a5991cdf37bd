import ForeignCall.Conversion.Lower
import ForeignCall.Proofs.Heap.Bytes

/-!
The steps of lowering, one by one: what each expects and what it does with what it expects.
-/

set_option autoImplicit false

namespace ForeignCall

section Expectations

variable {r : Repository} {d : Descriptor} {v : Value} {m : Memory}
  {failed : ConversionFault → Memory → Prop} {halted : Halt → Prop}

theorem gives_expectNumber {ok : Number → Memory → Prop} (fits : ∀ n, v = .number n → ok n m)
    (refused : v.number? = none → failed (.typeMismatch d.displayName v.describe) m) :
    (expectNumber d v).Gives m ok failed halted := by
  cases v with
  | number n => exact fits n rfl
  | _ => exact refused rfl

theorem gives_expectInstance {ok : Wrapper → Memory → Prop}
    (fits : ∀ w, v = .object w → isInstance r d w = true → ok w m)
    (refused : v.wrapper?.any (isInstance r d) = false →
      failed (.typeMismatch d.displayName v.describe) m) :
    (expectInstance r d v).Gives m ok failed halted := by
  cases v with
  | object w =>
    rw [expectInstance]
    split
    · exact fits w rfl (by assumption)
    · exact refused (by simp_all [Value.wrapper?])
  | _ => exact refused rfl

end Expectations

section Packing

variable {r : Repository} {d element : Descriptor} {mode : ArrayLength} {form : ArrayForm}
  {nullable : Bool} {lowerItem : Value → ConversionM Slot} {items : List Value}

theorem packArray_of_form (other : form ≠ .c) :
    packArray r d element mode form lowerItem (.array items) nullable =
      Action.fail (.unsupported s!"{form.debugName} arrays") := by
  simp only [packArray, Value.isNullish, Bool.false_and, Bool.false_eq_true, if_false]
  rw [if_pos other]

theorem packArray_of_length {expected : Nat} (other : items.length ≠ expected) :
    packArray r d element (.fixed expected) .c lowerItem (.array items) nullable =
      Action.fail (.fixedSizeMismatch expected items.length) := by
  have refused : lengthAllows (.fixed expected) items.length = false := by simpa [lengthAllows]
  simp only [packArray, Value.isNullish, Bool.false_and, Bool.false_eq_true, if_false, refused]
  rfl

theorem packArray_eq (allowed : lengthAllows mode items.length = true) :
    packArray r d element mode .c lowerItem (.array items) nullable = (do
      let places := items.length + (if mode = .zeroTerminated then 1 else 0)
      let base ← Memory.touch (Heap.alloc (places * element.size) element.align)
      packItems element base (putItem r element lowerItem) 0 items
      return (.ofNat base, items.length)) := by
  unfold packArray
  rw [if_neg (by simp [Value.isNullish])]
  cases mode <;> simp only [allowed, ne_eq, not_true_eq_false, if_false]

/-- Packing gives null for no array, where that is taken, and what becomes of a new buffer for the items
of an array that is allowed. Anything else is refused before there is a buffer. -/
theorem gives_packArray {v : Value} {m : Memory} {ok : Slot × Nat → Memory → Prop}
    {failed : ConversionFault → Memory → Prop} {halted : Halt → Prop}
    (null : v.isNullish = true → ok (.null, 0) m) (refused : ∀ fault, failed fault m)
    (full : halted .exhausted)
    (packs : ∀ items, v = .array items → lengthAllows mode items.length = true →
      ∀ start after positive room,
        (packItems element start (putItem r element lowerItem) 0 items).Gives
          { m with
            heap := m.heap.extend start
              (max ((items.length + if mode = .zeroTerminated then 1 else 0) * element.size) 1)
              after positive room }
          (fun _ t => ok (.ofNat start, items.length) t) failed halted) :
    (packArray r d element mode form lowerItem v nullable).Gives m ok failed halted := by
  cases v with
  | array items =>
    by_cases other : form = .c
    · subst other
      cases allowed : lengthAllows mode items.length with
      | true =>
        rw [packArray_eq allowed, Action.gives_bind, Action.gives_touch]
        refine Heap.gives_alloc_unless (fun start after positive room _ => ?_) fun _ => full
        rw [Action.gives_bind]
        exact packs items rfl allowed start after positive room
      | false =>
        cases mode with
        | fixed n =>
          rw [packArray_of_length (by simpa [lengthAllows] using allowed)]
          exact refused _
        | _ => simp [lengthAllows] at allowed
    · rw [packArray_of_form other]
      exact refused _
  | _ =>
    unfold packArray
    split
    · rename_i missing
      exact null (Bool.and_eq_true_iff.1 missing).1
    · exact refused _

end Packing

theorem canConvert_nullish {r : Repository} {d : Descriptor} {v : Value} {nullable : Bool}
    (nullish : (v.isNullish && !isBoolean d) = true) :
    canConvert r d v nullable = (nullable && d.acceptsNull) := by
  unfold canConvert
  rw [if_pos nullish]

theorem lower_nullish {env : Environment} {d : Descriptor} {v : Value} {nullable : Bool}
    (nullish : (v.isNullish && !isBoolean d) = true) :
    lower env d v nullable = if nullable && d.acceptsNull then pure .null else mismatch d v := by
  unfold lower
  rw [if_pos nullish]

end ForeignCall
