import ForeignCall.Proofs.Call.Frame
import ForeignCall.Proofs.Conversion.Steps

/-!
Arguments that a script leaves out.

The arity of a plan counts its required inputs wherever they stand, while arguments go to the inputs by
position. So an argument for a nullable input counts towards the required ones after it, and those are
then checked against undefined, which a boolean accepts.
-/

set_option autoImplicit false

namespace ForeignCall

variable {r : Repository} {plan : Plan} {arguments : List Value} {p : Parameter} {i : Nat}

/-- Whether undefined passes for an argument of the parameter. -/
def Parameter.IsOmissible (p : Parameter) : Prop :=
  isBoolean p.type = true ∨ p.nullable = true ∧ p.type.acceptsNull = true

/-- Whether an input of a plan has no argument among so many. -/
def Plan.Omits (plan : Plan) (count : Nat) (p : Parameter) : Prop :=
  ∃ i, plan.inputs[i]? = some p ∧ count ≤ i

theorem canConvert_undefined_iff {d : Descriptor} {nullable : Bool} :
    canConvert r d .undefined nullable = true ↔
      isBoolean d = true ∨ nullable = true ∧ d.acceptsNull = true := by
  cases boolean : isBoolean d with
  | true =>
    refine iff_of_true ?_ (.inl rfl)
    unfold isBoolean at boolean
    split at boolean
    · rfl
    · cases boolean
  | false =>
    rw [canConvert_nullish (by rw [boolean]; rfl), Bool.and_eq_true]
    simp

theorem firstMismatch_eq_ok_iff {pairs : List (Parameter × Value)} :
    firstMismatch r pairs = .ok () ↔
      ∀ q ∈ pairs, canConvert r q.1.type q.2 q.1.nullable = true := by
  induction pairs with
  | nil => simp [firstMismatch]
  | cons first rest ih =>
    rw [List.forall_mem_cons, ← ih, firstMismatch]
    split
    · rename_i fits
      exact (and_iff_right fits).symm
    · rename_i unfit
      exact iff_of_false (by rintro ⟨⟩) fun both => unfit both.1

theorem getElem?_pairInputs {inputs : List Parameter} :
    (pairInputs inputs arguments)[i]? = inputs[i]?.map (·, arguments[i]?.getD .undefined) := by
  induction inputs generalizing arguments i with
  | nil => simp [pairInputs]
  | cons first rest ih =>
    cases i with
    | zero => cases arguments <;> rfl
    | succ i =>
      rw [pairInputs, List.getElem?_cons_succ, List.getElem?_cons_succ, ih, List.getElem?_tail]

/-- Arguments are accepted if there are enough of them, each one fits its input, and each input without
one takes undefined. -/
theorem checkArguments_eq_ok_iff :
    checkArguments r plan arguments = .ok () ↔
      plan.requiredCount ≤ arguments.length ∧
        (∀ (i : Nat) (p : Parameter) v, plan.inputs[i]? = some p → arguments[i]? = some v →
          canConvert r p.type v p.nullable = true) ∧
        ∀ p, plan.Omits arguments.length p → p.IsOmissible := by
  have matched : firstMismatch r (pairInputs plan.inputs arguments) = .ok () ↔
      ∀ (i : Nat) (p : Parameter), plan.inputs[i]? = some p →
        canConvert r p.type (arguments[i]?.getD .undefined) p.nullable = true := by
    simp only [firstMismatch_eq_ok_iff, List.mem_iff_getElem?, getElem?_pairInputs,
      Option.map_eq_some_iff]
    constructor
    · intro fits i p found
      exact fits (p, _) ⟨i, p, found, rfl⟩
    · rintro fits _ ⟨i, p, found, rfl⟩
      exact fits i p found
  unfold checkArguments
  split
  · rename_i few
    exact iff_of_false nofun fun enough => absurd enough.1 (by omega)
  · rename_i enough
    rw [matched, and_iff_right (Nat.le_of_not_lt enough)]
    constructor
    · intro fits
      refine ⟨fun i p v found given => ?_, ?_⟩
      · simpa [given] using fits i p found
      · rintro p ⟨i, found, beyond⟩
        have fit := fits i p found
        rw [List.getElem?_eq_none beyond] at fit
        exact canConvert_undefined_iff.1 fit
    · rintro ⟨fits, omissible⟩ i p found
      cases given : arguments[i]? with
      | some v => exact fits i p v found given
      | none =>
        have beyond := List.getElem?_eq_none_iff.1 given
        exact canConvert_undefined_iff.2 (omissible p ⟨i, found, beyond⟩)

/-- A required input without an argument comes after a nullable one that has an argument, since that
argument counts in its place. -/
theorem exists_nullable_of_omits {count : Nat} (enough : plan.requiredCount ≤ count)
    (omits : plan.Omits count p) (required : p.nullable = false) :
    ∃ (j : Nat) (q : Parameter), plan.inputs[j]? = some q ∧ j < count ∧ q.nullable = true := by
  obtain ⟨i, found, beyond⟩ := omits
  -- otherwise every input with an argument is required, and so is this one: more than were given
  by_contra none
  have taken : ∀ q ∈ plan.inputs.take count, (!q.nullable) = true := by
    intro q listed
    obtain ⟨j, given⟩ := List.mem_iff_getElem?.1 listed
    rw [List.getElem?_take] at given
    split at given
    · rename_i inside
      rw [Bool.not_eq_true', ← Bool.not_eq_true]
      exact fun nullable => none ⟨j, q, given, inside, nullable⟩
    · cases given
  have dropped : p ∈ plan.inputs.drop count :=
    List.mem_of_getElem? (i := i - count) (by rw [List.getElem?_drop, Nat.add_sub_cancel' beyond, found])
  have first : (plan.inputs.take count).countP (!·.nullable) = count := by
    rw [List.countP_eq_length.2 taken, List.length_take]
    have := (List.getElem?_eq_some_iff.1 found).1
    omega
  have later : 0 < (plan.inputs.drop count).countP (!·.nullable) :=
    List.countP_pos_iff.2 ⟨p, dropped, by rw [required]; rfl⟩
  have all : plan.requiredCount = (plan.inputs.take count).countP (!·.nullable) +
      (plan.inputs.drop count).countP (!·.nullable) := by
    rw [Plan.requiredCount, ← List.countP_eq_length_filter, ← List.countP_append,
      List.take_append_drop]
  omega

/-- What accepted arguments leave out is nullable, but for booleans. A boolean that is left out and not
nullable stands behind a nullable input that has an argument. -/
theorem omitted_inputs_optional (accepted : checkArguments r plan arguments = .ok ()) :
    ((∀ p, plan.Omits arguments.length p → p.nullable = true) ↔
      ∀ p, plan.Omits arguments.length p → isBoolean p.type = true → p.nullable = true) ∧
    ∀ p, plan.Omits arguments.length p → p.IsOmissible ∧
      (p.nullable = false → isBoolean p.type = true ∧
        ∃ (j : Nat) (q : Parameter), plan.inputs[j]? = some q ∧ j < arguments.length ∧
          q.nullable = true) := by
  obtain ⟨enough, -, omissible⟩ := checkArguments_eq_ok_iff.1 accepted
  refine ⟨⟨fun optional p omits _ => optional p omits, fun booleans p omits => ?_⟩,
    fun p omits => ⟨omissible p omits, fun required => ⟨?_, ?_⟩⟩⟩
  · rcases omissible p omits with boolean | ⟨nullable, -⟩
    · exact booleans p omits boolean
    · exact nullable
  · rcases omissible p omits with boolean | ⟨nullable, -⟩
    · exact boolean
    · cases required.symm.trans nullable
  · exact exists_nullable_of_omits enough omits required

/-- A function of a text that may be null, a switch that may not, and a remark that may. -/
def CallableRecord.labelled : CallableRecord :=
  { namespaceName := "T", name := "label"
    arguments := [
      { name := "text", type := .utf8, nullable := true },
      { name := "shown", type := { tag := .boolean } },
      { name := "remark", type := .utf8, nullable := true }] }

/-- A null for the text counts as the argument that the switch requires, so that both the switch and the
remark are left out. -/
theorem omitted_inputs_optional_behind :
    let plan := (Plan.derive .initial .labelled).toOption.getD default
    let shown := plan.parameters[1]!
    Plan.derive .initial .labelled = .ok plan ∧
      checkArguments .initial plan [.null] = .ok () ∧ plan.Omits 1 shown ∧
      plan.Omits 1 plan.parameters[2]! ∧ shown.IsOmissible ∧
      ∃ (j : Nat) (q : Parameter), plan.inputs[j]? = some q ∧ j < 1 ∧ q.nullable = true := by
  intro plan shown
  have accepted : checkArguments .initial plan [.null] = .ok () := by decide +kernel
  have omits : plan.Omits 1 shown := ⟨1, by decide +kernel, by decide⟩
  have remark : plan.Omits 1 plan.parameters[2]! := ⟨2, by decide +kernel, by decide⟩
  obtain ⟨omissible, behind⟩ := (omitted_inputs_optional accepted).2 shown omits
  exact ⟨by decide +kernel, accepted, omits, remark, omissible, (behind (by decide +kernel)).2⟩

/-- The switch is left out although it is not nullable. -/
theorem required_input_omitted :
    ∃ plan p, Plan.derive .initial .labelled = .ok plan ∧
      checkArguments .initial plan [.null] = .ok () ∧ plan.Omits 1 p ∧ p.nullable = false := by
  let plan := (Plan.derive .initial .labelled).toOption.getD default
  exact ⟨plan, plan.parameters[1]!, by decide +kernel, by decide +kernel,
    ⟨1, by decide +kernel, by decide⟩, by decide +kernel⟩

end ForeignCall
