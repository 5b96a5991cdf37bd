import ForeignCall.Proofs.Conversion.Steps

/-!
The argument check and lowering agree.

A value that the check accepts is never refused by lowering. What can still go wrong is what no look
at the value foresees: a fault of the heap, a struct whose size nobody knows, and a callback type
that cannot be called. A value that the check refuses is never lowered.
-/

set_option autoImplicit false

namespace ForeignCall

/-- The faults that checking an argument does not foresee. Refusals of a value are not among them. -/
inductive Unforeseen : ConversionFault → Prop
  | heap (fault : HeapFault) : Unforeseen (.heap fault)
  | size (name : String) : Unforeseen (.unsupported s!"{name} has no known size")
  | callback (name : String) : Unforeseen (.unsupported s!"callback {name} has no signature")
  | signature (fault : PlanFault) : Unforeseen (.signature fault)

/-- The action succeeds only if `fits`, and if it does, no error of the action was foreseeable. -/
def Checked {α : Type} (x : ConversionM α) (fits : Prop) : Prop :=
  ∀ m, x.Gives m (fun _ _ => fits) (fun e _ => fits → Unforeseen e) fun _ => True

variable {α : Type} {env : Environment} {r : Repository} {d element : Descriptor} {v : Value}
  {nullable : Bool} {fits : Prop}

theorem checked_mismatch (unfit : ¬ fits) : Checked (mismatch d v : ConversionM α) fits :=
  fun _ holds => absurd holds unfit

theorem gives_touch_unforeseen (x : HeapM α) (m : Memory) :
    (Memory.touch x : ConversionM α).Gives m (fun _ _ => True) (fun e _ => Unforeseen e)
      fun _ => True := by
  rw [Action.gives_touch]
  unfold Action.Gives
  split
  · trivial
  · exact .heap _
  · trivial

/-! ### Values without parts -/

theorem lowerInteger_checked {width : Nat} :
    Checked (lowerInteger d v width) (v.number?.isSome = true) := by
  intro m
  rw [lowerInteger, Action.gives_bind]
  refine gives_expectNumber (fun n same => ?_) fun none fits => ?_
  · rw [same]
    rfl
  · simp [none] at fits

theorem lowerInline_checked {size : Option Nat} {w : Wrapper} (holds : fits) :
    Checked (lowerInline d size w) fits := by
  intro m
  cases size with
  | none => exact fun _ => .size _
  | some size =>
    rw [lowerInline, Action.gives_bind]
    exact (gives_touch_unforeseen _ m).mono (fun _ _ _ => holds) fun _ _ unforeseen _ => unforeseen

theorem lowerCallback_checked {name : String} {pointer : Bool} {release : Release} :
    Checked (lowerCallback env (.named .callback name pointer) v nullable release)
      (canConvert env.repository (.named .callback name pointer) v nullable = true) := by
  intro m
  cases v with
  | function f =>
    simp only [lowerCallback, canConvert, Value.isNullish, Bool.false_and, Bool.false_eq_true,
      if_false]
    split
    · exact fun _ => .callback name
    · split
      · exact fun _ => .signature _
      · rw [Action.gives_bind]
        exact (Action.gives_register fun _ => trivial).partly
  | undefined | null =>
    cases nullable with
    | true => rfl
    | false => exact checked_mismatch (by simp [canConvert, Value.isNullish, isBoolean]) m
  | _ => exact checked_mismatch (by simp [canConvert, Value.isNullish]) m

theorem lower_nullish_checked (nullish : (v.isNullish && !isBoolean d) = true) :
    Checked (lower env d v nullable) (canConvert env.repository d v nullable = true) := by
  rw [lower_nullish nullish, canConvert_nullish nullish]
  split
  · rename_i accepted
    exact fun _ => accepted
  · rename_i refused
    exact checked_mismatch refused

theorem lower_basic_checked {type : BasicType} {pointer : Bool} :
    Checked (lower env (.basic type pointer) v nullable)
      (canConvert env.repository (.basic type pointer) v nullable = true) := by
  by_cases nullish : (v.isNullish && !isBoolean (.basic type pointer)) = true
  · exact lower_nullish_checked nullish
  · unfold lower canConvert
    rw [if_neg nullish, if_neg nullish]
    cases type with
    | boolean => exact fun _ => rfl
    | integer format => exact lowerInteger_checked
    | gtype => exact lowerInteger_checked
    | float | double =>
      intro m
      dsimp only
      rw [Action.gives_bind]
      refine gives_expectNumber (fun n same => ?_) fun none fits => ?_
      · rw [same]
        rfl
      · simp [none] at fits
    | unichar =>
      intro m
      cases v with
      | number n => rfl
      | string s =>
        dsimp only [lowerChar]
        split
        · rename_i c single
          simp [single]
        · rename_i other
          refine checked_mismatch (fun single => ?_) m
          obtain ⟨c, single⟩ := List.length_eq_one_iff.1 (by simpa using single)
          exact other c single
      | _ => exact checked_mismatch (by simp) m
    | string filename =>
      intro m
      cases v with
      | string s =>
        dsimp only
        rw [Action.gives_bind]
        exact (gives_touch_unforeseen _ m).mono (fun _ _ _ => rfl) fun _ _ unforeseen _ => unforeseen
      | _ => exact checked_mismatch (by simp [Value.string?]) m
    | error => exact fun _ fits => by cases fits
    | void =>
      intro m
      cases pointer with
      | true =>
        cases v with
        | object w => exact rfl
        | number n => exact rfl
        | _ => exact checked_mismatch (by simp) m
      | false =>
        intro fits
        cases v <;> cases fits

theorem lower_named_checked {type : NamedType} {name : String} {pointer : Bool} :
    Checked (lower env (.named type name pointer) v nullable)
      (canConvert env.repository (.named type name pointer) v nullable = true) := by
  by_cases nullish : (v.isNullish && !isBoolean (.named type name pointer)) = true
  · exact lower_nullish_checked nullish
  · cases type with
    | callback =>
      unfold lower
      rw [if_neg nullish]
      exact lowerCallback_checked
    | enumeration storage flags =>
      unfold lower canConvert
      rw [if_neg nullish, if_neg nullish]
      exact lowerInteger_checked
    | object =>
      unfold lower canConvert
      rw [if_neg nullish, if_neg nullish]
      intro m
      dsimp only
      rw [Action.gives_bind]
      refine gives_expectInstance (fun w same isOne => ?_) fun unfit fits => ?_
      · rw [same]
        exact isOne
      · simp [unfit] at fits
    | structured size byValue =>
      unfold lower canConvert
      rw [if_neg nullish, if_neg nullish]
      intro m
      dsimp only
      rw [Action.gives_bind]
      refine gives_expectInstance (fun w same isOne => ?_) fun unfit fits => ?_
      · have fits : v.wrapper?.any (isInstance env.repository
            (.named (.structured size byValue) name pointer)) = true := by
          rw [same]
          exact isOne
        split
        · exact lowerInline_checked fits m
        · exact fits
      · simp [unfit] at fits

/-! ### Containers -/

theorem forPositions_gives {step : Nat → LayoutM Unit} {count position : Nat} {h : Heap}
    (each : ∀ i g, (step i).Gives g (fun _ _ => True) (fun _ _ => False) fun _ => True) :
    (forPositions step count position).Gives h (fun _ _ => True) (fun _ _ => False)
      fun _ => True := by
  induction count generalizing position h with
  | zero => trivial
  | succ count ih =>
    rw [forPositions, Action.gives_bind]
    exact (each position h).mono (fun _ _ _ => ih) fun _ _ never => never

theorem discardElements_gives {base count : Nat} {h : Heap} :
    (discardElements element base count).Gives h (fun _ _ => True) (fun _ _ => False)
      fun _ => True := by
  unfold discardElements
  split
  · trivial
  · apply forPositions_gives
    intro i g
    rw [Action.gives_bind, Action.gives_attempt]
    refine (Action.gives_anyhow _ g).mono (fun slot k _ => ?_) fun _ _ _ => trivial
    dsimp only
    rw [Action.gives_bind, Action.gives_attempt]
    exact (Action.gives_anyhow _ k).mono (fun _ _ _ => trivial) fun _ _ _ => trivial

theorem canConvert_of_inline (stored : element.isInlineStruct = true) :
    canConvert r element v false = v.wrapper?.any (isInstance r element) := by
  unfold Descriptor.isInlineStruct at stored
  split at stored
  · cases v <;> rfl
  · cases stored

theorem putItem_checked {lowerItem : Value → ConversionM Slot} {address : Nat}
    (lowered : Checked (lowerItem v) (canConvert r element v false = true)) :
    Checked (putItem r element lowerItem address v) (canConvert r element v false = true) := by
  intro m
  unfold putItem
  split
  · rename_i stored
    rw [canConvert_of_inline stored, Action.gives_bind]
    refine gives_expectInstance (fun w same isOne => ?_) fun unfit fits => ?_
    · have fits : v.wrapper?.any (isInstance r element) = true := by
        rw [same]
        exact isOne
      rw [Action.gives_bind]
      refine (gives_touch_unforeseen _ m).mono (fun _ t _ => ?_) fun _ _ unforeseen _ => unforeseen
      exact (gives_touch_unforeseen _ t).mono (fun _ _ _ => fits) fun _ _ unforeseen _ => unforeseen
    · simp [unfit] at fits
  · rw [Action.gives_bind]
    refine (lowered m).mono (fun slot t fits => ?_) fun _ _ unforeseen => unforeseen
    exact (gives_touch_unforeseen _ t).mono (fun _ _ _ => fits) fun _ _ unforeseen _ => unforeseen

theorem packItems_checked {put : Nat → Value → ConversionM Unit} {fits : Value → Prop}
    (puts : ∀ address item, Checked (put address item) (fits item)) {base position : Nat}
    {items : List Value} :
    Checked (packItems element base put position items) (∀ item ∈ items, fits item) := by
  induction items generalizing position with
  | nil => exact fun _ => by simp [packItems]
  | cons item rest ih =>
    intro m
    rw [packItems, Action.gives_bind, Action.gives_attempt]
    refine (puts _ item m).mono (fun _ t fit => ?_) fun e t unforeseen => ?_
    · refine (ih t).mono (fun _ _ later => ?_) fun e _ unforeseen all => ?_
      · exact List.forall_mem_cons.2 ⟨fit, later⟩
      · exact unforeseen (List.forall_mem_cons.1 all).2
    · dsimp only
      rw [Action.gives_bind, Action.gives_onHeap]
      refine discardElements_gives.mono (fun _ g _ => ?_) fun _ _ never => never.elim
      rw [Action.gives_bind]
      refine (gives_touch_unforeseen _ _).mono (fun _ _ _ => ?_) fun _ _ unforeseen _ => unforeseen
      exact fun all => unforeseen (List.forall_mem_cons.1 all).1

theorem packArray_checked {mode : ArrayLength} {form : ArrayForm} (pointer : Bool)
    {lowerItem : Value → ConversionM Slot}
    (lowered : ∀ item, Checked (lowerItem item) (canConvert r element item false = true)) :
    Checked (packArray r d element mode form lowerItem v nullable)
      (canConvert r (.array element mode form pointer) v nullable = true) := by
  intro m
  cases v with
  | array items =>
    have fits : canConvert r (.array element mode form pointer) (.array items) nullable =
        (form == .c && lengthAllows mode items.length
          && items.all fun item => canConvert r element item false) := by
      rw [canConvert, if_neg (by simp [Value.isNullish])]
    rw [fits]
    by_cases other : form = .c
    · subst other
      cases allowed : lengthAllows mode items.length with
      | true =>
        simp only [BEq.rfl, Bool.true_and, List.all_eq_true]
        rw [packArray_eq allowed, Action.gives_bind]
        refine (gives_touch_unforeseen _ m).mono (fun base t _ => ?_) fun _ _ unforeseen _ =>
          unforeseen
        have puts : ∀ address item, Checked (putItem r element lowerItem address item)
            (canConvert r element item false = true) := fun _ item => putItem_checked (lowered item)
        rw [Action.gives_bind]
        exact packItems_checked puts t
      | false =>
        cases mode with
        | fixed n =>
          rw [packArray_of_length (by simpa [lengthAllows] using allowed)]
          exact fun fits => by simp at fits
        | _ => simp [lengthAllows] at allowed
    · rw [packArray_of_form other]
      exact fun fits => by simp [other] at fits
  | undefined | null =>
    cases nullable with
    | true => rfl
    | false => exact checked_mismatch (by simp [canConvert, Value.isNullish, isBoolean]) m
  | _ => exact checked_mismatch (by simp [canConvert, Value.isNullish]) m

theorem linkItems_checked {singlyLinked : Bool} {lowerItem : Value → ConversionM Slot}
    {fits : Value → Prop} (lowered : ∀ item, Checked (lowerItem item) (fits item)) {head : Nat}
    {items : List Value} :
    Checked (linkItems d singlyLinked lowerItem head items) (∀ item ∈ items, fits item) := by
  induction items generalizing head with
  | nil => exact fun _ => by simp [linkItems]
  | cons item rest ih =>
    intro m
    rw [linkItems, Action.gives_bind, Action.gives_attempt]
    refine (lowered item m).mono (fun slot t fit => ?_) fun e t unforeseen => ?_
    · dsimp only
      rw [Action.gives_bind]
      refine (gives_touch_unforeseen _ t).mono (fun node u _ => ?_) fun _ _ unforeseen _ => unforeseen
      refine (ih u).mono (fun _ _ later => ?_) fun e _ unforeseen all => ?_
      · exact List.forall_mem_cons.2 ⟨fit, later⟩
      · exact unforeseen (List.forall_mem_cons.1 all).2
    · dsimp only
      rw [Action.gives_bind, Action.gives_attempt]
      have refused : (∀ x ∈ item :: rest, fits x) → Unforeseen e :=
        fun all => unforeseen (List.forall_mem_cons.1 all).1
      exact (Action.gives_anyhow _ t).mono (fun _ _ _ => refused) fun _ _ _ => refused

theorem buildList_checked {singlyLinked : Bool} {lowerItem : Value → ConversionM Slot}
    {items : List Value}
    (lowered : ∀ item, Checked (lowerItem item) (canConvert r element item false = true)) :
    Checked (buildList d singlyLinked lowerItem (.array items))
      ((items.all fun item => canConvert r element item false) = true) := by
  intro m
  rw [buildList, Action.gives_bind, List.all_eq_true]
  refine (linkItems_checked lowered m).mono (fun _ _ fits => ?_) fun _ _ unforeseen fits => ?_
  · exact fun item listed => fits item (List.mem_reverse.2 listed)
  · exact unforeseen fun item listed => fits item (List.mem_reverse.1 listed)

/-! ### All types -/

/-- Lowering succeeds only where the check accepts, and fails there for unforeseen reasons only. -/
theorem lower_checked :
    Checked (lower env d v nullable) (canConvert env.repository d v nullable = true) := by
  induction d generalizing v nullable with
  | basic type pointer => exact lower_basic_checked
  | named type name pointer => exact lower_named_checked
  | hash key value pointer =>
    by_cases nullish : (v.isNullish && !isBoolean (.hash key value pointer)) = true
    · exact lower_nullish_checked nullish
    · unfold lower canConvert
      rw [if_neg nullish, if_neg nullish]
      exact fun _ fits => by cases fits
  | array element mode form pointer ih =>
    by_cases nullish : (v.isNullish && !isBoolean (.array element mode form pointer)) = true
    · exact lower_nullish_checked nullish
    · rw [lower, if_neg nullish]
      intro m
      rw [Action.gives_bind]
      exact packArray_checked pointer (fun item => ih) m
  | list element singlyLinked pointer ih =>
    by_cases nullish : (v.isNullish && !isBoolean (.list element singlyLinked pointer)) = true
    · exact lower_nullish_checked nullish
    · unfold lower canConvert
      rw [if_neg nullish, if_neg nullish]
      cases v with
      | array items => exact buildList_checked fun item => ih
      | _ => exact checked_mismatch (by simp)

theorem lowerArray_checked {element : Descriptor} {mode : ArrayLength} {form : ArrayForm}
    {pointer : Bool} :
    Checked (lowerArray env (.array element mode form pointer) v nullable)
      (canConvert env.repository (.array element mode form pointer) v nullable = true) :=
  packArray_checked pointer fun _ => lower_checked

end ForeignCall
