import ForeignCall.Proofs.Ownership.Chains

/-!
Lowering gains exactly what the slot it gives owns, and nothing when it fails.
-/

set_option autoImplicit false

namespace ForeignCall

/-- Whether lowering a value to the type takes a block for the value itself. -/
def Descriptor.allocates (d : Descriptor) (v : Value) : Bool :=
  match d with
  | .basic (.string _) _ => v.string?.isSome
  | .named (.structured _ byValue) _ pointer => (byValue && !pointer) && v.wrapper?.isSome
  | .array .. => v.items?.isSome
  | .list .. => v.items?.any (!·.isEmpty)
  | _ => false

variable {d : Descriptor} {v : Value} {m : Memory} {env : Environment} {nullable : Bool}

theorem allocates_of_isNullish (nullish : v.isNullish = true) : d.allocates v = false := by
  unfold Descriptor.allocates
  cases v <;>
    first
    | (cases nullish; done)
    | (split <;> simp [Value.string?, Value.wrapper?, Value.items?])

theorem owns_bare (bare : elementHoldsMemory d false = false) (stored : d.isInlineStruct = false)
    (slot : Slot) (m : Memory) :
    ∃ n f, Owns m.heap d slot n f ∧ m.heap.Grows m.heap f.all ∧ f.outer.isEmpty = !false :=
  ⟨0, .empty, owns_empty_of_bare bare stored slot 0, .refl _, rfl⟩

theorem lowerInteger_lowers {width : Nat} (bare : elementHoldsMemory d false = false)
    (stored : d.isInlineStruct = false) : Lowers (lowerInteger d v width) d false := by
  intro m
  rw [lowerInteger, Action.gives_bind]
  exact gives_expectNumber (fun n _ => owns_bare bare stored _ m) fun _ => .refl _

theorem lowerChar_lowers {pointer : Bool} :
    Lowers (lowerChar (.basic .unichar pointer) v) (.basic .unichar pointer) false := by
  intro m
  unfold lowerChar
  split
  · exact owns_bare rfl rfl _ m
  · split
    · exact owns_bare rfl rfl _ m
    · exact Heap.Grows.refl _
  · exact Heap.Grows.refl _

theorem lowerString_lowers {s : String} {filename pointer : Bool} :
    Lowers (do return .ofNat (← Memory.touch (Heap.duplicate s))) (.basic (.string filename) pointer)
      true := by
  intro m
  simp only [Action.gives_bind, Action.gives_touch, Action.gives_pure]
  refine Heap.gives_allocBytes.mono ?_ fun _ _ never => never
  rintro a g ⟨n, grows⟩
  have live := grows.live (List.mem_singleton_self _)
  have owns : Owns g (.basic (.string filename) pointer) (.ofNat a) 0 ⟨[⟨a, n⟩], []⟩ :=
    (owns_string live.isNull_ofNat).2 ⟨_, live.toNat_ofNat.symm, rfl⟩
  refine ⟨0, _, owns, ?_, rfl⟩
  simpa [Footprint.all] using grows

theorem lowerInline_lowers {size : Option Nat} {byValue pointer : Bool} {name : String} {w : Wrapper}
    (inline : (byValue && !pointer) = true) :
    Lowers (lowerInline d size w) (.named (.structured size byValue) name pointer) true := by
  intro m
  cases size with
  | none => exact Heap.Grows.refl _
  | some size =>
    simp only [lowerInline, Action.gives_bind, Action.gives_touch, Action.gives_pure]
    refine Heap.gives_copyBlock.mono ?_ fun _ _ grows => grows
    rintro a g ⟨n, grows⟩
    have live := grows.live (List.mem_singleton_self _)
    refine ⟨0, ⟨[⟨a, n⟩], []⟩, ?_, ?_, rfl⟩
    · rw [owns_structured live.isNull_ofNat, if_pos inline]
      exact ⟨_, live.toNat_ofNat.symm, rfl⟩
    · simpa [Footprint.all] using grows

theorem lowerCallback_lowers {type : String} {pointer : Bool} {release : Release} :
    Lowers (lowerCallback env (.named .callback type pointer) v nullable release)
      (.named .callback type pointer) false := by
  intro m
  unfold lowerCallback
  split
  · exact owns_bare rfl rfl _ m
  · split
    · split
      · exact Heap.Grows.refl _
      · split
        · exact Heap.Grows.refl _
        · rw [Action.gives_bind]
          exact Action.gives_register fun _ => owns_bare rfl rfl _ _
    · exact Heap.Grows.refl _

theorem lower_nullish_lowers (nullish : (v.isNullish && !isBoolean d) = true) :
    Lowers (lower env d v nullable) d (d.allocates v) := by
  intro m
  rw [lower_nullish nullish, allocates_of_isNullish (Bool.and_eq_true_iff.1 nullish).1]
  split
  · exact ⟨0, .empty, owns_empty_of_null rfl, .refl _, rfl⟩
  · exact Heap.Grows.refl _

theorem lower_basic_lowers {type : BasicType} {pointer : Bool} :
    Lowers (lower env (.basic type pointer) v nullable) (.basic type pointer)
      ((Descriptor.basic type pointer).allocates v) := by
  by_cases nullish : (v.isNullish && !isBoolean (.basic type pointer)) = true
  · exact lower_nullish_lowers nullish
  · unfold lower
    rw [if_neg nullish]
    cases type with
    | string filename =>
      cases v with
      | string s => exact lowerString_lowers
      | _ => exact fun m => Heap.Grows.refl _
    | integer format => exact lowerInteger_lowers rfl rfl
    | gtype => exact lowerInteger_lowers rfl rfl
    | unichar => exact lowerChar_lowers
    | boolean => exact fun m => owns_bare rfl rfl _ m
    | error => exact fun m => Heap.Grows.refl _
    | float | double =>
      intro m
      dsimp only
      rw [Action.gives_bind]
      exact gives_expectNumber (fun n _ => owns_bare rfl rfl _ m) fun _ => .refl _
    | void =>
      intro m
      dsimp only
      split
      · exact owns_bare rfl rfl _ m
      · exact owns_bare rfl rfl _ m
      · exact Heap.Grows.refl _
      · exact Heap.Grows.refl _

theorem lower_named_lowers {type : NamedType} {name : String} {pointer : Bool} :
    Lowers (lower env (.named type name pointer) v nullable) (.named type name pointer)
      ((Descriptor.named type name pointer).allocates v) := by
  by_cases nullish : (v.isNullish && !isBoolean (.named type name pointer)) = true
  · exact lower_nullish_lowers nullish
  · unfold lower
    rw [if_neg nullish]
    cases type with
    | enumeration storage flags => exact lowerInteger_lowers rfl rfl
    | callback => exact lowerCallback_lowers
    | object =>
      intro m
      dsimp only
      rw [Action.gives_bind]
      exact gives_expectInstance (fun w _ _ => owns_bare rfl rfl _ m) fun _ => .refl _
    | structured size byValue =>
      intro m
      dsimp only
      rw [Action.gives_bind]
      refine gives_expectInstance (fun w same _ => ?_) fun _ => .refl _
      subst same
      cases inline : byValue && !pointer with
      | true =>
        simp only [Descriptor.allocates, inline]
        exact lowerInline_lowers inline m
      | false =>
        simp only [Descriptor.allocates, inline]
        exact owns_bare (by simp [elementHoldsMemory]) (by simp [inline]) _ m

/-- Lowering by types: each element of a container is lowered like a value of its own. -/
theorem lower_lowers (measured : d.isMeasuredWithin = true) (nullable : Bool) (v : Value) :
    Lowers (lower env d v nullable) d (d.allocates v) := by
  induction d generalizing nullable v with
  | basic type pointer => exact lower_basic_lowers
  | named type name pointer => exact lower_named_lowers
  | hash key value pointer =>
    by_cases nullish : (v.isNullish && !isBoolean (.hash key value pointer)) = true
    · exact lower_nullish_lowers nullish
    · unfold lower
      rw [if_neg nullish]
      exact fun m => Heap.Grows.refl _
  | array element mode form pointer ih =>
    by_cases nullish : (v.isNullish && !isBoolean (.array element mode form pointer)) = true
    · exact lower_nullish_lowers nullish
    · rw [lower, if_neg nullish]
      intro m
      rw [Action.gives_bind]
      have within := Descriptor.isMeasuredWithin_of_isMeasured measured
      refine (packArray_gives pointer (fun item => ih within false item) measured).mono ?_
        fun _ _ grows => grows
      rintro ⟨slot, count⟩ t ⟨f, owned, grows, outer⟩
      exact ⟨count, f, owned, grows, outer⟩
  | list element singlyLinked pointer ih =>
    by_cases nullish : (v.isNullish && !isBoolean (.list element singlyLinked pointer)) = true
    · exact lower_nullish_lowers nullish
    · rw [lower, if_neg nullish]
      have within := Descriptor.isMeasuredWithin_of_isMeasured measured
      exact buildList_lowers (fun item => ih within false item) measured

theorem lowerArray_gives (measured : d.isMeasuredWithin = true) (m : Memory) :
    (lowerArray env d v nullable).Gives m
      (fun packed t => ∃ f, Owns t.heap d packed.1 packed.2 f ∧ m.heap.Grows t.heap f.all ∧
        f.outer.isEmpty = !d.allocates v)
      (fun _ t => m.heap.Grows t.heap []) := by
  cases d with
  | array element mode form pointer =>
    have within := Descriptor.isMeasuredWithin_of_isMeasured measured
    exact packArray_gives pointer (fun item => lower_lowers within false item) measured
  | _ => exact Heap.Grows.refl _

end ForeignCall
