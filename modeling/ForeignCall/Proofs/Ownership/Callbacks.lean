import ForeignCall.Proofs.Conversion.Tracking
import ForeignCall.Proofs.Ownership.Chains
import ForeignCall.Proofs.Trampolines

/-!
Script functions that are registered while a value is lowered.

Lowering registers the functions in a value when it succeeds. When it fails on a value that was
accepted it has registered none: either the callback type cannot be used at all, or nothing can fail.
-/

set_option autoImplicit false

namespace ForeignCall

variable {env : Environment} {d element : Descriptor} {v : Value} {nullable : Bool} {m : Memory}

/-! ### Success -/

def Registers (grew : Bool) (m t : Memory) : Prop :=
  ∃ added, m.trampolines.Gains t.trampolines added ∧ added.isEmpty = !grew

theorem tracks_registers : Tracks Registers fun _ _ => True where
  heap m h := ⟨[], .refl _, rfl⟩
  trans := by
    rintro a b m t u ⟨added, gains, grew⟩ ⟨more, gains', grew'⟩
    have both : (added ++ more).isEmpty = (added.isEmpty && more.isEmpty) := by
      cases added <;> rfl
    exact ⟨added ++ more, gains.trans gains', by rw [both, grew, grew', Bool.not_or]⟩
  fail _ _ := trivial
  lost _ _ := trivial
  after _ _ := trivial

theorem lowerCallback_gains {release : Release} :
    (lowerCallback env d v nullable release).Gives m
      (fun slot t => t.heap = m.heap ∧
        ((slot.isNull = true ∧ v.isNullish = true) ∨ ∃ name pointer, d = .named .callback name pointer) ∧
        ∃ added, m.trampolines.Gains t.trampolines added ∧ added.isEmpty = !d.registers v ∧
          added = if slot.isNull then [] else [slot.toNat])
      (fun _ t => t = m) := by
  unfold lowerCallback
  split
  · rename_i missing
    have nullish := (Bool.and_eq_true_iff.1 missing).1
    rw [registers_of_isNullish nullish]
    exact ⟨rfl, .inl ⟨rfl, nullish⟩, [], .refl _, rfl, rfl⟩
  · split
    · split
      · rfl
      · split
        · rfl
        · rw [Action.gives_bind]
          apply Action.gives_register
          intro room
          have word := Slot.toNat_ofNat room
          have some : (Slot.ofNat (TrampolineTable.addressOf m.trampolines.next)).isNull = false := by
            rw [Slot.isNull, word, beq_eq_false_iff_ne, TrampolineTable.addressOf]
            exact Nat.ne_of_gt (Nat.lt_of_lt_of_le (by decide) (Nat.le_add_right _ _))
          refine ⟨rfl, .inr ⟨_, _, rfl⟩, _, .register _ _ _, rfl, ?_⟩
          rw [TrampolineTable.register, some, word]
          rfl
    · rfl

theorem lower_registers (v : Value) (nullable : Bool) :
    Tracked Registers (fun _ _ => True) (lower env d v nullable) (d.registers v) := by
  refine lower_tracked tracks_registers (fun name pointer _ v nullable release m => ?_) v nullable
  refine lowerCallback_gains.partly.mono (fun _ t gained => ?_) fun _ _ _ => trivial
  obtain ⟨-, -, added, gains, grew, -⟩ := gained
  exact ⟨added, gains, grew⟩

/-! ### Failure -/

/-- Whether script functions can be registered for the type. -/
def Environment.canRegister (env : Environment) (d : Descriptor) : Bool :=
  match d with
  | .named .callback name _ =>
    match (env.repository.resolve? name).bind (·.signature) with
    | some signature => (Plan.derive env.repository signature).toOption.isSome
    | none => false
  | _ => false

theorem tracks_unchanged :
    Tracks (fun _ m t => t.trampolines = m.trampolines) fun m t => t.trampolines = m.trampolines where
  heap _ _ := rfl
  trans first second := second.trans first
  fail _ _ := rfl
  lost first second := second.trans first
  after _ same := same

theorem lowerCallback_unusable {name : String} {pointer : Bool} {release : Release}
    (unusable : env.canRegister (.named .callback name pointer) = false) :
    (lowerCallback env (.named .callback name pointer) v nullable release).Gives m
      (fun _ t => t = m) (fun _ t => t = m) := by
  unfold lowerCallback
  unfold Environment.canRegister at unusable
  split
  · rfl
  · split
    · split
      · rfl
      · split
        · rfl
        · simp_all [Except.toOption]
    · rfl

theorem lower_unusable (unusable : env.canRegister d.leaf = false) (v : Value) (nullable : Bool) :
    Tracked (fun _ m t => t.trampolines = m.trampolines) (fun m t => t.trampolines = m.trampolines)
      (lower env d v nullable) (d.registers v) := by
  refine lower_tracked tracks_unchanged (fun name pointer leaf v nullable release m => ?_) v nullable
  rw [leaf] at unusable
  refine (lowerCallback_unusable unusable).partly.mono (fun _ t same => ?_) fun _ t same => ?_ <;>
    rw [same]

section Total

variable {h : Heap} {b : Block} {blocks : List Block} {lowerItem : Value → ConversionM Slot}

/-- A conversion that does not fail and keeps what was there. -/
def Total {α : Type} (x : ConversionM α) : Prop :=
  ∀ m, x.Gives m (fun _ t => ∃ gained, m.heap.Grows t.heap gained) fun _ _ => False

theorem putItem_total {r : Repository} {item : Value} {address : Nat}
    (lowered : Total (lowerItem item)) (stored : element.isInlineStruct = false)
    (grown : h.Grows m.heap blocks) (listed : b ∈ blocks) (above : b.address ≤ address)
    (below : address + element.size ≤ b.stop) :
    (putItem r element lowerItem address item).Gives m
      (fun _ t => ∃ gained, h.Grows t.heap (blocks ++ gained)) fun _ _ => False := by
  rw [putItem, if_neg (by simp [stored]), Action.gives_bind]
  refine (lowered m).mono (fun slot t step => ?_) fun _ _ never => never
  obtain ⟨gained, grows⟩ := step
  have all := grown.trans grows
  have live := all.live (List.mem_append_left _ listed)
  have within : t.heap.Accessible address (min element.size 8) :=
    live.accessible above (by omega)
  rw [Action.gives_touch]
  refine Action.gives_of_ok (Heap.store_eq slot within) ⟨gained, all.overwritten ?_ ?_⟩
  · rwa [Slot.length_toBytes]
  · exact Nat.le_trans (grown.fresh b listed) above

theorem packItems_total {r : Repository} {items : List Value} {position : Nat}
    (lowered : ∀ item ∈ items, Total (lowerItem item)) (stored : element.isInlineStruct = false)
    (grown : h.Grows m.heap blocks) (listed : b ∈ blocks)
    (room : (position + items.length) * element.size ≤ b.size) :
    (packItems element b.address (putItem r element lowerItem) position items).Gives m
      (fun _ t => ∃ gained, h.Grows t.heap (blocks ++ gained)) fun _ _ => False := by
  induction items generalizing m blocks position with
  | nil => exact ⟨[], by rwa [List.append_nil]⟩
  | cons item rest ih =>
    obtain ⟨first, later⟩ := List.forall_mem_cons.1 lowered
    rw [List.length_cons, Nat.add_comm rest.length, ← Nat.add_assoc] at room
    have reach : (position + 1) * element.size ≤ b.size :=
      Nat.le_trans (Nat.mul_le_mul_right _ (Nat.le_add_right _ _)) room
    rw [Nat.add_one_mul] at reach
    rw [packItems, Action.gives_bind, Action.gives_attempt]
    refine (putItem_total first stored grown listed (Nat.le_add_right _ _) ?_).mono
      (fun _ t step => ?_) fun _ _ never => never.elim
    · simp only [Block.stop]
      omega
    · obtain ⟨gained, grows⟩ := step
      refine (ih later grows (List.mem_append_left _ listed) room).mono (fun _ u step => ?_)
        fun _ _ never => never
      obtain ⟨more, grows'⟩ := step
      exact ⟨gained ++ more, by rwa [← List.append_assoc]⟩

theorem packArray_total {r : Repository} {mode : ArrayLength} {items : List Value}
    (lowered : ∀ item ∈ items, Total (lowerItem item)) (stored : element.isInlineStruct = false)
    (allowed : lengthAllows mode items.length = true) :
    Total (packArray r d element mode .c lowerItem (.array items) nullable) := by
  intro m
  rw [packArray_eq allowed, Action.gives_bind, Action.gives_touch]
  apply Heap.gives_alloc
  intro start after positive room
  rw [Action.gives_bind]
  have packed : (0 + items.length) * element.size ≤
      max ((items.length + if mode = .zeroTerminated then 1 else 0) * element.size) 1 := by
    rw [Nat.zero_add]
    exact Nat.le_trans (Nat.mul_le_mul_right _ (Nat.le_add_right _ _)) (Nat.le_max_left _ _)
  refine (packItems_total (m := { m with heap := _ }) lowered stored (.extend after positive room)
    (List.mem_singleton_self _) packed).mono (fun _ _ step => ?_) fun _ _ never => never
  obtain ⟨gained, grows⟩ := step
  exact ⟨_, grows⟩

theorem linkItems_total {singlyLinked : Bool} {head : Nat} {items : List Value}
    (lowered : ∀ item ∈ items, Total (lowerItem item)) (grown : h.Grows m.heap blocks)
    (chained : head ≠ 0 → ⟨head, nodeSize singlyLinked⟩ ∈ blocks) :
    (linkItems d singlyLinked lowerItem head items).Gives m
      (fun _ t => ∃ gained, h.Grows t.heap (blocks ++ gained)) fun _ _ => False := by
  induction items generalizing m blocks head with
  | nil => exact ⟨[], by rwa [List.append_nil]⟩
  | cons item rest ih =>
    obtain ⟨first, later⟩ := List.forall_mem_cons.1 lowered
    rw [linkItems, Action.gives_bind, Action.gives_attempt]
    refine (first m).mono (fun slot t step => ?_) fun _ _ never => never.elim
    obtain ⟨gained, grows⟩ := step
    have all := grown.trans grows
    have linked := fun nonzero : head ≠ 0 =>
      all.live (List.mem_append_left _ (chained nonzero))
    have beyond := fun nonzero : head ≠ 0 => grown.fresh _ (chained nonzero)
    dsimp only
    rw [Action.gives_bind, Action.gives_touch]
    refine Action.Gives.mono (prependNode_gives linked fun _ => rfl) (fun node e prepended => ?_)
      fun _ _ never => never
    have longer := prepended.grows all beyond
    refine (ih (m := { t with heap := e }) later longer fun _ => ?_).mono (fun _ u step => ?_)
      fun _ _ never => never
    · exact List.mem_append_right _ (List.mem_singleton_self _)
    · obtain ⟨more, grows'⟩ := step
      refine ⟨gained ++ [⟨node, nodeSize singlyLinked⟩] ++ more, ?_⟩
      simpa only [List.append_assoc] using grows'

end Total

theorem lower_nullish_total (nullish : (v.isNullish && !isBoolean d) = true)
    (fits : canConvert env.repository d v nullable = true) : Total (lower env d v nullable) := by
  intro m
  rw [canConvert_nullish nullish] at fits
  rw [lower_nullish nullish, if_pos fits]
  exact ⟨[], .refl _⟩

theorem lowerCallback_usable {name : String} {pointer : Bool} {release : Release} {f : FunctionId}
    (usable : env.canRegister (.named .callback name pointer) = true) :
    (lowerCallback env (.named .callback name pointer) (.function f) nullable release).Gives m
      (fun _ t => t.heap = m.heap) fun _ _ => False := by
  simp only [Environment.canRegister] at usable
  simp only [lowerCallback, Value.isNullish, Bool.false_and, Bool.false_eq_true, if_false]
  split at usable
  · rename_i signature resolved
    rw [resolved]
    dsimp only
    cases derived : Plan.derive env.repository signature with
    | ok plan =>
      dsimp only
      rw [Action.gives_bind]
      exact Action.gives_register fun _ => rfl
    | error fault => simp [derived, Except.toOption] at usable
  · cases usable

theorem isInlineStruct_of_canRegister (usable : env.canRegister d.leaf = true) :
    d.isInlineStruct = false := by
  cases d with
  | named type name pointer =>
    cases type with
    | structured size byValue => cases usable
    | _ => rfl
  | _ => rfl

/-- With a usable signature an accepted value of callbacks can only be lowered. -/
theorem lower_total (usable : env.canRegister d.leaf = true)
    (fits : canConvert env.repository d v nullable = true) : Total (lower env d v nullable) := by
  induction d generalizing v nullable with
  | basic type pointer => cases usable
  | hash key value pointer => cases usable
  | named type name pointer =>
    by_cases nullish : (v.isNullish && !isBoolean (.named type name pointer)) = true
    · exact lower_nullish_total nullish fits
    · unfold canConvert at fits
      unfold lower
      rw [if_neg nullish] at fits ⊢
      cases type with
      | callback =>
        cases v with
        | function f =>
          intro m
          refine (lowerCallback_usable usable).mono (fun _ t same => ⟨[], ?_⟩) fun _ _ never => never
          rw [same]
          exact .refl _
        | _ => cases fits
      | _ => cases usable
  | array element mode form pointer ih =>
    by_cases nullish : (v.isNullish && !isBoolean (.array element mode form pointer)) = true
    · exact lower_nullish_total nullish fits
    · unfold canConvert at fits
      rw [if_neg nullish] at fits
      rw [lower, if_neg nullish]
      cases v with
      | array items =>
        simp only [Bool.and_eq_true, beq_iff_eq, List.all_eq_true] at fits
        obtain ⟨⟨rfl, allowed⟩, each⟩ := fits
        have stored : element.isInlineStruct = false := isInlineStruct_of_canRegister usable
        intro m
        rw [Action.gives_bind]
        exact packArray_total (fun item listed => ih usable (each item listed)) stored allowed m
      | _ => cases fits
  | list element singlyLinked pointer ih =>
    by_cases nullish : (v.isNullish && !isBoolean (.list element singlyLinked pointer)) = true
    · exact lower_nullish_total nullish fits
    · unfold canConvert at fits
      rw [if_neg nullish] at fits
      rw [lower, if_neg nullish]
      cases v with
      | array items =>
        have each := List.all_eq_true.1 fits
        have lowered : ∀ item ∈ items.reverse, Total (lower env element item false) :=
          fun item listed => ih usable (each item (List.mem_reverse.1 listed))
        intro m
        rw [buildList, Action.gives_bind]
        exact linkItems_total lowered (.refl m.heap) fun nonzero => (nonzero rfl).elim
      | _ => cases fits

/-- A value that was accepted and yet cannot be lowered leaves nothing registered. -/
theorem lower_refunds (fits : canConvert env.repository d v nullable = true) :
    (lower env d v nullable).Gives m (fun _ t => Registers (d.registers v) m t)
      (fun _ t => t.trampolines = m.trampolines) fun _ => True := by
  cases usable : env.canRegister d.leaf with
  | true =>
    have total := (lower_total usable fits m).partly
    exact (total.both (lower_registers v nullable m)).mono (fun _ _ step => step.2)
      fun _ _ step => step.1.elim
  | false =>
    have unchanged := lower_unusable usable v nullable m
    exact (unchanged.both (lower_registers v nullable m)).mono (fun _ _ step => step.2)
      fun _ _ step => step.1

theorem lower_array {mode : ArrayLength} {form : ArrayForm} {pointer : Bool} :
    lower env (.array element mode form pointer) v nullable =
      Prod.fst <$> lowerArray env (.array element mode form pointer) v nullable := by
  by_cases nullish : (v.isNullish && !isBoolean (.array element mode form pointer)) = true
  · have missing := (Bool.and_eq_true_iff.1 nullish).1
    rw [lower_nullish nullish, lowerArray]
    unfold packArray
    cases v <;> first | (cases nullable <;> rfl) | cases missing
  · rw [lower, if_neg nullish]
    rfl

theorem lowerArray_refunds (fits : canConvert env.repository d v nullable = true) :
    (lowerArray env d v nullable).Gives m (fun _ t => Registers (d.registers v) m t)
      (fun _ t => t.trampolines = m.trampolines) fun _ => True := by
  cases d with
  | array element mode form pointer =>
    have refunds := lower_refunds (m := m) fits
    rwa [lower_array, Action.gives_map] at refunds
  | _ => rfl

end ForeignCall
