import ForeignCall.Proofs.Conversion.Steps

/-!
What lowering does to the native state besides the heap: it registers script functions.

`Tracks P Q` says that `P` and `Q` follow a conversion that otherwise changes the heap only. `P` tells
whether something was registered on the way to a value, and `Q` is what is left after a failure.
-/

set_option autoImplicit false

namespace ForeignCall

/-- Whether lowering a value to the type registers a script function. -/
def Descriptor.registers (d : Descriptor) (v : Value) : Bool :=
  match d with
  | .named .callback _ _ =>
    match v with
    | .function _ => true
    | _ => false
  | .array element .. | .list element .. =>
    match v with
    | .array items => items.any element.registers
    | _ => false
  | _ => false

theorem registers_array {element : Descriptor} {mode : ArrayLength} {form : ArrayForm}
    {pointer : Bool} (v : Value) :
    (Descriptor.array element mode form pointer).registers v =
      (v.items?.getD []).any element.registers := by
  cases v <;> rfl

theorem registers_list {element : Descriptor} {singlyLinked pointer : Bool} (v : Value) :
    (Descriptor.list element singlyLinked pointer).registers v =
      (v.items?.getD []).any element.registers := by
  cases v <;> rfl

theorem registers_of_isNullish {d : Descriptor} {v : Value} (nullish : v.isNullish = true) :
    d.registers v = false := by
  unfold Descriptor.registers
  cases v <;> first | (split <;> rfl) | cases nullish

theorem registers_of_isInlineStruct {d : Descriptor} (stored : d.isInlineStruct = true)
    (v : Value) : d.registers v = false := by
  unfold Descriptor.isInlineStruct at stored
  split at stored
  · rfl
  · cases stored

/-- The type of the elements that all containers in the type come down to. -/
def Descriptor.leaf : Descriptor → Descriptor
  | .array element .. | .list element .. => element.leaf
  | d => d

structure Tracks (P : Bool → Memory → Memory → Prop) (Q : Memory → Memory → Prop) : Prop where
  heap : ∀ m h, P false m { m with heap := h }
  trans : ∀ {a b m t u}, P a m t → P b t u → P (a || b) m u
  fail : ∀ m h, Q m { m with heap := h }
  lost : ∀ {a m t u}, P a m t → Q t u → Q m u
  after : ∀ {m t} h, Q m t → Q m { t with heap := h }

variable {P : Bool → Memory → Memory → Prop} {Q : Memory → Memory → Prop}

def Tracked {α : Type} (P : Bool → Memory → Memory → Prop) (Q : Memory → Memory → Prop)
    (x : ConversionM α) (registers : Bool) : Prop :=
  ∀ m, x.Gives m (fun _ t => P registers m t) (fun _ t => Q m t) fun _ => True

section

variable {α β : Type} (tracks : Tracks P Q)

include tracks

theorem tracked_pure (a : α) : Tracked P Q (pure a : ConversionM α) false := fun m =>
  tracks.heap m m.heap

theorem tracked_fail (fault : ConversionFault) {registers : Bool} :
    Tracked P Q (Action.fail fault : ConversionM α) registers := fun m => tracks.fail m m.heap

theorem tracked_onHeap (x : LayoutM α) : Tracked P Q (Memory.onHeap x) false := by
  intro m
  rw [Action.gives_onHeap]
  exact (Action.gives_anyhow x m.heap).mono (fun _ h _ => tracks.heap m h) fun _ h _ =>
    tracks.fail m h

theorem tracked_touch (x : HeapM α) : Tracked P Q (Memory.touch x) false :=
  tracked_onHeap tracks (Heap.act x)

theorem Tracked.bind {x : ConversionM α} {f : α → ConversionM β} {a b : Bool}
    (first : Tracked P Q x a) (rest : ∀ r, Tracked P Q (f r) b) :
    Tracked P Q (x >>= f) (a || b) := by
  intro m
  rw [Action.gives_bind]
  refine (first m).mono (fun r t step => ?_) fun _ _ failed => failed
  exact (rest r t).mono (fun _ _ later => tracks.trans step later) fun _ _ later =>
    tracks.lost step later

theorem Tracked.result {x : ConversionM α} {f : α → β} {a : Bool} (first : Tracked P Q x a) :
    Tracked P Q (x >>= fun r => pure (f r)) a := by
  rw [← Bool.or_false a]
  exact first.bind tracks fun r => tracked_pure tracks (f r)

theorem tracked_expectNumber (d : Descriptor) (v : Value) :
    Tracked P Q (expectNumber d v) false := by
  unfold expectNumber
  split
  · exact tracked_pure tracks _
  · exact tracked_fail tracks _

theorem tracked_expectInstance (r : Repository) (d : Descriptor) (v : Value) :
    Tracked P Q (expectInstance r d v) false := by
  unfold expectInstance
  split
  · split
    · exact tracked_pure tracks _
    · exact tracked_fail tracks _
  · exact tracked_fail tracks _

theorem tracked_lowerInteger (d : Descriptor) (v : Value) (width : Nat) :
    Tracked P Q (lowerInteger d v width) false :=
  (tracked_expectNumber tracks d v).result tracks

theorem tracked_lowerInline (d : Descriptor) (size : Option Nat) (w : Wrapper) :
    Tracked P Q (lowerInline d size w) false := by
  unfold lowerInline
  split
  · exact tracked_fail tracks _
  · exact (tracked_touch tracks _).result tracks

theorem tracked_lowerChar (d : Descriptor) (v : Value) : Tracked P Q (lowerChar d v) false := by
  unfold lowerChar
  split
  · exact tracked_pure tracks _
  · split
    · exact tracked_pure tracks _
    · exact tracked_fail tracks _
  · exact tracked_fail tracks _

variable {element : Descriptor} {lowerItem : Value → ConversionM Slot} {registers : Value → Bool}

theorem tracked_packItems {put : Nat → Value → ConversionM Unit} {base position : Nat}
    (stored : ∀ address item, Tracked P Q (put address item) (registers item))
    (items : List Value) :
    Tracked P Q (packItems element base put position items) (items.any registers) := by
  induction items generalizing position with
  | nil => exact tracked_pure tracks _
  | cons item rest ih =>
    intro m
    rw [packItems, Action.gives_bind, Action.gives_attempt, List.any_cons]
    refine (stored _ item m).mono (fun _ t step => ?_) fun fault t failed => ?_
    · exact (ih t).mono (fun _ _ later => tracks.trans step later) fun _ _ later =>
        tracks.lost step later
    · dsimp only
      rw [Action.gives_bind, Action.gives_onHeap]
      refine (Action.gives_anyhow _ t.heap).mono (fun _ h _ => ?_) fun _ h _ => tracks.after h failed
      have kept := tracks.after h failed
      rw [Action.gives_bind, Action.gives_touch]
      exact (Action.gives_anyhow _ h).mono (fun _ g _ => tracks.after g kept) fun _ g _ =>
        tracks.after g kept

theorem tracked_putItem {r : Repository} (lowered : ∀ v, Tracked P Q (lowerItem v) (registers v))
    (bare : element.isInlineStruct = true → ∀ v, registers v = false) (address : Nat)
    (item : Value) : Tracked P Q (putItem r element lowerItem address item) (registers item) := by
  unfold putItem
  split
  · rename_i stored
    rw [bare stored item]
    exact (tracked_expectInstance tracks r element item).bind tracks fun _ =>
      (tracked_touch tracks _).bind tracks fun _ => tracked_touch tracks _
  · rw [← Bool.or_false (registers item)]
    exact (lowered item).bind tracks fun _ => tracked_touch tracks _

theorem tracked_packArray {r : Repository} {d : Descriptor} {mode : ArrayLength} {form : ArrayForm}
    (lowered : ∀ v, Tracked P Q (lowerItem v) (registers v))
    (bare : element.isInlineStruct = true → ∀ v, registers v = false) (v : Value)
    (nullable : Bool) :
    Tracked P Q (packArray r d element mode form lowerItem v nullable)
      ((v.items?.getD []).any registers) := by
  unfold packArray
  split
  · rename_i missing
    cases v <;> first | exact tracked_pure tracks _ | simp [Value.isNullish] at missing
  · split
    · split
      · exact tracked_fail tracks _
      · split
        · exact tracked_fail tracks _
        · rw [← Bool.false_or (List.any _ _)]
          apply (tracked_touch tracks _).bind tracks
          intro base
          exact (tracked_packItems tracks (tracked_putItem tracks lowered bare) _).result tracks
    · exact tracked_fail tracks _

theorem tracked_linkItems {d : Descriptor} {singlyLinked : Bool} {head : Nat}
    (lowered : ∀ v, Tracked P Q (lowerItem v) (registers v)) (items : List Value) :
    Tracked P Q (linkItems d singlyLinked lowerItem head items) (items.any registers) := by
  induction items generalizing head with
  | nil => exact tracked_pure tracks _
  | cons item rest ih =>
    intro m
    rw [linkItems, Action.gives_bind, Action.gives_attempt, List.any_cons]
    refine (lowered item m).mono (fun slot t step => ?_) fun fault t failed => ?_
    · dsimp only
      rw [Action.gives_bind, Action.gives_touch]
      refine (Action.gives_anyhow _ t.heap).mono (fun node h _ => ?_) fun _ h _ =>
        tracks.lost step (tracks.fail t h)
      have linked := tracks.trans step (tracks.heap t h)
      rw [Bool.or_false] at linked
      exact (ih _).mono (fun _ _ later => tracks.trans linked later) fun _ _ later =>
        tracks.lost linked later
    · dsimp only
      rw [Action.gives_bind, Action.gives_attempt, Action.gives_onHeap]
      exact (Action.gives_anyhow _ t.heap).mono (fun _ h _ => tracks.after h failed) fun _ h _ =>
        tracks.after h failed

theorem tracked_nullish {env : Environment} {d : Descriptor} {v : Value} {nullable : Bool}
    (nullish : (v.isNullish && !isBoolean d) = true) :
    Tracked P Q (lower env d v nullable) (d.registers v) := by
  rw [lower_nullish nullish, registers_of_isNullish (Bool.and_eq_true_iff.1 nullish).1]
  split
  · exact tracked_pure tracks _
  · exact tracked_fail tracks _

theorem tracked_basic {env : Environment} {type : BasicType} {pointer : Bool} {v : Value}
    {nullable : Bool} : Tracked P Q (lower env (.basic type pointer) v nullable) false := by
  by_cases nullish : (v.isNullish && !isBoolean (.basic type pointer)) = true
  · exact tracked_nullish tracks nullish
  · unfold lower
    rw [if_neg nullish]
    cases type with
    | boolean => exact tracked_pure tracks _
    | integer format => exact tracked_lowerInteger tracks _ _ _
    | gtype => exact tracked_lowerInteger tracks _ _ _
    | float | double => exact (tracked_expectNumber tracks _ _).result tracks
    | unichar => exact tracked_lowerChar tracks _ _
    | error => exact tracked_fail tracks _
    | string filename =>
      dsimp only
      split
      · exact (tracked_touch tracks _).result tracks
      · exact tracked_fail tracks _
    | void =>
      dsimp only
      split
      · exact tracked_pure tracks _
      · exact tracked_pure tracks _
      · exact tracked_fail tracks _
      · exact tracked_fail tracks _

end

/-- Lowering is followed if registering is, for the callback type that its containers come down
to. -/
theorem lower_tracked {env : Environment} {d : Descriptor} (tracks : Tracks P Q)
    (callback : ∀ name pointer, d.leaf = .named .callback name pointer → ∀ v nullable release,
      Tracked P Q (lowerCallback env (.named .callback name pointer) v nullable release)
        ((Descriptor.named .callback name pointer).registers v))
    (v : Value) (nullable : Bool) : Tracked P Q (lower env d v nullable) (d.registers v) := by
  induction d generalizing v nullable with
  | basic type pointer => exact tracked_basic tracks
  | named type name pointer =>
    by_cases nullish : (v.isNullish && !isBoolean (.named type name pointer)) = true
    · exact tracked_nullish tracks nullish
    · unfold lower
      rw [if_neg nullish]
      cases type with
      | enumeration storage flags => exact tracked_lowerInteger tracks _ _ _
      | callback => exact callback name pointer rfl v nullable _
      | object => exact (tracked_expectInstance tracks _ _ _).result tracks
      | structured size byValue =>
        apply (tracked_expectInstance tracks _ _ _).bind (b := false) tracks
        intro w
        split
        · exact tracked_lowerInline tracks _ _ _
        · exact tracked_pure tracks _
  | hash key value pointer =>
    by_cases nullish : (v.isNullish && !isBoolean (.hash key value pointer)) = true
    · exact tracked_nullish tracks nullish
    · unfold lower
      rw [if_neg nullish]
      exact tracked_fail tracks _
  | array element mode form pointer ih =>
    by_cases nullish : (v.isNullish && !isBoolean (.array element mode form pointer)) = true
    · exact tracked_nullish tracks nullish
    · rw [lower, if_neg nullish, registers_array]
      apply Tracked.result (f := Prod.fst) tracks
      exact tracked_packArray tracks (fun item => ih callback item false)
        registers_of_isInlineStruct v nullable
  | list element singlyLinked pointer ih =>
    by_cases nullish : (v.isNullish && !isBoolean (.list element singlyLinked pointer)) = true
    · exact tracked_nullish tracks nullish
    · rw [lower, if_neg nullish, registers_list]
      unfold buildList
      split
      · rename_i items
        rw [Value.items?, Option.getD_some, ← List.any_reverse]
        apply Tracked.result tracks
        exact tracked_linkItems tracks (fun item => ih callback item false) items.reverse
      · exact tracked_fail tracks _

end ForeignCall
