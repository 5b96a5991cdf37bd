import ForeignCall.Proofs.Conversion.Copying
import ForeignCall.Proofs.Conversion.Scanning

/-!
When lifting is halted.

Reading the heap always comes to an end, also the search for the terminator of an array. So lifting is
halted in two ways only: it walks along a chain that is closed into a ring, or it copies a struct for
which no address is left.
-/

set_option autoImplicit false

namespace ForeignCall

open ForeignCall.Action

namespace Action

variable {ε ε' σ α β : Type} {P Q : Halt → Prop} {x : Action ε σ α}

/-- If the action is halted, then as `P` says. -/
def Halting (P : Halt → Prop) (x : Action ε σ α) : Prop :=
  ∀ s, x.Gives s (fun _ _ => True) (fun _ _ => True) P

theorem Halting.mono (halting : x.Halting P) (weaker : ∀ h, P h → Q h) : x.Halting Q :=
  fun s => (halting s).mono_halted weaker

theorem halting_pure (a : α) : (pure a : Action ε σ α).Halting P := fun _ => trivial

theorem halting_fail (e : ε) : (fail e : Action ε σ α).Halting P := fun _ => trivial

theorem halting_get : (get : Action ε σ σ).Halting P := fun _ => trivial

theorem halting_ofExcept (r : Except ε α) : (ofExcept r : Action ε σ α).Halting P := by
  cases r with
  | ok a => exact halting_pure a
  | error e => exact halting_fail e

theorem Halting.bind {f : α → Action ε σ β} (first : x.Halting P) (rest : ∀ a, (f a).Halting P) :
    (x >>= f).Halting P := by
  intro s
  rw [gives_bind]
  exact (first s).mono (fun a t _ => rest a t) fun _ _ _ => trivial

theorem Halting.mapError {f : ε → ε'} (halting : x.Halting P) : (mapError f x).Halting P := by
  intro s
  rw [gives_mapError]
  exact halting s

theorem Halting.onHeap {x : Action ε Heap α} (halting : x.Halting P) :
    (Memory.onHeap x).Halting P := by
  intro m
  rw [gives_onHeap]
  exact halting m.heap

end Action

variable {P : Halt → Prop} {held : List Value} {copy : Bool}

/-! ### Reading -/

namespace Heap

theorem halting_read (address length : Nat) : (read address length).Halting P := by
  intro h
  by_cases within : h.Accessible address length
  · exact gives_of_ok (read_eq within) trivial
  · simp only [Gives, read, if_neg within]

theorem halting_load (address size : Nat) : (load address size).Halting P :=
  (halting_read address size).bind fun _ => halting_pure _

theorem halting_loadPointer (address : Nat) : (loadPointer address).Halting P :=
  (halting_load address 8).bind fun _ => halting_pure _

theorem halting_readString (address : Nat) : (readString address).Halting P := by
  intro h
  unfold Gives readString
  by_cases outside : address < guardSize ∨ h.size < address
  · rw [if_pos outside]
    trivial
  · rw [if_neg outside]
    dsimp only
    split_ifs
    · trivial
    · cases String.fromUTF8? _ <;> trivial

theorem halting_copyBlock (address size : Nat) :
    (copyBlock address size).Halting fun h => h = .exhausted := fun _ =>
  gives_copyBlock.mono (fun _ _ _ => trivial) fun _ _ _ => trivial

end Heap

theorem halting_nextNode (node : Nat) : (nextNode node).Halting P :=
  (halting_ofExcept _).bind fun address => (Heap.halting_loadPointer address).mapError

theorem halting_terminatedLength (element : Descriptor) (base : Nat) :
    (terminatedLength element base).Halting P := by
  intro h
  refine ((gives_outcome _ h).mono (fun _ _ _ => trivial) fun _ _ _ => trivial).mono_halted ?_
  rintro a ⟨t, halted⟩
  exact absurd halted (terminatedLength_ne_halt a)

theorem halting_arrayLength (d : Descriptor) (base : Nat) (given : Option Nat) :
    (arrayLength d base given).Halting P := by
  intro h
  unfold arrayLength
  split
  · split
    · trivial
    · trivial
    · exact halting_terminatedLength _ _ h
    · trivial
    · trivial
  · trivial

/-! ### Lifting -/

/-- Whether a value of the type has a list in it. -/
def Descriptor.chained : Descriptor → Bool
  | .list .. => true
  | .array element _ _ _ => element.chained
  | _ => false

/-- The ways in which lifting a slot of the type can be halted. -/
def Descriptor.HaltsBy (d : Descriptor) (copy : Bool) : Halt → Prop
  | .endless => d.chained = true
  | .exhausted => d.copies copy = true

section Elements

variable {element : Descriptor} {copy pointer : Bool} {h : Halt}

theorem Descriptor.HaltsBy.array (halts : element.HaltsBy copy h) (mode : ArrayLength)
    (form : ArrayForm) : (Descriptor.array element mode form pointer).HaltsBy copy h := by
  cases h <;> exact halts

theorem Descriptor.HaltsBy.list (halts : element.HaltsBy copy h) (singlyLinked : Bool) :
    (Descriptor.list element singlyLinked pointer).HaltsBy copy h := by
  cases h with
  | endless => rfl
  | exhausted => exact halts

end Elements

theorem halting_wrap (address : Nat) (typeName : String) (adopts : Bool) :
    (Memory.wrap held address typeName adopts : ConversionM Wrapper).Halting P := fun _ => trivial

theorem halting_liftInstance (d : Descriptor) (address : Nat)
    (copies : d.copies copy = true → P .exhausted) : (liftInstance held d address copy).Halting P := by
  unfold liftInstance
  split
  · exact halting_pure _
  · refine halting_get.bind fun m => ?_
    split
    · exact halting_pure _
    · split
      · split
        · rename_i copied
          split
          · exact halting_fail _
          · refine Halting.bind ?_ fun address =>
              (halting_wrap _ _ _).bind fun _ => halting_pure _
            refine (Heap.halting_copyBlock _ _).mapError.onHeap.mono ?_
            rintro _ rfl
            exact copies copied
        · exact (halting_wrap _ _ _).bind fun _ => halting_pure _
      · exact (halting_wrap _ _ _).bind fun _ => halting_pure _

theorem halting_liftPositions {liftAt : List Value → Nat → ConversionM Value}
    (lifts : ∀ held position, (liftAt held position).Halting P) (count position : Nat) :
    (liftPositions liftAt held count position).Halting P := by
  induction count generalizing held position with
  | zero => exact halting_pure _
  | succ count ih =>
    refine (lifts held position).bind fun v => ?_
    exact (ih (position + 1)).bind fun _ => halting_pure _

theorem halting_liftNodes {liftItem : List Value → Slot → ConversionM Value}
    (lifts : ∀ held item, (liftItem held item).Halting P) (endless : P .endless) (fuel node : Nat) :
    (liftNodes liftItem held fuel node).Halting P := by
  induction fuel generalizing held node with
  | zero => exact fun _ => endless
  | succ fuel ih =>
    unfold liftNodes
    split
    · exact halting_pure _
    · refine (Heap.halting_load node 8).mapError.onHeap.bind fun item => ?_
      refine (lifts held item).bind fun v => (halting_nextNode node).onHeap.bind fun next => ?_
      exact (ih next).bind fun _ => halting_pure _

theorem halting_liftBuffer {liftItem : List Value → Slot → ConversionM Value}
    (lifts : ∀ held item, (liftItem held item).Halting P) (element : Descriptor)
    (inline : element.isInlineStruct = true → P .exhausted) (base count : Nat) :
    (liftBuffer liftItem held element base count).Halting P := by
  refine (halting_liftPositions (fun held position => ?_) _ _).bind fun _ => halting_pure _
  refine (halting_ofExcept _).bind fun address => ?_
  split
  · rename_i here
    exact halting_liftInstance _ _ fun _ => inline here
  · exact (Heap.halting_load _ _).mapError.onHeap.bind fun _ => lifts _ _

theorem lift_halting (d : Descriptor) (slot : Slot) (length : Option Nat) :
    (lift held d slot length copy).Halting (d.HaltsBy copy) := by
  induction d generalizing held slot length with
  | basic type pointer =>
    cases type with
    | string filename =>
      rw [lift]
      split
      · exact halting_pure _
      · exact (Heap.halting_readString _).mapError.onHeap.bind fun _ => halting_pure _
    | unichar =>
      rw [lift, liftChar]
      split
      · exact halting_pure _
      · exact halting_fail _
    | _ => exact fun _ => trivial
  | named type name pointer =>
    cases type with
    | enumeration storage flags => exact halting_pure _
    | callback =>
      rw [lift, liftCallback]
      split
      · exact halting_pure _
      · refine halting_get.bind fun m => ?_
        split
        · exact halting_pure _
        · exact halting_fail _
    | _ => exact halting_liftInstance _ _ id
  | hash key value pointer => exact halting_fail _
  | array element mode form pointer ih =>
    rw [lift]
    split
    · exact halting_pure _
    · refine (halting_arrayLength _ _ _).onHeap.bind fun count => ?_
      have element_ends (held : List Value) (item : Slot) :
          (lift held element item none copy).Halting
            ((Descriptor.array element mode form pointer).HaltsBy copy) :=
        (ih item none).mono fun _ halts => halts.array mode form
      exact halting_liftBuffer element_ends element
        (fun inline => Descriptor.copies_of_isInlineStruct inline copy) _ _
  | list element singlyLinked pointer ih =>
    rw [lift]
    refine Halting.bind ?_ fun _ => halting_pure _
    have element_ends (held : List Value) (item : Slot) :
        (lift held element item none copy).Halting
          ((Descriptor.list element singlyLinked pointer).HaltsBy copy) :=
      (ih item none).mono fun _ halts => halts.list singlyLinked
    exact halting_liftNodes element_ends rfl _ _

end ForeignCall
