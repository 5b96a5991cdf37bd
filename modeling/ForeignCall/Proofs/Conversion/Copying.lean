import ForeignCall.Conversion.Lift
import ForeignCall.Proofs.Conversion.Clearing
import ForeignCall.Proofs.Wrappers

/-!
What lifting does to the native state.

It reads, and all that it adds is a copy of a struct here and there and wrappers. However it ends, no
block is gone and no byte that was there is changed. Where no struct is copied, the heap stays as it is.
-/

set_option autoImplicit false

namespace ForeignCall

open ForeignCall.Action

/-- Relations that hold across reads of the heap and the making of wrappers. -/
structure Wrapping (R : Memory → Memory → Prop) : Prop extends Composes R where
  wrappers : ∀ (m : Memory) (wrappers : WrapperTable), m.wrappers.Wraps wrappers →
    R m { m with wrappers := wrappers }

/-- The relation holds where the heap gains blocks and is otherwise the same. -/
def Growing (R : Memory → Memory → Prop) : Prop :=
  ∀ (m : Memory) (h : Heap) (copies : List Block), m.heap.Grows h copies → R m { m with heap := h }

/-- Relations that hold across the steps of lifting. -/
structure Copies (R : Memory → Memory → Prop) : Prop extends Wrapping R where
  grows : Growing R

/-- Nothing but copies of structs was made. -/
def Memory.Copied (m t : Memory) : Prop :=
  (∃ copies, m.heap.Grows t.heap copies) ∧ t.trampolines = m.trampolines

theorem Memory.copies_copied : Copies Memory.Copied where
  refl m := ⟨⟨[], .refl _⟩, rfl⟩
  trans := by
    rintro m t u ⟨⟨copies, grows⟩, same⟩ ⟨⟨more, grows'⟩, same'⟩
    exact ⟨⟨copies ++ more, grows.trans grows'⟩, same'.trans same⟩
  grows m h copies grows := ⟨⟨copies, grows⟩, rfl⟩
  wrappers m wrappers _ := ⟨⟨[], .refl _⟩, rfl⟩

/-- Whether lifting a slot of the type may copy a struct. -/
def Descriptor.copies (copy : Bool) : Descriptor → Bool
  | .named (.structured size byValue) name pointer =>
    copy || (Descriptor.named (.structured size byValue) name pointer).isInlineStruct
  | .array element _ _ _ | .list element _ _ => element.copies copy
  | _ => false

theorem Descriptor.copies_of_isInlineStruct {d : Descriptor} (inline : d.isInlineStruct = true)
    (copy : Bool) : d.copies copy = true := by
  cases d with
  | named type name pointer =>
    cases type with
    | structured size byValue => rw [copies, inline, Bool.or_true]
    | _ => cases inline
  | _ => cases inline

variable {R : Memory → Memory → Prop} (c : Wrapping R)

include c

section Steps

variable {ε α : Type}

theorem Wrapping.onHeap {x : Action ε Heap α} (reads : x.Across fun h g => g = h) :
    (Memory.onHeap x).Across R := by
  intro m
  rw [gives_onHeap]
  refine (reads m.heap).mono ?_ ?_
  · rintro _ _ rfl
    exact c.refl m
  · rintro _ _ rfl
    exact c.refl m

theorem Wrapping.load (address size : Nat) :
    (Memory.touch (Heap.load address size) : MemoryM ConversionFault Slot).Across R :=
  c.onHeap (across_load Heap.composes_same address size).mapError

omit c in
theorem Growing.copyBlock (grows : Growing R) (address size : Nat) :
    (Memory.touch (Heap.copyBlock address size) : MemoryM ConversionFault Nat).Across R := by
  intro m
  rw [gives_touch]
  refine Heap.gives_copyBlock.partly.mono ?_ fun _ h growth => grows m h _ growth
  rintro a h ⟨n, growth⟩
  exact grows m h _ growth

theorem Wrapping.wrap (held : List Value) (address : Nat) (typeName : String) (adopts : Bool) :
    (Memory.wrap held address typeName adopts : MemoryM ε Wrapper).Across R := fun m =>
  c.wrappers m _ (m.wrappers.wraps_wrap held address typeName adopts)

end Steps

theorem across_liftInstance (held : List Value) (d : Descriptor) (address : Nat) (copy : Bool)
    (grows : d.copies copy = true → Growing R) : (liftInstance held d address copy).Across R := by
  have s := c.toComposes
  unfold liftInstance
  split
  · exact across_pure s _
  · refine (across_get s).bind s fun m => ?_
    split
    · exact across_pure s _
    · split
      · split
        · rename_i copied
          split
          · exact across_fail s _
          · refine ((grows copied).copyBlock _ _).bind s fun copied => ?_
            exact (c.wrap _ _ _ _).bind s fun _ => across_pure s _
        · exact (c.wrap _ _ _ _).bind s fun _ => across_pure s _
      · exact (c.wrap _ _ _ _).bind s fun _ => across_pure s _

theorem across_liftChar (code : Nat) : (liftChar code).Across R := by
  unfold liftChar
  split
  · exact across_pure c.toComposes _
  · exact across_fail c.toComposes _

theorem across_liftCallback (address : Nat) : (liftCallback address).Across R := by
  have s := c.toComposes
  unfold liftCallback
  split
  · exact across_pure s _
  · refine (across_get s).bind s fun m => ?_
    split
    · exact across_pure s _
    · exact across_fail s _

theorem across_liftPositions {liftAt : List Value → Nat → ConversionM Value}
    (lifts : ∀ held position, (liftAt held position).Across R) (held : List Value)
    (count position : Nat) : (liftPositions liftAt held count position).Across R := by
  have s := c.toComposes
  induction count generalizing held position with
  | zero => exact across_pure s _
  | succ count ih =>
    refine (lifts held position).bind s fun v => ?_
    exact (ih (v :: held) (position + 1)).bind s fun _ => across_pure s _

theorem across_liftNodes {liftItem : List Value → Slot → ConversionM Value}
    (lifts : ∀ held item, (liftItem held item).Across R) (held : List Value) (fuel node : Nat) :
    (liftNodes liftItem held fuel node).Across R := by
  have s := c.toComposes
  induction fuel generalizing held node with
  | zero => exact across_endless
  | succ fuel ih =>
    unfold liftNodes
    split
    · exact across_pure s _
    · refine (c.load node 8).bind s fun item => (lifts held item).bind s fun v => ?_
      refine (c.onHeap (across_nextNode Heap.composes_same node)).bind s fun next => ?_
      exact (ih (v :: held) next).bind s fun _ => across_pure s _

theorem across_liftBuffer {liftItem : List Value → Slot → ConversionM Value}
    (lifts : ∀ held item, (liftItem held item).Across R) (held : List Value)
    (element : Descriptor) (base count : Nat) (grows : element.isInlineStruct = true → Growing R) :
    (liftBuffer liftItem held element base count).Across R := by
  have s := c.toComposes
  refine (across_liftPositions c (fun held position => ?_) _ _ _).bind s fun _ => across_pure s _
  refine (across_ofExcept s _).bind s fun address => ?_
  split
  · rename_i inline
    exact across_liftInstance c _ _ _ _ fun _ => grows inline
  · exact (c.load _ _).bind s fun _ => lifts _ _

/-- Only where the type has a struct that is copied does lifting do more to the heap than read it. -/
theorem across_lift_of_copies (held : List Value) (d : Descriptor) (slot : Slot)
    (length : Option Nat) (copy : Bool) (grows : d.copies copy = true → Growing R) :
    (lift held d slot length copy).Across R := by
  have s := c.toComposes
  induction d generalizing held slot length with
  | basic type pointer =>
    cases type with
    | string filename =>
      rw [lift]
      split
      · exact across_pure s _
      · have reads := (across_readString Heap.composes_same slot.toNat).mapError (f := ConversionFault.heap)
        exact (c.onHeap reads).bind s fun _ => across_pure s _
    | unichar => exact across_liftChar c _
    | error => exact across_fail s _
    | _ => exact across_pure s _
  | named type name pointer =>
    cases type with
    | enumeration storage flags => exact across_pure s _
    | callback => exact across_liftCallback c _
    | _ => exact across_liftInstance c _ _ _ _ grows
  | hash key value pointer => exact across_fail s _
  | array element mode form pointer ih =>
    rw [lift]
    split
    · exact across_pure s _
    · refine (c.onHeap (across_arrayLength Heap.composes_same _ _ _)).bind s fun count => ?_
      refine across_liftBuffer c (fun held item => ih held item none grows) _ _ _ _ fun inline => ?_
      exact grows (Descriptor.copies_of_isInlineStruct inline copy)
  | list element singlyLinked pointer ih =>
    rw [lift]
    refine (across_liftNodes c (fun held item => ih held item none grows) _ _ _).bind s fun _ => ?_
    exact across_pure s _

omit c in
theorem across_lift (c : Copies R) (held : List Value) (d : Descriptor) (slot : Slot)
    (length : Option Nat) (copy : Bool) : (lift held d slot length copy).Across R :=
  across_lift_of_copies c.toWrapping held d slot length copy fun _ => c.grows

end ForeignCall
