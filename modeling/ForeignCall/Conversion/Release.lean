import ForeignCall.Conversion.Layout
import ForeignCall.Memory

/-!
Release of native values by ownership.

After a value crossed the boundary each of its parts belongs to one side: the block its slot points
at, the memory of container elements, and the structs and objects that script wrappers stand for.
What is held follows from the transfer and the direction, and a release pass frees exactly that.
-/

set_option autoImplicit false

namespace ForeignCall

/-- What a release pass frees of a value. -/
structure Holding where
  container : Bool
  elements : Bool
  references : Bool
  deriving DecidableEq, Repr, Inhabited

namespace Holding

/-- What the caller's side holds after a value crossed. A value going in was allocated for the call,
and what the callee does not take stays; of a value coming out, the transfer says what was handed
over. -/
def of (transfer : Transfer) (direction : Direction) : Holding :=
  match direction, transfer with
  | .input, .nothing => ⟨true, true, false⟩
  | .input, .container => ⟨false, true, false⟩
  | .input, .everything => ⟨false, false, false⟩
  | _, .nothing => ⟨false, false, true⟩
  | _, .container => ⟨true, false, true⟩
  | _, .everything => ⟨true, true, true⟩

def nested (own : Holding) : Holding := ⟨true, true, own.references⟩

def withoutReferences (own : Holding) : Holding := { own with references := false }

end Holding

def elementHoldsMemory (element : Descriptor) (references : Bool) : Bool :=
  match element with
  | .basic (.string _) _ | .basic .error _ | .array .. | .list .. => true
  | .named (.structured ..) _ _ => !element.isInlineStruct && references
  | .named .object _ _ => references
  | _ => false

def release (d : Descriptor) (slot : Slot) (own : Holding) (length : Option Nat) : LayoutM Unit :=
  if slot.isNull then pure ()
  else
    match d with
    | .basic (.string _) _ => do if own.container then Heap.act (Heap.free slot.toNat)
    | .basic .error _ => do if own.container then Heap.act (Heap.freeError slot.toNat)
    | .named (.structured _ byValue) _ pointer => do
      if own.container && ((byValue && !pointer) || own.references) then
        Heap.act (Heap.free slot.toNat)
    | .named .object _ _ => do
      if own.container && own.references then Heap.act (Heap.free slot.toNat)
    | .array element mode form pointer => do
      if own.elements && elementHoldsMemory element own.references then
        let count ← arrayLength (.array element mode form pointer) slot.toNat length
        forPositions (fun i => do
          let address ← Action.ofExcept (elementAddress slot.toNat i element.size)
          let item ← Heap.act (Heap.load address element.size)
          release element item own.nested none) count 0
      if own.container then Heap.act (Heap.free slot.toNat)
    | .list element _ _ =>
      forNodes (fun node => do
        if own.elements then
          let item ← Heap.act (Heap.load node 8)
          release element item own.nested none
        if own.container then Heap.act (Heap.free node)) chainBound slot.toNat
    | _ => pure ()

/-- Frees what is held of a value that crossed with a transfer and a direction. The length is for
arrays that do not carry their own. -/
def freeValue (d : Descriptor) (slot : Slot) (transfer : Transfer) (direction : Direction)
    (length : Option Nat) : LayoutM Unit :=
  release d slot (.of transfer direction) length

def freeLifted (d : Descriptor) (slot : Slot) (transfer : Transfer) (length : Option Nat) :
    LayoutM Unit :=
  release d slot (Holding.of transfer .output).withoutReferences length

abbrev ConversionM (α : Type) := MemoryM ConversionFault α

def freeRetained (plan : Plan) : List Slot → LayoutM Unit
  | [] => pure ()
  | slot :: rest => do
    freeValue plan.returnType slot plan.returnTransfer .input none
    freeRetained plan rest

/-- Takes a trampoline out of the table and frees the values it gave back to native code; says
whether there was one. -/
def releaseTrampoline (address : Nat) : ConversionM Bool := do
  match (← get).trampolines.get? address with
  | none => return false
  | some trampoline =>
    modify fun m =>
      { m with
        trampolines := m.trampolines.remove address
        journal := m.journal.push (.released address) }
    Memory.onHeap (freeRetained trampoline.plan trampoline.retained)
    return true

end ForeignCall
