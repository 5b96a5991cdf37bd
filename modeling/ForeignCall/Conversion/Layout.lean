import ForeignCall.Error

/-!
Layout of containers in native memory: buffers of equal elements and chains of list nodes.

Element counts and node addresses come from native code and need not be sensible. Address arithmetic
is therefore checked, a scan for a terminator ends with the address space, and a walk along a chain
gives up after more nodes than there are addresses, because it has then come round to a node it saw
before and would go on for ever.
-/

set_option autoImplicit false

namespace ForeignCall

def elementAddress (base index size : Nat) : Except ConversionFault Nat :=
  if base + index * size < UInt64.size then .ok (base + index * size)
  else .error (.addressOverflow base index)

def nextOffset : Nat := 8

def previousOffset : Nat := 16

/-- Size of a list node: the element, the next node and, in a doubly linked list, the previous. -/
def nodeSize (singlyLinked : Bool) : Nat := if singlyLinked then 16 else 24

/-- More nodes than there are addresses. -/
def chainBound : Nat := UInt64.size + 1

abbrev LayoutM (α : Type) := Action ConversionFault Heap α

def nextNode (node : Nat) : LayoutM Nat := do
  let address ← Action.ofExcept (elementAddress node 1 nextOffset)
  Heap.act (Heap.loadPointer address)

def scanTerminator (size base : Nat) : Nat → Nat → LayoutM Nat
  | 0, _ => Action.endless
  | fuel + 1, count => do
    let address ← Action.ofExcept (elementAddress base count size)
    let bytes ← Heap.act (Heap.read address size)
    if bytes.all (· == 0) then return count
    else scanTerminator size base fuel (count + 1)

/-- Number of elements of a zero-terminated array. Each element but an empty one, which ends the
scan at once, takes at least one byte of the address space. -/
def terminatedLength (element : Descriptor) (base : Nat) : LayoutM Nat := do
  let steps := (← get).size + 1
  scanTerminator element.size base steps 0

/-- Element count of a native array: the one given, else the declared one, else what a scan for the
terminator finds. -/
def arrayLength (d : Descriptor) (base : Nat) (given : Option Nat) : LayoutM Nat :=
  match d with
  | .array element mode _ _ =>
    match given, mode with
    | some count, _ => pure count
    | none, .fixed count => pure count
    | none, .zeroTerminated => terminatedLength element base
    | none, .parameter _ | none, .unspecified => Action.fail (.lengthRequired d.displayName)
  | _ => Action.fail (.unsupported d.displayName)

/-- The array length an integer slot holds; a negative one means empty. -/
def lengthValue (d : Descriptor) (slot : Slot) : Nat :=
  match d with
  | .basic (.integer format) _ | .named (.enumeration format _) _ _ =>
    (slot.asInt format.width.bits format.signed).toNat
  | _ => slot.toNat

def forPositions (step : Nat → LayoutM Unit) : Nat → Nat → LayoutM Unit
  | 0, _ => pure ()
  | count + 1, position => do
    step position
    forPositions step count (position + 1)

/-- Runs a step for every node of a chain. The next address is read before the step, which may free
the node. -/
def forNodes (step : Nat → LayoutM Unit) : Nat → Nat → LayoutM Unit
  | 0, _ => Action.endless
  | fuel + 1, node =>
    if node = 0 then pure ()
    else do
      let next ← nextNode node
      step node
      forNodes step fuel next

end ForeignCall
