import ForeignCall.Heap

/-!
The operations native code has on the heap, as data.

A program of native code asks for operations one by one, and a history of a heap is a list of them.
-/

set_option autoImplicit false

namespace ForeignCall

inductive HeapOperation where
  | alloc (size align : Nat)
  | allocBytes (bytes : List UInt8) (align : Nat)
  | free (address : Nat)
  | read (address length : Nat)
  | write (address : Nat) (bytes : List UInt8)
  | load (address size : Nat)
  | store (address size : Nat) (value : Slot)
  | duplicate (text : String)
  | readString (address : Nat)
  | copyBlock (address size : Nat)
  | newError (record : ErrorRecord)
  | readError (address : Nat)
  | freeError (address : Nat)
  deriving DecidableEq, Repr

namespace HeapOperation

abbrev Answer : HeapOperation → Type
  | .alloc .. | .allocBytes .. | .duplicate .. | .copyBlock .. | .newError .. => Nat
  | .free .. | .write .. | .store .. | .freeError .. => Unit
  | .read .. => List UInt8
  | .load .. => Slot
  | .readString .. => String
  | .readError .. => ErrorRecord

def run : (op : HeapOperation) → HeapM op.Answer
  | .alloc size align => Heap.alloc size align
  | .allocBytes bytes align => Heap.allocBytes bytes align
  | .free address => Heap.free address
  | .read address length => Heap.read address length
  | .write address bytes => Heap.write address bytes
  | .load address size => Heap.load address size
  | .store address size value => Heap.store address size value
  | .duplicate text => Heap.duplicate text
  | .readString address => Heap.readString address
  | .copyBlock address size => Heap.copyBlock address size
  | .newError record => Heap.newError record
  | .readError address => Heap.readError address
  | .freeError address => Heap.freeError address

/-- The heap after an operation, whether it succeeded or not. -/
def apply (h : Heap) (op : HeapOperation) : Heap :=
  match op.run h with
  | .ok _ h => h
  | .error _ h => h

end HeapOperation

def Heap.after (h : Heap) (history : List HeapOperation) : Heap :=
  history.foldl HeapOperation.apply h

end ForeignCall
