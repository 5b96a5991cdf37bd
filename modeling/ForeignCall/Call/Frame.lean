import ForeignCall.Call.Session

/-!
Call frames: what one call keeps while it runs.

A frame knows every lowered input, every cell and every trampoline that the call made for itself, so
that they can be released however the call ends. The steps of a call change the frame and the native
state, and a failing step leaves both as far as it got.
-/

set_option autoImplicit false

namespace ForeignCall

inductive Cell where
  | value (address : Nat)
  /-- A struct block of the caller that the callee fills in. -/
  | block (address : Nat)
  deriving DecidableEq, Repr

def Cell.address : Cell → Nat
  | .value address | .block address => address

structure Lowered where
  position : Nat
  slot : Slot
  count : Option Nat
  deriving DecidableEq, Repr

structure Frame where
  slots : List Slot
  inputs : List Lowered := []
  cells : List (Option Cell)
  /-- Element counts for length arguments; the latest for a position comes first. -/
  counts : List (Nat × Nat) := []
  /-- Slots for user data and destroy notifiers; the latest for a position comes first. -/
  tokens : List (Nat × Slot) := []
  callScoped : List Nat := []
  errorCell : Option Nat := none
  outputs : List Value := []

namespace Frame

def start (count : Nat) : Frame :=
  { slots := List.replicate count .null, cells := List.replicate count none }

def slot (f : Frame) (position : Nat) : Slot := f.slots.getD position .null

def cell? (f : Frame) (position : Nat) : Option Cell := (f.cells[position]?).join

end Frame

structure Scratch where
  frame : Frame
  memory : Memory

abbrev FrameM (α : Type) := Action CallError Scratch α

namespace FrameM

variable {ε α : Type}

def onMemory (x : MemoryM ε α) : Action ε Scratch α := fun
  | ⟨frame, memory⟩ =>
    match x memory with
    | .ok a memory => .ok a ⟨frame, memory⟩
    | .error e memory => .error e ⟨frame, memory⟩

def convert (x : ConversionM α) : FrameM α := onMemory (Action.mapError .conversion x)

def touch (x : HeapM α) : FrameM α := onMemory (Memory.touch x)

def frame : FrameM Frame := do return (← get).frame

def modifyFrame (f : Frame → Frame) : FrameM Unit := modify fun s => { s with frame := f s.frame }

end FrameM

def Session.within {σ α : Type} (f : Frame) (x : FrameM α) :
    SessionM σ (Except CallError α × Frame) := fun
  | ⟨memory, bindings, host⟩ =>
    match x ⟨f, memory⟩ with
    | .ok a ⟨f, memory⟩ => .ok (.ok a, f) ⟨memory, bindings, host⟩
    | .error (.error e) ⟨f, memory⟩ => .ok (.error e, f) ⟨memory, bindings, host⟩
    | .error (.halt h) ⟨_, memory⟩ => .error (.halt h) ⟨memory, bindings, host⟩

end ForeignCall
