import ForeignCall.Action
import ForeignCall.Slot
import Std.Data.TreeMap
import Std.Data.TreeSet

/-!
The native heap: one growing run of bytes with a record of every block handed out.

Blocks are taken from the end and no address is used twice, so a leak is a block that stays live
and a second free is told apart from a free of something that never was a block. The first sixteen
bytes belong to no block: zero is the null pointer and small integers are never valid pointers.
Reads and writes are checked against the address space only, not against blocks, as they are for
native code. An allocation that would need more bytes than an object can have is halted.
-/

set_option autoImplicit false

namespace ForeignCall

inductive HeapFault where
  | invalidPointer (address length heapSize : Nat)
  | doubleFree (address : Nat)
  | notAllocated (address : Nat)
  | invalidUtf8 (address : Nat)
  | unterminated (address : Nat)
  deriving DecidableEq, Repr

def HeapFault.message : HeapFault → String
  | .invalidPointer address length heapSize =>
    s!"Invalid native pointer {hexAddress address} (length {length}, heap size {heapSize})"
  | .doubleFree address => s!"Double free of {hexAddress address}"
  | .notAllocated address => s!"Free of {hexAddress address}, which was never allocated"
  | .invalidUtf8 address => s!"Invalid UTF-8 in native string at {hexAddress address}"
  | .unterminated address => s!"Unterminated native string at {hexAddress address}"

/-- A native error record: the content of an error block. -/
structure ErrorRecord where
  domain : UInt32
  code : Int32
  message : String
  deriving DecidableEq, Repr

def alignUp (value align : Nat) : Nat :=
  let mask := max align 1 - 1
  value + mask - ((value + mask) &&& mask)

theorem le_alignUp (value align : Nat) : value ≤ alignUp value align := by
  have masked : (value + (max align 1 - 1)) &&& (max align 1 - 1) ≤ max align 1 - 1 :=
    Nat.and_le_right
  simp only [alignUp]
  omega

def overwrite (memory : Array UInt8) (start : Nat) : List UInt8 → Array UInt8
  | [] => memory
  | b :: rest => overwrite (memory.setIfInBounds start b) (start + 1) rest

theorem size_overwrite (memory : Array UInt8) (start : Nat) (bytes : List UInt8) :
    (overwrite memory start bytes).size = memory.size := by
  induction bytes generalizing memory start with
  | nil => rfl
  | cons b rest ih => simp [overwrite, ih]

namespace Heap

/-- Addresses below this one are in no block. -/
def guardSize : Nat := 16

def errorSize : Nat := 16

/-- The most bytes an address space can have: half of what a word counts. -/
def capacity : Nat := UInt64.size / 2 - 1

end Heap

structure Heap where
  bytes : Array UInt8
  /-- Sizes of the blocks that are allocated and not yet freed, by address. -/
  live : Std.TreeMap Nat Nat
  freed : Std.TreeSet Nat
  guarded : Heap.guardSize ≤ bytes.size
  bounded : bytes.size ≤ Heap.capacity
  live_inside : ∀ a n : Nat, live[a]? = some n → Heap.guardSize ≤ a ∧ 0 < n ∧ a + n ≤ bytes.size
  live_apart : ∀ a n b k : Nat, live[a]? = some n → live[b]? = some k → a < b → a + n ≤ b
  freed_inside : ∀ a : Nat, a ∈ freed → Heap.guardSize ≤ a ∧ a < bytes.size ∧ live[a]? = none

abbrev HeapM (α : Type) := Action HeapFault Heap α

namespace Heap

def empty : Heap where
  bytes := Array.replicate guardSize 0
  live := ∅
  freed := ∅
  guarded := by simp
  bounded := by simp [guardSize, capacity, UInt64.size]
  live_inside := by simp
  live_apart := by simp
  freed_inside := by simp

/-- Bytes of address space handed out so far. -/
def size (h : Heap) : Nat := h.bytes.size

def liveCount (h : Heap) : Nat := h.live.size

def isLive (h : Heap) (address : Nat) : Bool := h.live.contains address

def blockSize? (h : Heap) (address : Nat) : Option Nat := h.live[address]?

def Accessible (h : Heap) (address length : Nat) : Prop :=
  guardSize ≤ address ∧ address + length ≤ h.size

instance (h : Heap) (address length : Nat) : Decidable (h.Accessible address length) :=
  inferInstanceAs (Decidable (_ ∧ _))

def extend (h : Heap) (start size : Nat) (after : h.size ≤ start) (positive : 0 < size)
    (room : start + size ≤ capacity) : Heap where
  bytes := h.bytes ++ Array.replicate (start + size - h.bytes.size) 0
  live := h.live.insert start size
  freed := h.freed
  guarded := Nat.le_trans h.guarded (by simp)
  bounded := by
    simp only [Heap.size] at after
    simp only [Array.size_append, Array.size_replicate]
    omega
  live_inside := by
    intro a n found
    have guarded := h.guarded
    simp only [Heap.size] at after
    simp only [Array.size_append, Array.size_replicate]
    rw [Std.TreeMap.getElem?_insert] at found
    split at found
    · rename_i same
      have := Std.LawfulEqCmp.eq_of_compare same
      simp only [Option.some.injEq] at found
      omega
    · have := h.live_inside a n found
      omega
  live_apart := by
    intro a n b k first second before
    simp only [Heap.size] at after
    rw [Std.TreeMap.getElem?_insert] at first second
    split at first <;> split at second <;> rename_i sameA sameB
    · have := Std.LawfulEqCmp.eq_of_compare sameA
      have := Std.LawfulEqCmp.eq_of_compare sameB
      omega
    · have := Std.LawfulEqCmp.eq_of_compare sameA
      have := h.live_inside b k second
      omega
    · have := Std.LawfulEqCmp.eq_of_compare sameB
      have := h.live_inside a n first
      omega
    · exact h.live_apart a n b k first second before
  freed_inside := by
    intro a gone
    simp only [Heap.size] at after
    have inside := h.freed_inside a gone
    refine ⟨inside.1, by simp only [Array.size_append]; omega, ?_⟩
    rw [Std.TreeMap.getElem?_insert]
    split
    · rename_i same
      have := Std.LawfulEqCmp.eq_of_compare same
      omega
    · exact inside.2.2

/-- Allocates a zeroed block at the next aligned address; a request for nothing gets one byte. -/
def alloc (size align : Nat) : HeapM Nat := fun h =>
  let start := alignUp h.size align
  if room : start + max size 1 ≤ capacity then
    .ok start (h.extend start (max size 1) (le_alignUp h.size align) (by omega) room)
  else .error (.halt .exhausted) h

def drop (h : Heap) (address : Nat) (live : h.live.contains address) : Heap where
  bytes := h.bytes
  live := h.live.erase address
  freed := h.freed.insert address
  guarded := h.guarded
  bounded := h.bounded
  live_inside := by
    intro a n found
    rw [Std.TreeMap.getElem?_erase] at found
    split at found
    · cases found
    · exact h.live_inside a n found
  live_apart := by
    intro a n b k first second
    rw [Std.TreeMap.getElem?_erase] at first second
    split at first
    · cases first
    · split at second
      · cases second
      · exact h.live_apart a n b k first second
  freed_inside := by
    intro a gone
    rw [Std.TreeMap.getElem?_erase]
    rw [Std.TreeSet.mem_insert] at gone
    split
    · rename_i same
      have := Std.LawfulEqCmp.eq_of_compare same
      subst this
      have inside := h.live_inside address h.live[address] (by simp)
      exact ⟨inside.1, by omega, rfl⟩
    · rename_i other
      exact h.freed_inside a (gone.resolve_left other)

/-- Frees a block. Freeing null does nothing. -/
def free (address : Nat) : HeapM Unit := fun h =>
  if address = 0 then .ok () h
  else if live : h.live.contains address then .ok () (h.drop address live)
  else if h.freed.contains address then .error (.error (.doubleFree address)) h
  else .error (.error (.notAllocated address)) h

def read (address length : Nat) : HeapM (List UInt8) := fun h =>
  if h.Accessible address length then
    .ok (h.bytes.extract address (address + length)).toList h
  else .error (.error (.invalidPointer address length h.size)) h

def overwritten (h : Heap) (address : Nat) (bytes : List UInt8) : Heap where
  bytes := overwrite h.bytes address bytes
  live := h.live
  freed := h.freed
  guarded := by rw [size_overwrite]; exact h.guarded
  bounded := by rw [size_overwrite]; exact h.bounded
  live_inside := by rw [size_overwrite]; exact h.live_inside
  live_apart := h.live_apart
  freed_inside := by rw [size_overwrite]; exact h.freed_inside

def write (address : Nat) (bytes : List UInt8) : HeapM Unit := fun h =>
  if h.Accessible address bytes.length then .ok () (h.overwritten address bytes)
  else .error (.error (.invalidPointer address bytes.length h.size)) h

def load (address size : Nat) : HeapM Slot := do
  return .ofBytes (← read address size)

/-- Stores the low `size` bytes of a value, at most eight. -/
def store (address size : Nat) (value : Slot) : HeapM Unit :=
  write address (value.toBytes size)

def loadPointer (address : Nat) : HeapM Nat := do
  return (← load address 8).toNat

def storePointer (address value : Nat) : HeapM Unit :=
  store address 8 (.ofNat value)

def allocBytes (bytes : List UInt8) (align : Nat) : HeapM Nat := do
  let address ← alloc bytes.length align
  write address bytes
  return address

/-- Copies a string into a block of its own, followed by a zero byte. -/
def duplicate (s : String) : HeapM Nat :=
  allocBytes (s.toUTF8.data.toList ++ [0]) 1

def readString (address : Nat) : HeapM String := fun h =>
  if address < guardSize ∨ h.size < address then
    .error (.error (.invalidPointer address 1 h.size)) h
  else
    let tail := (h.bytes.extract address h.size).toList
    let text := tail.takeWhile (· != 0)
    if text.length = tail.length then .error (.error (.unterminated address)) h
    else
      match String.fromUTF8? ⟨text.toArray⟩ with
      | some s => .ok s h
      | none => .error (.error (.invalidUtf8 address)) h

def copyBlock (address size : Nat) : HeapM Nat := do
  allocBytes (← read address size) 8

def newError (record : ErrorRecord) : HeapM Nat := do
  let message ← duplicate record.message
  let address ← alloc errorSize 8
  store address 4 (.ofNat record.domain.toNat)
  store (address + 4) 4 (.ofInt record.code.toInt)
  storePointer (address + 8) message
  return address

/-- The content of an error block; a null message is the empty one. -/
def readError (address : Nat) : HeapM ErrorRecord := do
  let domain ← load address 4
  let code ← load (address + 4) 4
  let text ← loadPointer (address + 8)
  let message ← if text = 0 then pure "" else readString text
  return ⟨.ofNat (domain.toNat % UInt32.size), .ofInt (code.low 32 true), message⟩

/-- Frees an error block and its message, the message first. -/
def freeError (address : Nat) : HeapM Unit := do
  if address = 0 then return ()
  free (← loadPointer (address + 8))
  free address

end Heap

end ForeignCall
