import ForeignCall.Proofs.Outcome
import Mathlib.Data.List.Basic
import Mathlib.Tactic.Ring

/-!
The bytes of a heap: what reads, writes and allocations do to them.

`byteAt` is a total view: beyond the address space every byte is zero, so an allocation, which hands
out zeroed bytes, changes no byte at all. `slotAt` is the slot a load of accessible bytes gives.
-/

set_option autoImplicit false

namespace ForeignCall

/-! ### Little-endian words -/

theorem length_littleEndian (n value : Nat) : (littleEndian n value).length = n := by
  induction n generalizing value with
  | zero => rfl
  | succ n ih => simp [littleEndian, ih]

theorem ofLittleEndian_littleEndian (n value : Nat) :
    ofLittleEndian (littleEndian n value) = value % 256 ^ n := by
  induction n generalizing value with
  | zero => simp [littleEndian, ofLittleEndian, Nat.mod_one]
  | succ n ih =>
    have low : (UInt8.ofNat value).toNat = value % 256 := by simp
    rw [littleEndian, ofLittleEndian, ih, low, Nat.pow_succ, Nat.mul_comm (256 ^ n) 256,
      Nat.mod_mul]

theorem ofLittleEndian_eq_zero {bytes : List UInt8} (zero : bytes.all (· == 0) = true) :
    ofLittleEndian bytes = 0 := by
  induction bytes with
  | nil => rfl
  | cons b rest ih =>
    simp only [List.all_cons, Bool.and_eq_true, beq_iff_eq] at zero
    rw [ofLittleEndian, zero.1, ih zero.2]
    rfl

namespace Slot

theorem toNat_ofNat {n : Nat} (small : n < UInt64.size) : (ofNat n).toNat = n := by
  simpa only [ofNat, toNat, UInt64.toNat_ofNat'] using Nat.mod_eq_of_lt small

theorem ofNat_toNat (s : Slot) : ofNat s.toNat = s := by
  simp [ofNat, toNat]

theorem toNat_lt (s : Slot) : s.toNat < UInt64.size := s.bits.toNat_lt

theorem length_toBytes (s : Slot) (size : Nat) : (s.toBytes size).length = min size 8 :=
  length_littleEndian _ _

end Slot

namespace Heap

variable {h : Heap} {address length : Nat}

/-! ### Views -/

def byteAt (h : Heap) (address : Nat) : UInt8 := h.bytes.getD address 0

def slice (h : Heap) (address length : Nat) : List UInt8 :=
  (List.range length).map fun i => h.byteAt (address + i)

def slotAt (h : Heap) (address size : Nat) : Slot := .ofBytes (h.slice address size)

@[simp] theorem length_slice : (h.slice address length).length = length := by simp [slice]

theorem slice_congr {g : Heap}
    (same : ∀ x, address ≤ x → x < address + length → g.byteAt x = h.byteAt x) :
    g.slice address length = h.slice address length := by
  refine List.map_congr_left fun i below => same _ (by omega) ?_
  simp only [List.mem_range] at below
  omega

theorem slotAt_congr {g : Heap}
    (same : ∀ x, address ≤ x → x < address + length → g.byteAt x = h.byteAt x) :
    g.slotAt address length = h.slotAt address length :=
  congrArg Slot.ofBytes (slice_congr same)

/-- A slot with a bit set has a byte that is not zero. -/
theorem not_all_zero {size : Nat} (marked : (h.slotAt address size).toNat ≠ 0) :
    (h.slice address size).all (· == 0) = false := by
  by_contra zero
  apply marked
  have taken : ((h.slice address size).take 8).all (· == 0) = true := by
    simp only [Bool.not_eq_false, List.all_eq_true] at zero ⊢
    exact fun b listed => zero b (List.mem_of_mem_take listed)
  rw [slotAt, Slot.ofBytes, ofLittleEndian_eq_zero taken]
  rfl

theorem slotAt_of_blank {size : Nat}
    (blank : ∀ x, address ≤ x → x < address + size → h.byteAt x = 0) :
    h.slotAt address size = .null := by
  have zero : ((h.slice address size).take 8).all (· == 0) = true := by
    simp only [List.all_eq_true, beq_iff_eq]
    intro b listed
    obtain ⟨i, below, rfl⟩ := List.mem_map.1 (List.mem_of_mem_take listed)
    exact blank _ (Nat.le_add_right _ _) (Nat.add_lt_add_left (List.mem_range.1 below) _)
  rw [slotAt, Slot.ofBytes, ofLittleEndian_eq_zero zero]
  rfl

theorem byteAt_of_bytes_eq {g : Heap} (same : g.bytes = h.bytes) : g.byteAt = h.byteAt := by
  funext x
  simp only [byteAt, same]

theorem byteAt_of_size_le {x : Nat} (beyond : h.size ≤ x) : h.byteAt x = 0 := by
  simp only [size] at beyond
  simp only [byteAt, Array.getD_eq_getD_getElem?, Array.getElem?_eq_none beyond, Option.getD_none]

theorem slice_eq_extract (within : address + length ≤ h.size) :
    (h.bytes.extract address (address + length)).toList = h.slice address length := by
  simp only [size] at within
  apply List.ext_getElem (by simp; omega)
  intro i below _
  simp only [Array.length_toList, Array.size_extract] at below
  simp only [slice, byteAt, Array.getElem_toList, Array.getElem_extract, List.getElem_map,
    List.getElem_range, Array.getD_eq_getD_getElem?]
  rw [Array.getElem?_eq_getElem (by omega)]
  rfl

theorem size_le_capacity (h : Heap) : h.size ≤ capacity := h.bounded

theorem capacity_lt : capacity < UInt64.size := by decide

/-! ### Reads -/

theorem read_eq (within : h.Accessible address length) :
    read address length h = .ok (h.slice address length) h := by
  rw [read, if_pos within, slice_eq_extract within.2]

theorem load_eq (within : h.Accessible address length) :
    load address length h = .ok (h.slotAt address length) h := by
  rw [load, Action.bind_of_ok (read_eq within)]
  rfl

theorem loadPointer_eq (within : h.Accessible address 8) :
    loadPointer address h = .ok (h.slotAt address 8).toNat h := by
  rw [loadPointer, Action.bind_of_ok (load_eq within)]
  rfl

theorem gives_read {ok : List UInt8 → Heap → Prop} {failed : HeapFault → Heap → Prop}
    (done : h.Accessible address length → ok (h.slice address length) h)
    (refused : ∀ e, failed e h) : (read address length).Gives h ok failed := by
  by_cases within : h.Accessible address length
  · exact Action.gives_of_ok (read_eq within) (done within)
  · simpa only [Action.Gives, read, if_neg within] using refused _

/-! ### Writes -/

theorem getD_overwrite (memory : Array UInt8) (start : Nat) (bytes : List UInt8)
    (within : start + bytes.length ≤ memory.size) (x : Nat) :
    (overwrite memory start bytes).getD x 0 =
      if start ≤ x ∧ x < start + bytes.length then bytes.getD (x - start) 0
      else memory.getD x 0 := by
  induction bytes generalizing memory start with
  | nil =>
    rw [overwrite, if_neg (by simp)]
  | cons b rest ih =>
    simp only [List.length_cons] at within
    rw [overwrite, ih _ _ (by simp; omega)]
    by_cases here : x = start
    · subst here
      rw [if_neg (by omega), if_pos (by simp)]
      simp [show x < memory.size by omega]
    · have shifted : (start + 1 ≤ x ∧ x < start + 1 + rest.length) ↔
          (start ≤ x ∧ x < start + (b :: rest).length) := by
        simp only [List.length_cons]
        omega
      simp only [shifted]
      split
      · rename_i later
        have step : x - start = (x - (start + 1)) + 1 := by omega
        rw [step, List.getD_cons_succ]
      · simp [Ne.symm here]

@[simp] theorem size_overwritten (bytes : List UInt8) :
    (h.overwritten address bytes).size = h.size := size_overwrite _ _ _

@[simp] theorem blockSize?_overwritten (bytes : List UInt8) :
    (h.overwritten address bytes).blockSize? = h.blockSize? := rfl

theorem byteAt_overwritten {bytes : List UInt8} (within : h.Accessible address bytes.length)
    (x : Nat) :
    (h.overwritten address bytes).byteAt x =
      if address ≤ x ∧ x < address + bytes.length then bytes.getD (x - address) 0
      else h.byteAt x :=
  getD_overwrite _ _ _ within.2 x

@[simp] theorem accessible_overwritten {start : Nat} {bytes : List UInt8} :
    (h.overwritten start bytes).Accessible address length ↔ h.Accessible address length := by
  simp [Accessible]

theorem write_eq {bytes : List UInt8} (within : h.Accessible address bytes.length) :
    write address bytes h = .ok () (h.overwritten address bytes) := by
  rw [write, if_pos within]

theorem store_eq {size : Nat} (value : Slot) (within : h.Accessible address (min size 8)) :
    store address size value h = .ok () (h.overwritten address (value.toBytes size)) :=
  write_eq (by rwa [Slot.length_toBytes])

theorem storePointer_eq (value : Nat) (within : h.Accessible address 8) :
    storePointer address value h = .ok () (h.overwritten address ((Slot.ofNat value).toBytes 8)) :=
  store_eq (.ofNat value) within

theorem slice_overwritten {bytes : List UInt8} (within : h.Accessible address bytes.length) :
    (h.overwritten address bytes).slice address bytes.length = bytes := by
  apply List.ext_getElem (by simp)
  intro i below inside
  simp only [slice, List.getElem_map, List.getElem_range, byteAt_overwritten within]
  rw [if_pos (by omega), Nat.add_sub_cancel_left, List.getD_eq_getElem?_getD,
    List.getElem?_eq_getElem inside, Option.getD_some]

/-- What is loaded is the low bytes of the value that was stored. -/
theorem slotAt_stored_mod (value : Slot) {size : Nat} (narrow : size ≤ 8)
    (within : h.Accessible address size) :
    (h.overwritten address (value.toBytes size)).slotAt address size =
      .ofNat (value.toNat % 256 ^ size) := by
  have length : (value.toBytes size).length = size := by
    rw [Slot.length_toBytes, Nat.min_eq_left narrow]
  have back : (h.overwritten address (value.toBytes size)).slice address
      (value.toBytes size).length = value.toBytes size := slice_overwritten (by rwa [length])
  rw [length] at back
  rw [slotAt, back, Slot.ofBytes, List.take_of_length_le (by omega), Slot.toBytes,
    Nat.min_eq_left narrow, ofLittleEndian_littleEndian]

/-- A value that fits in `size` bytes is loaded as it was stored. -/
theorem slotAt_stored_of_lt {value : Slot} {size : Nat} (fits : value.toNat < 256 ^ size)
    (narrow : size ≤ 8) (within : h.Accessible address size) :
    (h.overwritten address (value.toBytes size)).slotAt address size = value := by
  rw [slotAt_stored_mod value narrow within, Nat.mod_eq_of_lt fits, Slot.ofNat_toNat]

theorem slotAt_stored (value : Slot) (within : h.Accessible address 8) :
    (h.overwritten address (value.toBytes 8)).slotAt address 8 = value :=
  slotAt_stored_of_lt value.toNat_lt (Nat.le_refl 8) within

theorem byteAt_stored_of_outside (value : Slot) {size : Nat} (narrow : size ≤ 8)
    (within : h.Accessible address size) {x : Nat} (outside : x < address ∨ address + size ≤ x) :
    (h.overwritten address (value.toBytes size)).byteAt x = h.byteAt x := by
  have length : (value.toBytes size).length = size := by
    rw [Slot.length_toBytes, Nat.min_eq_left narrow]
  rw [byteAt_overwritten (by rwa [length]), if_neg (by omega)]

/-! ### Allocations -/

section Extend

variable {start size : Nat} (after : h.size ≤ start) (positive : 0 < size)
  (room : start + size ≤ capacity)

@[simp] theorem size_extend : (h.extend start size after positive room).size = start + size := by
  simp only [Heap.size] at after
  simp only [Heap.size, extend, Array.size_append, Array.size_replicate]
  omega

theorem blockSize?_extend (a : Nat) :
    (h.extend start size after positive room).blockSize? a =
      if start = a then some size else h.blockSize? a := by
  simp only [blockSize?, extend, Std.TreeMap.getElem?_insert, Std.LawfulEqCmp.compare_eq_iff_eq]

@[simp] theorem byteAt_extend (x : Nat) :
    (h.extend start size after positive room).byteAt x = h.byteAt x := by
  simp only [byteAt, extend, Array.getD_eq_getD_getElem?, Array.getElem?_append,
    Array.getElem?_replicate]
  by_cases old : x < h.bytes.size
  · rw [if_pos old]
  · rw [if_neg old, Array.getElem?_eq_none (by omega)]
    split <;> rfl

end Extend

theorem alignUp_le (value align : Nat) : alignUp value align ≤ value + (max align 1 - 1) := by
  simp only [alignUp]
  omega

/-- An allocation succeeds unless the address space is too small for the block. -/
theorem gives_alloc_unless {size align : Nat} {ok : Nat → Heap → Prop}
    {failed : HeapFault → Heap → Prop} {halted : Halt → Prop}
    (done : ∀ start after positive room, start ≤ h.size + (max align 1 - 1) →
      ok start (h.extend start (max size 1) after positive room))
    (full : capacity < h.size + (max align 1 - 1) + max size 1 → halted .exhausted) :
    (alloc size align).Gives h ok failed halted := by
  have start := alignUp_le h.size align
  by_cases room : alignUp h.size align + max size 1 ≤ capacity
  · simpa only [Action.Gives, alloc, dif_pos room] using done _ _ _ room start
  · simpa only [Action.Gives, alloc, dif_neg room] using full (by omega)

theorem gives_alloc {size align : Nat} {ok : Nat → Heap → Prop} {failed : HeapFault → Heap → Prop}
    (done : ∀ start after positive room,
      ok start (h.extend start (max size 1) after positive room)) :
    (alloc size align).Gives h ok failed :=
  gives_alloc_unless (fun start after positive room _ => done start after positive room)
    fun _ => rfl

end Heap

end ForeignCall
