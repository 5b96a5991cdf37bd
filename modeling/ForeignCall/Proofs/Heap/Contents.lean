import ForeignCall.Proofs.Heap.Histories

/-!
The contents of memory: which bytes an operation changes, and which ones it leaves as they are.

A write reaches exactly the bytes it names, wherever these lie: in a live block, in a freed one, in
the padding between two, or across several. It never reaches beyond the end of the address space, so
that what is allocated later is zero. No other operation changes a byte that was there.
-/

set_option autoImplicit false

namespace ForeignCall

open ForeignCall.Action

namespace Heap

variable {h g k : Heap} {address : Nat} {bytes : List UInt8}

/-! ### Writes -/

/-- `g` has the bytes at the address and is otherwise the same as `h`. -/
structure Wrote (h g : Heap) (address : Nat) (bytes : List UInt8) : Prop where
  size_eq : g.size = h.size
  blockSize?_eq : g.blockSize? = h.blockSize?
  slice_eq : g.slice address bytes.length = bytes
  byteAt_eq : ∀ x, x < address ∨ address + bytes.length ≤ x → g.byteAt x = h.byteAt x

theorem wrote_overwritten (within : h.Accessible address bytes.length) :
    h.Wrote (h.overwritten address bytes) address bytes where
  size_eq := size_overwritten bytes
  blockSize?_eq := blockSize?_overwritten bytes
  slice_eq := slice_overwritten within
  byteAt_eq x outside := by
    rw [byteAt_overwritten within, if_neg (by omega)]

theorem gives_write (h : Heap) (address : Nat) (bytes : List UInt8) :
    (write address bytes).Gives h
      (fun _ g => h.Accessible address bytes.length ∧ h.Wrote g address bytes)
      (fun _ g => ¬ h.Accessible address bytes.length ∧ g = h) fun _ => False := by
  by_cases within : h.Accessible address bytes.length
  · exact gives_of_ok (write_eq within) ⟨within, wrote_overwritten within⟩
  · simp [Gives, write, within]

/-- What is stored is loaded again, cut to the bytes it was stored in. -/
theorem load_stored {size : Nat} (value : Slot) (narrow : size ≤ 8)
    (within : h.Accessible address size) :
    ∃ s, load address size (h.overwritten address (value.toBytes size)) =
        .ok s (h.overwritten address (value.toBytes size)) ∧
      s.toNat = value.toNat % 2 ^ (8 * size) := by
  have small : value.toNat % 256 ^ size < UInt64.size :=
    Nat.lt_of_le_of_lt (Nat.mod_le _ _) value.toNat_lt
  refine ⟨_, load_eq (accessible_overwritten.2 within), ?_⟩
  rw [slotAt_stored_mod value narrow within, Slot.toNat_ofNat small, Nat.pow_mul]

theorem gives_store (h : Heap) (address size : Nat) (value : Slot) :
    (store address size value).Gives h
      (fun _ g => h.Accessible address (min size 8) ∧ h.Wrote g address (value.toBytes size) ∧
        (size ≤ 8 → ∃ s, load address size g = .ok s g ∧ s.toNat = value.toNat % 2 ^ (8 * size)))
      (fun _ g => ¬ h.Accessible address (min size 8) ∧ g = h) fun _ => False := by
  have length := Slot.length_toBytes value size
  by_cases within : h.Accessible address (min size 8)
  · refine gives_of_ok (store_eq value within) ⟨within, ?_, fun narrow => ?_⟩
    · exact wrote_overwritten (by rwa [length])
    · rw [Nat.min_eq_left narrow] at within
      exact load_stored value narrow within
  · simp [Gives, store, write, length, within]

/-! ### Allocations and frees -/

theorem composes_prolongs : Composes Prolongs := ⟨.refl, .trans⟩

/-- A block that was just allocated has zero bytes only. -/
theorem slice_extend {start size : Nat} (after : h.size ≤ start) (positive : 0 < size)
    (room : start + size ≤ capacity) :
    (h.extend start size after positive room).slice start size = List.replicate size 0 := by
  rw [slice, List.eq_replicate_iff]
  refine ⟨by simp, fun b listed => ?_⟩
  obtain ⟨i, -, rfl⟩ := List.mem_map.1 listed
  rw [byteAt_extend, byteAt_of_size_le (by omega)]

theorem gives_alloc_zeroed (h : Heap) (size align : Nat) :
    (alloc size align).Gives h
      (fun a g => h.size ≤ a ∧ read a (max size 1) g = .ok (List.replicate (max size 1) 0) g)
      (fun _ _ => False) fun _ => capacity < h.size + (max align 1 - 1) + max size 1 := by
  apply gives_alloc_unless
  · intro start after positive room _
    have live := (Grows.extend after positive room).live (List.mem_singleton_self _)
    refine ⟨after, ?_⟩
    rw [read_eq (live.accessible_start (Nat.le_refl _)), slice_extend]
  · exact id

theorem prolongs_alloc (size align : Nat) : (alloc size align).Always Prolongs := by
  intro h
  by_cases room : alignUp h.size align + max size 1 ≤ capacity
  · rw [last_of_ok (by rw [alloc, dif_pos room])]
    exact (Grows.extend (le_alignUp _ _) (by omega) room).toProlongs
  · rw [last_of_error (by rw [alloc, dif_neg room])]
    exact .refl h

theorem prolongs_allocBytes (bytes : List UInt8) (align : Nat) :
    (allocBytes bytes align).Always Prolongs := by
  intro h
  by_cases room : alignUp h.size align + max bytes.length 1 ≤ capacity
  · have gained := Grows.extend (h := h) (le_alignUp _ align) (by omega) room
    have within := (gained.live (List.mem_singleton_self _)).accessible_start
      (Nat.le_max_left bytes.length 1)
    rw [last_of_ok]
    · exact (gained.overwritten within (le_alignUp _ _)).toProlongs
    · rw [allocBytes, bind_of_ok (by rw [alloc, dif_pos room]), bind_of_ok (write_eq within)]
      rfl
  · rw [last_of_error (by rw [allocBytes, bind_of_error (by rw [alloc, dif_neg room])])]
    exact .refl h

theorem prolongs_newError (record : ErrorRecord) : (newError record).Always Prolongs := by
  refine (prolongs_allocBytes _ 1).bind Prolongs.trans fun message => ?_
  intro h
  by_cases room : alignUp h.size 8 + max errorSize 1 ≤ capacity
  · have gained := Grows.extend (h := h) (le_alignUp _ 8) (by omega) room
    have within := (gained.live (List.mem_singleton_self _)).accessible_start
      (Nat.le_max_left errorSize 1)
    rw [last_of_ok (by rw [bind_of_ok (by rw [alloc, dif_pos room])]; exact store_fields within)]
    exact (gained.recorded within (le_alignUp _ _)).toProlongs
  · rw [last_of_error (bind_of_error (by rw [alloc, dif_neg room]))]
    exact .refl h

theorem prolongs_free (p : Nat) : (free p).Always Prolongs := by
  intro h
  rcases free_cases h p with ⟨-, run⟩ | ⟨n, g, -, run, sheds, -⟩ | ⟨-, -, -, run⟩ | ⟨-, -, -, run⟩
  · rw [last_of_ok run]
    exact .refl h
  · rw [last_of_ok run]
    exact sheds.prolongs
  all_goals
    rw [last_of_error run]
    exact .refl h

theorem prolongs_freeError (address : Nat) : (freeError address).Always Prolongs := by
  have c := composes_prolongs
  unfold freeError
  split
  · exact always_pure c _
  · exact (always_loadPointer c (address + 8)).bind c.trans fun message =>
      (prolongs_free message).bind c.trans fun _ => prolongs_free address

end Heap

namespace HeapOperation

open Heap

variable {h : Heap} {op : HeapOperation} {x : Nat}

/-! ### One operation -/

/-- The byte is one of those that the operation is told to write. -/
def Overwrites : HeapOperation → Nat → Prop
  | .write address bytes, x => address ≤ x ∧ x < address + bytes.length
  | .store address size _, x => address ≤ x ∧ x < address + min size 8
  | _, _ => False

/-- `g` came from `h` by a change of the bytes in `changed` and by prolonging the address space. -/
structure Changes (changed : Nat → Prop) (h g : Heap) : Prop where
  size_le : h.size ≤ g.size
  byteAt_eq : ∀ x < h.size, ¬ changed x → g.byteAt x = h.byteAt x

theorem changes_write (h : Heap) (address : Nat) (bytes : List UInt8) :
    Changes (fun x => address ≤ x ∧ x < address + bytes.length) h
      ((Heap.write address bytes).last h) := by
  by_cases within : h.Accessible address bytes.length
  · have wrote := wrote_overwritten within
    rw [last_of_ok (write_eq within)]
    exact ⟨Nat.le_of_eq wrote.size_eq.symm, fun x _ kept => wrote.byteAt_eq x (by omega)⟩
  · rw [last_of_error (by rw [Heap.write, if_neg within])]
    exact ⟨Nat.le_refl _, fun _ _ _ => rfl⟩

/-- An operation changes no byte but those it is told to write. -/
theorem changes_apply (op : HeapOperation) (h : Heap) : Changes op.Overwrites h (op.apply h) := by
  have c := composes_prolongs
  have kept {α : Type} {x : HeapM α} (always : x.Always Prolongs) :
      Changes (fun _ => False) h (x.last h) :=
    ⟨(always h).size_le, fun y old _ => (always h).byteAt_eq y old⟩
  rw [apply_eq_last]
  cases op with
  | alloc size align => exact kept (prolongs_alloc size align)
  | allocBytes bytes align => exact kept (prolongs_allocBytes bytes align)
  | free address => exact kept (prolongs_free address)
  | read address length => exact kept (always_read c address length)
  | write address bytes => exact changes_write h address bytes
  | load address size => exact kept (always_load c address size)
  | store address size value =>
    have changes := changes_write h address (value.toBytes size)
    rwa [Slot.length_toBytes] at changes
  | duplicate text => exact kept (prolongs_allocBytes _ 1)
  | readString address => exact kept (always_readString c address)
  | copyBlock address size =>
    exact kept ((always_read c address size).bind c.trans fun bytes => prolongs_allocBytes bytes 8)
  | newError record => exact kept (prolongs_newError record)
  | readError address => exact kept (always_readError c address)
  | freeError address => exact kept (prolongs_freeError address)

end HeapOperation

namespace Heap

open HeapOperation

/-! ### Histories -/

/-- A whole history changes no byte but those it is told to write. -/
theorem changes_after (h : Heap) (history : List HeapOperation) :
    Changes (fun x => ∃ op ∈ history, op.Overwrites x) h (h.after history) := by
  induction history generalizing h with
  | nil => exact ⟨Nat.le_refl _, fun _ _ _ => rfl⟩
  | cons op rest ih =>
    have first := changes_apply op h
    have later := ih (op.apply h)
    constructor
    · exact Nat.le_trans first.size_le later.size_le
    · intro x old kept
      simp only [List.mem_cons, exists_eq_or_imp, not_or] at kept
      have still : (h.after (op :: rest)).byteAt x = (op.apply h).byteAt x :=
        later.byteAt_eq x (Nat.lt_of_lt_of_le old first.size_le) kept.2
      rw [still, first.byteAt_eq x old kept.1]

/-- What memory holds. A store or a write succeeds exactly where its bytes are in the address space, and
it changes those bytes alone, or nothing if it fails; what is stored is loaded again. After any history
an allocation gives a block of zero bytes, and a history changes none of the bytes that were there but
the ones it is told to write, so that no allocation and no free changes any. -/
theorem contents_after (h : Heap) (history : List HeapOperation) :
    (∀ p n v, (store p n v).Gives h
      (fun _ g => (16 ≤ p ∧ p + min n 8 ≤ h.size) ∧ h.Wrote g p (v.toBytes n) ∧
        (n ≤ 8 → ∃ s, load p n g = .ok s g ∧ s.toNat = v.toNat % 2 ^ (8 * n)))
      (fun _ g => ¬ (16 ≤ p ∧ p + min n 8 ≤ h.size) ∧ g = h) fun _ => False) ∧
    (∀ p bytes, (write p bytes).Gives h
      (fun _ g => (16 ≤ p ∧ p + bytes.length ≤ h.size) ∧ h.Wrote g p bytes)
      (fun _ g => ¬ (16 ≤ p ∧ p + bytes.length ≤ h.size) ∧ g = h) fun _ => False) ∧
    (∀ size align, (alloc size align).Gives (h.after history)
      (fun a g => (h.after history).size ≤ a ∧
        read a (max size 1) g = .ok (List.replicate (max size 1) 0) g)
      (fun _ _ => False)
      fun _ => capacity < (h.after history).size + (max align 1 - 1) + max size 1) ∧
    Changes (fun x => ∃ op ∈ history, op.Overwrites x) h (h.after history) := by
  refine ⟨fun p n v => ?_, fun p bytes => ?_, fun size align => ?_, ?_⟩
  · exact gives_store h p n v
  · exact gives_write h p bytes
  · exact gives_alloc_zeroed (h.after history) size align
  · exact changes_after h history

end Heap

end ForeignCall
