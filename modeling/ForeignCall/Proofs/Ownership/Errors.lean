import ForeignCall.Proofs.Heap.Text
import ForeignCall.Proofs.Number
import ForeignCall.Proofs.Ownership.Footprint

/-!
Error records in the heap.

An error is a block with a domain, a code and the address of its message, which is a block of its own.
What was recorded is read back as long as the bytes of the two blocks stay.
-/

set_option autoImplicit false

namespace ForeignCall

namespace ErrorRecord

theorem ofNat_domain (domain : UInt32) :
    UInt32.ofNat ((Slot.ofNat ((Slot.ofNat domain.toNat).toNat % 256 ^ 4)).toNat % UInt32.size) =
      domain := by
  have small := domain.toNat_lt
  have word : domain.toNat < UInt64.size := by
    simp only [UInt64.size]
    omega
  have fits : domain.toNat % 256 ^ 4 = domain.toNat := Nat.mod_eq_of_lt (by omega)
  have whole : domain.toNat % UInt32.size = domain.toNat := Nat.mod_eq_of_lt small
  rw [Slot.toNat_ofNat word, fits, Slot.toNat_ofNat word, whole, UInt32.ofNat_toNat]

/-- The code goes through the low half of a slot. -/
theorem ofInt_code (code : Int32) :
    Int32.ofInt ((Slot.ofNat ((Slot.ofInt code.toInt).toNat % 256 ^ 4)).low 32 true) = code := by
  have least := code.le_toInt
  have most := code.toInt_lt
  have word : (code.toInt % UInt64.size).toNat < UInt64.size := by
    simp only [UInt64.size]
    omega
  have low : (code.toInt % UInt64.size).toNat % 256 ^ 4 < UInt64.size :=
    Nat.lt_of_le_of_lt (Nat.mod_le _ _) word
  have back : Int.bmod ((code.toInt % UInt64.size).toNat % 256 ^ 4 % twoPow 32 : Nat) (twoPow 32) =
      code.toInt := by
    simp only [UInt64.size, Int.bmod, twoPow_eq]
    split <;> omega
  rw [Slot.ofInt, Slot.toNat_ofNat word, Slot.low, Slot.toNat_ofNat low, if_pos rfl, back,
    Int32.ofInt_toInt]

end ErrorRecord

namespace Heap

variable {h g k : Heap} {record : ErrorRecord} {b text : Block}

/-! ### Writing the fields -/

/-- The heap with the fields of an error written at an address. -/
def recorded (h : Heap) (record : ErrorRecord) (address message : Nat) : Heap :=
  ((h.overwritten address ((Slot.ofNat record.domain.toNat).toBytes 4)).overwritten (address + 4)
    ((Slot.ofInt record.code.toInt).toBytes 4)).overwritten (address + 8)
      ((Slot.ofNat message).toBytes 8)

section Recorded

variable {address message : Nat} (within : h.Accessible address errorSize)

include within

theorem accessible_fields : h.Accessible address 4 ∧ h.Accessible (address + 4) 4 ∧
    h.Accessible (address + 8) 8 := by
  simp only [Accessible, errorSize] at *
  omega

theorem store_fields :
    (do
      store address 4 (.ofNat record.domain.toNat)
      store (address + 4) 4 (.ofInt record.code.toInt)
      storePointer (address + 8) message
      return address : HeapM Nat) h = .ok address (h.recorded record address message) := by
  obtain ⟨first, second, third⟩ := accessible_fields within
  rw [Action.bind_of_ok (store_eq _ first),
    Action.bind_of_ok (store_eq _ (accessible_overwritten.2 second)), Action.bind_of_ok
      (storePointer_eq _ (accessible_overwritten.2 (accessible_overwritten.2 third)))]
  rfl

theorem slotAt_recorded :
    (h.recorded record address message).slotAt address 4 =
        .ofNat ((Slot.ofNat record.domain.toNat).toNat % 256 ^ 4) ∧
      (h.recorded record address message).slotAt (address + 4) 4 =
        .ofNat ((Slot.ofInt record.code.toInt).toNat % 256 ^ 4) ∧
      (h.recorded record address message).slotAt (address + 8) 8 = .ofNat message := by
  obtain ⟨first, second, third⟩ := accessible_fields within
  refine ⟨?_, ?_, slotAt_stored _ (by simpa using third)⟩
  · rw [← slotAt_stored_mod _ (by omega) first]
    refine slotAt_congr fun x above below => ?_
    rw [recorded, byteAt_stored_of_outside _ (by omega) (by simpa using third) (by omega),
      byteAt_stored_of_outside _ (by omega) (by simpa using second) (by omega)]
  · rw [← slotAt_stored_mod _ (by omega) (accessible_overwritten.2 second)]
    refine slotAt_congr fun x above below => ?_
    rw [recorded, byteAt_stored_of_outside _ (by omega) (by simpa using third) (by omega)]

theorem Grows.recorded {blocks : List Block} (grows : g.Grows h blocks) (beyond : g.size ≤ address) :
    g.Grows (h.recorded record address message) blocks := by
  obtain ⟨first, second, third⟩ := accessible_fields within
  refine ((grows.overwritten ?_ beyond).overwritten ?_ (by omega)).overwritten ?_ (by omega)
  · rwa [Slot.length_toBytes]
  · rwa [Slot.length_toBytes, accessible_overwritten]
  · rwa [Slot.length_toBytes, accessible_overwritten, accessible_overwritten]

end Recorded

/-! ### Errors -/

/-- The blocks hold what was recorded, the message in a block of its own. -/
structure Records (h : Heap) (record : ErrorRecord) (b text : Block) : Prop where
  error : h.ErrorAt b [text]
  domain : h.slotAt b.address 4 = .ofNat ((Slot.ofNat record.domain.toNat).toNat % 256 ^ 4)
  code : h.slotAt (b.address + 4) 4 = .ofNat ((Slot.ofInt record.code.toInt).toNat % 256 ^ 4)
  pointer : h.slotAt (b.address + 8) 8 = .ofNat text.address
  guarded : guardSize ≤ text.address
  inside : text.stop ≤ h.size
  room : (terminated record.message).length ≤ text.size
  message : h.slice text.address (terminated record.message).length = terminated record.message

theorem Records.agree (records : h.Records record b text) (same : h.Agrees g [text, b]) :
    g.Records record b text := by
  have error := records.error.agree (same.subset (by simp))
  have inside := records.error.inside
  have large := records.error.room
  simp only [errorSize, Block.stop] at inside large
  have field (address size : Nat) (above : b.address ≤ address)
      (below : address + size ≤ b.address + 16) : g.slotAt address size = h.slotAt address size :=
    slotAt_congr fun x first last => same.byteAt_eq b (by simp) x (by omega)
      (by simp only [Block.stop]; omega) (by omega)
  refine ⟨error, ?_, ?_, ?_, records.guarded, same.room text (by simp) records.inside, records.room, ?_⟩
  · rw [field _ _ (by omega) (by omega), records.domain]
  · rw [field _ _ (by omega) (by omega), records.code]
  · rw [field _ _ (by omega) (by omega), records.pointer]
  · have bound := records.inside
    have room := records.room
    simp only [Block.stop] at bound
    rw [← records.message, length_slice]
    exact slice_congr fun x first last => same.byteAt_eq text (by simp) x first
      (by simp only [Block.stop]; omega) (by omega)

theorem Records.readError (records : h.Records record b text)
    (clean : '\x00' ∉ record.message.toList) : readError b.address h = .ok record h := by
  have guarded := records.error.guarded
  have inside := records.error.inside
  have large := records.error.room
  simp only [guardSize, errorSize, Block.stop] at guarded inside large
  have field (address size : Nat) (above : b.address ≤ address)
      (below : address + size ≤ b.address + 16) : h.Accessible address size := by
    simp only [Accessible, guardSize]
    omega
  have bound := records.inside
  have room := records.room
  have low := records.guarded
  simp only [Block.stop, guardSize] at bound low
  have word : text.address < UInt64.size := by
    have := h.size_le_capacity
    have := capacity_lt
    omega
  have within : h.Accessible text.address (terminated record.message).length := by
    simp only [Accessible, guardSize]
    omega
  rw [Heap.readError, Action.bind_of_ok (load_eq (field _ 4 (Nat.le_refl _) (by omega))),
    Action.bind_of_ok (load_eq (field _ 4 (by omega) (by omega))),
    Action.bind_of_ok (loadPointer_eq (field _ 8 (by omega) (by omega))), records.pointer,
    Slot.toNat_ofNat word, if_neg (by omega),
    Action.bind_of_ok (readString_eq clean within records.message), records.domain, records.code,
    ErrorRecord.ofNat_domain, ErrorRecord.ofInt_code]
  rfl

theorem records_recorded {e : Heap} {address message : Nat}
    (copied : h.Copied g (terminated record.message) message)
    (grows : g.Grows e [⟨address, errorSize⟩]) (beyond : g.size ≤ address) :
    (e.recorded record address message).Records record ⟨address, errorSize⟩
      ⟨message, max (terminated record.message).length 1⟩ := by
  have live := grows.live (List.mem_singleton_self _)
  have within : e.Accessible address errorSize := live.accessible_start (Nat.le_refl _)
  have kept : g.Grows (e.recorded record address message) [⟨address, errorSize⟩] :=
    grows.recorded within beyond
  obtain ⟨domain, code, pointer⟩ := slotAt_recorded within
  have text := copied.grows.live (List.mem_singleton_self _)
  have textInside := text.inside
  have new := (kept.live (List.mem_singleton_self _)).inside
  refine ⟨⟨new.1, new.2.2, Nat.le_refl _, ?_⟩, domain, code, pointer, textInside.1, ?_,
    Nat.le_max_left _ _, ?_⟩
  · rw [pointer, text.isNull_ofNat, text.toNat_ofNat]
    rfl
  · exact Nat.le_trans textInside.2.2 kept.size_le
  · have bound := copied.accessible.2
    refine (slice_congr fun x _ below => kept.byteAt_eq x ?_).trans copied.slice_eq
    dsimp only at below
    omega

/-- A new error holds what is to be recorded, in two blocks that are new. -/
theorem gives_newError (record : ErrorRecord) (h : Heap) :
    (newError record).Gives h
      (fun a g => ∃ b text, b.address = a ∧ h.Grows g [text, b] ∧ g.Records record b text)
      fun _ _ => False := by
  rw [newError, duplicate, Action.gives_bind]
  refine Action.Gives.mono (gives_allocBytes_unless fun _ => rfl) ?_ fun _ _ never => never
  rintro message g ⟨copied, -⟩
  rw [← terminated] at copied
  rw [Action.gives_bind]
  refine gives_alloc fun start after positive room => ?_
  have grows := Grows.extend after positive room
  have within : (g.extend start (max errorSize 1) after positive room).Accessible start errorSize :=
    (grows.live (List.mem_singleton_self _)).accessible_start (Nat.le_max_left _ _)
  refine Action.gives_of_ok (store_fields within) ⟨_, _, rfl, ?_, records_recorded copied grows after⟩
  exact copied.grows.trans (grows.recorded within after)

end Heap

end ForeignCall
