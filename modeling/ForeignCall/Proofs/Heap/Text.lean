import ForeignCall.Proofs.Heap.Blocks

/-!
Strings in the heap.

The encoding of a string without NUL has no zero byte, so that the zero byte behind a copy is the
first one that a reader comes across.
-/

set_option autoImplicit false

namespace ForeignCall

theorem zero_not_mem_encode {c : Char} (proper : c ≠ '\x00') :
    (0 : UInt8) ∉ String.utf8EncodeChar c := by
  have positive : c.val.toNat ≠ 0 := fun zero => proper (Char.ext (UInt32.toNat_inj.1 zero))
  fun_cases String.utf8EncodeChar c <;> simp [← UInt8.toNat_inj] <;> omega

theorem toUTF8_eq_flatMap (s : String) :
    s.toUTF8.data.toList = s.toList.flatMap String.utf8EncodeChar := by
  rw [String.toUTF8, ← String.utf8Encode_toList, List.utf8Encode, List.data_toByteArray,
    List.toList_toArray]

theorem zero_not_mem_toUTF8 {s : String} (clean : '\x00' ∉ s.toList) :
    (0 : UInt8) ∉ s.toUTF8.data.toList := by
  rw [toUTF8_eq_flatMap, List.mem_flatMap]
  rintro ⟨c, listed, zero⟩
  exact zero_not_mem_encode (fun same => clean (same ▸ listed)) zero

theorem fromUTF8?_toUTF8 (s : String) : String.fromUTF8? s.toUTF8 = some s :=
  dif_pos s.isValidUTF8

namespace Heap

variable {h : Heap} {address : Nat} {s : String}

theorem slice_append (first second : Nat) :
    h.slice address (first + second) =
      h.slice address first ++ h.slice (address + first) second := by
  simp only [slice, List.range_add, List.map_append, List.map_map, Function.comp_def, Nat.add_assoc]

/-- The bytes of a string with the terminator behind them. -/
def terminated (s : String) : List UInt8 := s.toUTF8.data.toList ++ [0]

theorem length_terminated (s : String) : (terminated s).length = s.utf8ByteSize + 1 := by
  simp only [terminated, List.length_append, List.length_singleton, Array.length_toList,
    ByteArray.size_data, String.toUTF8, String.size_toByteArray]

theorem readString_eq (clean : '\x00' ∉ s.toList)
    (within : h.Accessible address (terminated s).length)
    (content : h.slice address (terminated s).length = terminated s) :
    readString address h = .ok s h := by
  obtain ⟨guarded, inside⟩ := within
  have tail : (h.bytes.extract address h.size).toList =
      s.toUTF8.data.toList ++ 0 :: h.slice (address + (terminated s).length)
        (h.size - (address + (terminated s).length)) := by
    have whole : address + ((terminated s).length + (h.size - (address + (terminated s).length))) ≤
        h.size := by omega
    have split := slice_eq_extract whole
    rw [slice_append, content, terminated, List.append_assoc, ← terminated] at split
    rw [← List.singleton_append, ← split]
    congr 3
    omega
  have text : (h.bytes.extract address h.size).toList.takeWhile (· != 0) =
      s.toUTF8.data.toList := by
    have proper : ∀ b ∈ s.toUTF8.data.toList, (b != 0) = true := by
      intro b listed
      exact bne_iff_ne.2 fun zero => zero_not_mem_toUTF8 clean (zero ▸ listed)
    rw [tail, List.takeWhile_append_of_pos proper, List.takeWhile_cons_of_neg (by simp),
      List.append_nil]
  have shorter : s.toUTF8.data.toList.length ≠ (h.bytes.extract address h.size).toList.length := by
    rw [tail, List.length_append, List.length_cons]
    omega
  rw [readString, if_neg (by omega)]
  simp only [text, if_neg shorter]
  rw [Array.toArray_toList, fromUTF8?_toUTF8]

end Heap

end ForeignCall
