import ForeignCall.Proofs.Heap.Contents
import ForeignCall.Proofs.Heap.Text

/-!
Copies of strings: what is read from the block a string was copied to.

A character takes part in the bytes of a string as a whole, so that the first zero byte of a copy is
the first NUL character of the string or the terminator behind it. A reader comes to it within the
block, whatever lies behind, and no operation that leaves the block's bytes alone changes what it
reads, not even one that frees the block.
-/

set_option autoImplicit false

namespace ForeignCall

/-- The text in front of the first NUL character, which is all of it if there is none. -/
def beforeNul (s : String) : String := String.ofList (s.toList.takeWhile (· != '\x00'))

theorem toList_beforeNul (s : String) :
    (beforeNul s).toList = s.toList.takeWhile (· != '\x00') := String.toList_ofList

theorem nul_not_mem_beforeNul (s : String) : '\x00' ∉ (beforeNul s).toList := by
  rw [toList_beforeNul]
  intro listed
  simpa using List.mem_takeWhile_imp listed

theorem isPrefix_beforeNul (s : String) : (beforeNul s).toList <+: s.toList := by
  rw [toList_beforeNul]
  exact List.takeWhile_prefix _

theorem longest_beforeNul {s : String} {front : List Char} (within : front <+: s.toList)
    (clean : '\x00' ∉ front) : front <+: (beforeNul s).toList := by
  obtain ⟨rest, whole⟩ := within
  have proper : ∀ c ∈ front, (c != '\x00') = true := by
    intro c listed
    exact bne_iff_ne.2 fun nul => clean (nul ▸ listed)
  rw [toList_beforeNul, ← whole, List.takeWhile_append_of_pos proper]
  exact List.prefix_append _ _

theorem beforeNul_eq_self {s : String} (clean : '\x00' ∉ s.toList) : beforeNul s = s := by
  have whole := (longest_beforeNul (List.prefix_refl s.toList) clean).eq_of_length_le
    (isPrefix_beforeNul s).length_le
  exact String.toList_inj.1 whole.symm

namespace Heap

/-- The bytes of a string begin with those of its text in front of a NUL and a zero byte. -/
theorem isPrefix_terminated_beforeNul (s : String) : terminated (beforeNul s) <+: terminated s := by
  have split := List.takeWhile_append_dropWhile (p := (· != '\x00')) (l := s.toList)
  rw [terminated, terminated, toUTF8_eq_flatMap, toUTF8_eq_flatMap, toList_beforeNul]
  rcases rest : s.toList.dropWhile (· != '\x00') with _ | ⟨c, rest'⟩
  · rw [rest, List.append_nil] at split
    rw [split]
  · obtain rfl : c = '\x00' := by
      have stops := List.head?_dropWhile_not (· != '\x00') s.toList
      simpa [rest] using stops
    have zero : String.utf8EncodeChar '\x00' = [0] := by decide
    rw [rest] at split
    generalize s.toList.takeWhile (· != '\x00') = front at split ⊢
    refine ⟨rest'.flatMap String.utf8EncodeChar ++ [0], ?_⟩
    simp only [← split, List.flatMap_append, List.flatMap_cons, zero, List.append_assoc,
      List.cons_append, List.nil_append]

variable {h g : Heap} {address : Nat} {s : String}

/-- A block with the bytes of a string is read as its text in front of a NUL. -/
theorem readString_eq_beforeNul (within : h.Accessible address (terminated s).length)
    (content : h.slice address (terminated s).length = terminated s) :
    readString address h = .ok (beforeNul s) h := by
  obtain ⟨rest, split⟩ := isPrefix_terminated_beforeNul s
  have length : (terminated s).length = (terminated (beforeNul s)).length + rest.length := by
    rw [← split, List.length_append]
  rw [length, slice_append, ← split] at content
  have front := (List.append_inj content (by simp)).1
  exact readString_eq (nul_not_mem_beforeNul s) ⟨within.1, by have := within.2; omega⟩ front

/-- A history that writes nothing to the bytes of a copy leaves it as it is. -/
theorem Copied.after {bytes : List UInt8} (copied : h.Copied g bytes address)
    {history : List HeapOperation}
    (outside : ∀ op ∈ history, ∀ x, address ≤ x → x < address + bytes.length → ¬ op.Overwrites x) :
    (g.after history).Accessible address bytes.length ∧
      (g.after history).slice address bytes.length = bytes := by
  have changes := changes_after g history
  have within := copied.accessible
  have same : (g.after history).slice address bytes.length = g.slice address bytes.length := by
    apply slice_congr
    intro x above below
    apply changes.byteAt_eq x (Nat.lt_of_lt_of_le below within.2)
    rintro ⟨op, listed, overwrites⟩
    exact outside op listed x above below overwrites
  exact ⟨⟨within.1, Nat.le_trans within.2 changes.size_le⟩, same.trans copied.slice_eq⟩

/-- Copying a string gives a block, unless the address space is too small for it, from which the
text in front of the first NUL character is read, and still is after any later operations that do
not write to the block. This text is the longest prefix of the string without a NUL, and all of a
string that has none. -/
theorem copies_of_strings (h : Heap) (s : String) :
    (duplicate s).Gives h
        (fun a g => g.Live ⟨a, s.utf8ByteSize + 1⟩ ∧ readString a g = .ok (beforeNul s) g ∧
          ∀ history : List HeapOperation,
            (∀ op ∈ history, ∀ x, a ≤ x → x < a + (s.utf8ByteSize + 1) → ¬ op.Overwrites x) →
              readString a (g.after history) = .ok (beforeNul s) (g.after history))
        (fun _ _ => False)
        (fun halt => halt = .exhausted ∧ capacity < h.size + s.utf8ByteSize + 1) ∧
      (beforeNul s).toList <+: s.toList ∧ '\x00' ∉ (beforeNul s).toList ∧
      (∀ front, front <+: s.toList → '\x00' ∉ front → front <+: (beforeNul s).toList) ∧
      ('\x00' ∉ s.toList → beforeNul s = s) := by
  have length := length_terminated s
  refine ⟨?_, isPrefix_beforeNul s, nul_not_mem_beforeNul s, fun _ => longest_beforeNul,
    beforeNul_eq_self⟩
  rw [duplicate, ← terminated]
  refine Action.Gives.mono (gives_allocBytes_unless fun full => ⟨rfl, ?_⟩) ?_ fun _ _ never => never
  · rw [length] at full
    omega
  · rintro a g ⟨copied, -⟩
    have reads : ∀ history : List HeapOperation,
        (∀ op ∈ history, ∀ x, a ≤ x → x < a + (s.utf8ByteSize + 1) → ¬ op.Overwrites x) →
          readString a (g.after history) = .ok (beforeNul s) (g.after history) := by
      intro history outside
      rw [← length] at outside
      obtain ⟨within, content⟩ := copied.after outside
      exact readString_eq_beforeNul within content
    have live := copied.grows.live (List.mem_singleton_self _)
    rw [length, Nat.max_eq_left (Nat.le_add_left 1 _)] at live
    exact ⟨live, reads [] (by simp), reads⟩

theorem copies_of_strings_freed :
    let history : List HeapOperation := [.free 16, .alloc 8 8, .write 24 [97, 98]]
    (∀ op ∈ history, ∀ x, 16 ≤ x → x < 16 + ("h\u00e9\x00!".utf8ByteSize + 1) → ¬ op.Overwrites x) ∧
      ∃ g, duplicate "h\u00e9\x00!" .empty = .ok 16 g ∧
        readString 16 (g.after history) = .ok "h\u00e9" (g.after history) := by
  intro history
  have outside : ∀ op ∈ history, ∀ x, 16 ≤ x → x < 16 + ("h\u00e9\x00!".utf8ByteSize + 1) →
      ¬ op.Overwrites x := by
    have length : "h\u00e9\x00!".utf8ByteSize = 5 := by decide
    simp only [history, List.forall_mem_cons, length, HeapOperation.Overwrites]
    simp
    omega
  have run : ∃ a g, duplicate "h\u00e9\x00!" .empty = .ok a g ∧ (a == 16) = true :=
    Action.exists_ok_such (fun a _ => a == 16) (by decide +kernel)
  obtain ⟨a, g, run, place⟩ := run
  obtain rfl : a = 16 := beq_iff_eq.1 place
  obtain ⟨-, -, reads⟩ := (copies_of_strings .empty "h\u00e9\x00!").1.of_ok run
  have cut : beforeNul "h\u00e9\x00!" = "h\u00e9" := by decide
  refine ⟨outside, g, run, ?_⟩
  rw [reads history outside, cut]

end Heap

end ForeignCall
