import ForeignCall.Proofs.Conversion.Reading
import ForeignCall.Proofs.Ownership.Lowering

/-!
Terminators of arrays of strings.

While strings are packed into a buffer, the slots so far are not null and the rest of the buffer is
zero. So the one element that a zero-terminated array has more marks its end, and a pass that is not
told the count finds it. What strings, and lists and arrays of them, own is found in this way unless the
array has its length from elsewhere.
-/

set_option autoImplicit false

namespace ForeignCall

open ForeignCall.Action

variable {h g : Heap} {b : Block} {count : Nat} {d element : Descriptor} {env : Environment}

/-- The buffer `b` begins with `count` slots that are not null, and is zero behind them. -/
structure Heap.Marked (h : Heap) (b : Block) (count : Nat) : Prop where
  live : h.Live b
  marked : ∀ i < count, (h.slotAt (b.address + i * pointerSize) pointerSize).isNull = false
  blank : ∀ x, b.address + count * pointerSize ≤ x → x < b.stop → h.byteAt x = 0

namespace Heap.Marked

theorem start {start size : Nat} (after : h.size ≤ start) (positive : 0 < size)
    (room : start + size ≤ Heap.capacity) :
    (h.extend start size after positive room).Marked ⟨start, size⟩ 0 where
  live := (Heap.Grows.extend after positive room).live (List.mem_singleton_self _)
  marked i below := absurd below (Nat.not_lt_zero i)
  blank x above _ := by
    rw [Nat.zero_mul, Nat.add_zero] at above
    rw [Heap.byteAt_extend]
    exact Heap.byteAt_of_size_le (Nat.le_trans after above)

theorem retained (marked : h.Marked b count) (room : count * pointerSize ≤ b.size)
    (retains : h.Retains g) : g.Marked b count := by
  have inside := marked.live.inside.2.2
  simp only [Block.stop] at inside
  refine ⟨retains.keeps_live marked.live, fun i below => ?_, fun x above below => ?_⟩
  · have reach : (i + 1) * pointerSize ≤ count * pointerSize := Nat.mul_le_mul_right _ below
    rw [Nat.add_one_mul] at reach
    rw [Heap.slotAt_congr fun x _ under => retains.byteAt_eq x (by omega)]
    exact marked.marked i below
  · rw [retains.byteAt_eq x (Nat.lt_of_lt_of_le below marked.live.inside.2.2)]
    exact marked.blank x above below

theorem put (marked : h.Marked b count) (room : (count + 1) * pointerSize ≤ b.size) {slot : Slot}
    (some : slot.isNull = false) :
    (h.overwritten (b.address + count * pointerSize) (slot.toBytes 8)).Marked b (count + 1) := by
  rw [Nat.add_one_mul] at room
  have within : h.Accessible (b.address + count * pointerSize) 8 :=
    marked.live.accessible (Nat.le_add_right _ _) (by
      simp only [Block.stop]
      simp only [pointerSize] at room ⊢
      omega)
  have length : (slot.toBytes 8).length = 8 := Slot.length_toBytes slot 8
  have apart (x : Nat) (outside : x < b.address + count * pointerSize ∨
      b.address + (count + 1) * pointerSize ≤ x) :
      (h.overwritten (b.address + count * pointerSize) (slot.toBytes 8)).byteAt x = h.byteAt x := by
    rw [Nat.add_one_mul] at outside
    rw [Heap.byteAt_overwritten (by rwa [length]), length, if_neg]
    simp only [pointerSize] at outside ⊢
    omega
  refine ⟨?_, fun i below => ?_, fun x above below => ?_⟩
  · rw [Heap.Live, Heap.blockSize?_overwritten]
    exact marked.live
  · rcases Nat.lt_succ_iff_lt_or_eq.1 below with earlier | rfl
    · have reach : (i + 1) * pointerSize ≤ count * pointerSize := Nat.mul_le_mul_right _ earlier
      rw [Nat.add_one_mul] at reach
      rw [Heap.slotAt_congr fun x _ under => apart x (.inl (by omega))]
      exact marked.marked i earlier
    · have stored := Heap.slotAt_stored slot within
      change (Heap.slotAt _ _ 8).isNull = false
      rw [stored]
      exact some
  · rw [apart x (.inr above)]
    rw [Nat.add_one_mul] at above
    exact marked.blank x (by omega) below

theorem terminated (marked : h.Marked b count) (room : (count + 1) * pointerSize ≤ b.size) :
    h.Terminated b count where
  guarded := marked.live.inside.1
  inside := marked.live.inside.2.2
  room := room
  marked := marked.marked
  ended x above below := marked.blank x above (by simp only [Block.stop]; omega)

end Heap.Marked

/-- Whatever slot the action gives is not null, and no block was freed or changed for it. -/
def Marks (x : ConversionM Slot) : Prop :=
  ∀ m, x.Gives m (fun slot t => slot.isNull = false ∧ m.heap.Retains t.heap) (fun _ _ => True)

variable {r : Repository} {lowerItem : Value → ConversionM Slot} {items : List Value} {m : Memory}

theorem putItem_marks (marks : ∀ v, Marks (lowerItem v)) (pointers : element.size = pointerSize)
    (stored : element.isInlineStruct = false) (v : Value) (marked : m.heap.Marked b count)
    (room : (count + 1) * pointerSize ≤ b.size) :
    (putItem r element lowerItem (b.address + count * element.size) v).Gives m
      (fun _ t => t.heap.Marked b (count + 1)) (fun _ _ => True) := by
  have reach := room
  rw [Nat.add_one_mul] at reach
  rw [putItem, if_neg (by simp [stored]), pointers, gives_bind]
  refine (marks v m).mono ?_ fun _ _ _ => trivial
  rintro slot t ⟨some, retains⟩
  have kept := marked.retained (by omega) retains
  have within : t.heap.Accessible (b.address + count * pointerSize) (min pointerSize 8) :=
    kept.live.accessible (Nat.le_add_right _ _) (by
      simp only [Block.stop]
      simp only [pointerSize] at reach ⊢
      omega)
  rw [gives_touch]
  exact gives_of_ok (Heap.store_eq slot within) (kept.put room some)

theorem packItems_marks (marks : ∀ v, Marks (lowerItem v)) (pointers : element.size = pointerSize)
    (stored : element.isInlineStruct = false) (marked : m.heap.Marked b count)
    (room : (count + items.length) * pointerSize ≤ b.size) :
    (packItems element b.address (putItem r element lowerItem) count items).Gives m
      (fun _ t => t.heap.Marked b (count + items.length)) (fun _ _ => True) fun _ => True := by
  induction items generalizing m count with
  | nil => exact marked
  | cons item rest ih =>
    have longer : count + 1 + rest.length = count + (item :: rest).length := by
      simp only [List.length_cons]
      omega
    have fits : (count + 1) * pointerSize ≤ b.size :=
      Nat.le_trans (Nat.mul_le_mul_right _ (by simp)) room
    rw [packItems, gives_bind, gives_attempt]
    refine (putItem_marks marks pointers stored item marked fits).partly.mono (fun _ t next => ?_)
      fun e t _ => ?_
    · have later := ih next (by rwa [longer])
      rwa [longer] at later
    · dsimp only
      rw [gives_bind]
      refine (gives_anyhow _ t).mono (fun _ u _ => ?_) fun _ _ _ => trivial
      rw [gives_bind]
      exact (gives_anyhow _ u).mono (fun _ _ _ => trivial) fun _ _ _ => trivial

/-- The array gets its own buffer, with the terminator behind its elements. -/
theorem packArray_marks {form : ArrayForm} {nullable : Bool} {v : Value}
    (marks : ∀ v, Marks (lowerItem v)) (pointers : element.size = pointerSize)
    (stored : element.isInlineStruct = false) :
    (packArray r d element .zeroTerminated form lowerItem v nullable).Gives m
      (fun packed t => packed.1.isNull = false →
        ∃ b : Block, b.address = packed.1.toNat ∧ t.heap.Live b ∧ t.heap.Terminated b packed.2)
      (fun _ _ => True) fun _ => True := by
  refine gives_packArray (fun _ some => by cases some) (fun _ => trivial) trivial ?_
  rintro items rfl - start after positive room
  have enough : (items.length + 1) * pointerSize ≤
      max ((items.length + if ArrayLength.zeroTerminated = .zeroTerminated then 1 else 0) *
        element.size) 1 := by
    rw [if_pos rfl, pointers]
    exact Nat.le_max_left _ 1
  have begun := Heap.Marked.start after positive room
  refine (packItems_marks (m := { m with heap := _ }) marks pointers stored begun ?_).mono ?_
    fun _ _ _ => trivial
  · rw [Nat.zero_add]
    exact Nat.le_trans (Nat.mul_le_mul_right _ (Nat.le_succ _)) enough
  · rintro _ t marked
    rw [Nat.zero_add] at marked
    exact fun _ => ⟨_, marked.live.toNat_ofNat.symm, marked.live, marked.terminated enough⟩

theorem lower_string_marks {filename pointer : Bool} (v : Value) :
    Marks (lower env (.basic (.string filename) pointer) v false) := by
  intro m
  unfold lower
  split
  · exact trivial
  · dsimp only
    split
    · rw [gives_bind, gives_touch]
      refine Heap.gives_allocBytes.mono ?_ fun _ _ (never : False) => never.elim
      rintro a g ⟨n, grows⟩
      exact ⟨(grows.live (List.mem_singleton_self _)).isNull_ofNat, grows.retains⟩
    · exact trivial

/-- Strings, and lists and arrays of them. -/
def Descriptor.isOfStrings : Descriptor → Bool
  | .basic (.string _) _ | .list (.basic (.string _) _) _ _
  | .array (.basic (.string _) _) _ _ _ => true
  | _ => false

theorem lower_terminated {filename inner pointer nullable : Bool} {form : ArrayForm} (v : Value)
    (m : Memory) :
    let d := Descriptor.array (.basic (.string filename) inner) .zeroTerminated form pointer
    (lower env d v nullable).Gives m
      (fun slot t => ∃ n f, Owns t.heap d slot n f ∧ m.heap.Grows t.heap f.all ∧
        d.Ended t.heap slot n f)
      (fun _ t => m.heap.Grows t.heap []) := by
  intro d
  by_cases nullish : (v.isNullish && !isBoolean d) = true
  · rw [lower_nullish nullish]
    split
    · exact ⟨0, .empty, owns_empty_of_null rfl, .refl _, .inl rfl⟩
    · exact Heap.Grows.refl _
  · rw [lower, if_neg nullish, gives_bind]
    have strings (item : Value) : Lowers (lower env (.basic (.string filename) inner) item false)
        (.basic (.string filename) inner) _ := lower_basic_lowers
    refine ((packArray_gives pointer strings rfl).both (packArray_marks lower_string_marks rfl rfl)).mono
      ?_ fun _ _ step => step.1
    rintro ⟨slot, count⟩ t ⟨⟨f, owns, grows, -⟩, marks⟩
    refine ⟨count, f, owns, grows, ?_⟩
    cases null : slot.isNull with
    | true => exact .inl null
    | false =>
      obtain ⟨b, start, live, terminated⟩ := marks null
      obtain ⟨b', parts, start', rfl, -⟩ := (owns_array null).1 owns
      have same : b' = b :=
        (grows.live (by simp [Footprint.all])).eq_of_address live (start'.trans start.symm)
      subst same
      exact .inr (.inr (.inr ⟨rfl, b', List.mem_singleton_self _, start, terminated⟩))

/-- What is lowered owns exactly the blocks that were taken for it, and unless the count of an array has to
come from elsewhere, nobody needs to be told it. -/
theorem lower_strings (strings : d.isOfStrings = true) (v : Value) (nullable : Bool) (m : Memory) :
    (lower env d v nullable).Gives m
      (fun slot t => ∃ n f, Owns t.heap d slot n f ∧ m.heap.Grows t.heap f.all ∧
        (d.isSelfSized = true → d.Ended t.heap slot n f))
      (fun _ t => m.heap.Grows t.heap []) := by
  have lowers (measured : d.isMeasuredWithin = true) (ended : ∀ h slot n f,
      d.isSelfSized = true → d.Ended h slot n f) :
      (lower env d v nullable).Gives m
        (fun slot t => ∃ n f, Owns t.heap d slot n f ∧ m.heap.Grows t.heap f.all ∧
          (d.isSelfSized = true → d.Ended t.heap slot n f))
        (fun _ t => m.heap.Grows t.heap []) := by
    refine (lower_lowers measured nullable v m).mono ?_ fun _ _ grows => grows
    rintro slot t ⟨n, f, owns, grows, -⟩
    exact ⟨n, f, owns, grows, ended t.heap slot n f⟩
  unfold Descriptor.isOfStrings at strings
  split at strings
  · exact lowers rfl fun _ _ _ _ _ => trivial
  · exact lowers rfl fun _ _ _ _ _ => trivial
  · rename_i filename inner mode form pointer
    by_cases ended : mode = .zeroTerminated
    · subst ended
      refine (lower_terminated v m).mono ?_ fun _ _ grows => grows
      rintro slot t ⟨n, f, owns, grows, ended⟩
      exact ⟨n, f, owns, grows, fun _ => ended⟩
    · refine lowers rfl fun h slot n f sized => .inr (.inr (.inl ?_))
      simpa [Descriptor.isSelfSized, ended] using sized
  · cases strings

end ForeignCall
