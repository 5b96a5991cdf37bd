import ForeignCall.Proofs.Heap.Bytes
import Mathlib.Data.List.Nodup
import Mathlib.Data.List.Perm.Basic

/-!
The blocks of a heap, and how a heap gains and loses them.

`Grows h g blocks`: `g` came from `h` by allocations of which exactly `blocks` are still live, and no
byte that `h` had was changed. `Sheds h g blocks`: `g` came from `h` by freeing exactly `blocks`, each
once. Both compose, and what is gained and then shed is as it was.
-/

set_option autoImplicit false

namespace ForeignCall

structure Block where
  address : Nat
  size : Nat
  deriving DecidableEq, Repr

def Block.stop (b : Block) : Nat := b.address + b.size

namespace Heap

variable {h g k : Heap} {b c : Block} {blocks more : List Block}

def Live (h : Heap) (b : Block) : Prop := h.blockSize? b.address = some b.size

theorem Live.inside (live : h.Live b) : guardSize ≤ b.address ∧ 0 < b.size ∧ b.stop ≤ h.size :=
  h.live_inside _ _ live

theorem Live.eq_of_address (live : h.Live b) (live' : h.Live c) (same : b.address = c.address) :
    b = c := by
  simp only [Live] at live live'
  rw [same, live'] at live
  cases b
  cases c
  simp_all

theorem Live.apart (live : h.Live b) (live' : h.Live c) (different : b ≠ c) :
    b.stop ≤ c.address ∨ c.stop ≤ b.address := by
  rcases Nat.lt_trichotomy b.address c.address with before | same | after
  · exact .inl (h.live_apart _ _ _ _ live live' before)
  · exact absurd (live.eq_of_address live' same) different
  · exact .inr (h.live_apart _ _ _ _ live' live after)

theorem Live.accessible (live : h.Live b) {address length : Nat} (above : b.address ≤ address)
    (below : address + length ≤ b.stop) : h.Accessible address length := by
  have inside := live.inside
  exact ⟨by omega, by omega⟩

theorem Live.accessible_start (live : h.Live b) {length : Nat} (within : length ≤ b.size) :
    h.Accessible b.address length :=
  live.accessible (Nat.le_refl _) (Nat.add_le_add_left within _)

theorem Live.lt_word (live : h.Live b) : b.stop < UInt64.size := by
  have inside := live.inside
  have := h.size_le_capacity
  have := capacity_lt
  omega

theorem Live.toNat_ofNat (live : h.Live b) : (Slot.ofNat b.address).toNat = b.address :=
  Slot.toNat_ofNat (Nat.lt_of_le_of_lt (Nat.le_add_right _ _) live.lt_word)

theorem Live.isNull_ofNat (live : h.Live b) : (Slot.ofNat b.address).isNull = false := by
  have inside := live.inside
  simp only [guardSize] at inside
  rw [Slot.isNull, live.toNat_ofNat, beq_eq_false_iff_ne]
  omega

theorem isLive_iff {a : Nat} : h.isLive a = true ↔ ∃ n, h.Live ⟨a, n⟩ := by
  simp only [isLive, Live, blockSize?, Std.TreeMap.contains_eq_isSome_getElem?,
    Option.isSome_iff_exists]

theorem blockSize?_eq_of_live_iff (same : ∀ b, g.Live b ↔ h.Live b) :
    g.blockSize? = h.blockSize? := by
  funext a
  have at_a := fun n => same ⟨a, n⟩
  simp only [Live] at at_a
  exact Option.ext fun n => at_a n

/-! ### Gaining blocks -/

/-- The address space did not shrink, and the bytes it had are the same. -/
structure Prolongs (h g : Heap) : Prop where
  size_le : h.size ≤ g.size
  byteAt_eq : ∀ x < h.size, g.byteAt x = h.byteAt x

theorem Prolongs.refl (h : Heap) : h.Prolongs h := ⟨Nat.le_refl _, fun _ _ => rfl⟩

theorem Prolongs.trans (first : h.Prolongs g) (second : g.Prolongs k) : h.Prolongs k where
  size_le := Nat.le_trans first.size_le second.size_le
  byteAt_eq x old := by
    rw [second.byteAt_eq x (Nat.lt_of_lt_of_le old first.size_le), first.byteAt_eq x old]

theorem Prolongs.slotAt_eq (prolongs : h.Prolongs g) {address size : Nat}
    (inside : address + size ≤ h.size) : g.slotAt address size = h.slotAt address size :=
  slotAt_congr fun x _ _ => prolongs.byteAt_eq x (by omega)

structure Grows (h g : Heap) (blocks : List Block) : Prop extends h.Prolongs g where
  live_iff : ∀ b, g.Live b ↔ h.Live b ∨ b ∈ blocks
  fresh : ∀ b ∈ blocks, h.size ≤ b.address
  nodup : blocks.Nodup

theorem Grows.refl (h : Heap) : h.Grows h [] where
  toProlongs := .refl h
  live_iff b := by simp
  fresh := by simp
  nodup := .nil

theorem Grows.live (grows : h.Grows g blocks) (new : b ∈ blocks) : g.Live b :=
  (grows.live_iff b).2 (.inr new)

theorem Grows.keeps_live (grows : h.Grows g blocks) (old : h.Live b) : g.Live b :=
  (grows.live_iff b).2 (.inl old)

theorem Grows.not_live (grows : h.Grows g blocks) (new : b ∈ blocks) : ¬ h.Live b := by
  intro old
  have inside := old.inside
  have fresh := grows.fresh b new
  simp only [Block.stop] at inside
  omega

theorem Grows.trans (first : h.Grows g blocks) (second : g.Grows k more) :
    h.Grows k (blocks ++ more) where
  toProlongs := first.toProlongs.trans second.toProlongs
  live_iff b := by rw [second.live_iff, first.live_iff, List.mem_append, or_assoc]
  fresh b new := by
    rcases List.mem_append.1 new with earlier | later
    · exact first.fresh b earlier
    · exact Nat.le_trans first.size_le (second.fresh b later)
  nodup := by
    apply first.nodup.append second.nodup
    intro b earlier later
    exact second.not_live later (first.live earlier)

theorem Grows.perm (grows : h.Grows g blocks) (same : blocks.Perm more) : h.Grows g more where
  toProlongs := grows.toProlongs
  live_iff b := by rw [grows.live_iff, same.mem_iff]
  fresh b new := grows.fresh b (same.mem_iff.2 new)
  nodup := same.nodup_iff.1 grows.nodup

theorem Grows.extend {start size : Nat} (after : h.size ≤ start) (positive : 0 < size)
    (room : start + size ≤ capacity) :
    h.Grows (h.extend start size after positive room) [⟨start, size⟩] where
  size_le := by rw [size_extend]; omega
  byteAt_eq x _ := byteAt_extend after positive room x
  live_iff b := by
    rw [Live, blockSize?_extend, List.mem_singleton]
    constructor
    · intro found
      split at found
      · rename_i same
        simp only [Option.some.injEq] at found
        exact .inr (by cases b; simp_all)
      · exact .inl found
    · rintro (old | rfl)
      · have inside := old.inside
        simp only [Block.stop] at inside
        rw [if_neg (by omega)]
        exact old
      · rw [if_pos rfl]
  fresh b new := by
    rw [List.mem_singleton.1 new]
    exact after
  nodup := List.nodup_singleton _

theorem Grows.overwritten (grows : h.Grows g blocks) {address : Nat} {bytes : List UInt8}
    (within : g.Accessible address bytes.length) (beyond : h.size ≤ address) :
    h.Grows (g.overwritten address bytes) blocks where
  size_le := by rw [size_overwritten]; exact grows.size_le
  byteAt_eq x old := by
    rw [byteAt_overwritten within, if_neg (by omega)]
    exact grows.byteAt_eq x old
  live_iff := grows.live_iff
  fresh := grows.fresh
  nodup := grows.nodup

theorem Grows.blockSize?_eq (grows : h.Grows g []) : g.blockSize? = h.blockSize? :=
  blockSize?_eq_of_live_iff fun b => by simp [grows.live_iff b]

theorem Grows.blockSize?_eq_iff (grows : h.Grows g blocks) :
    g.blockSize? = h.blockSize? ↔ blocks = [] := by
  constructor
  · intro same
    refine List.eq_nil_iff_forall_not_mem.2 fun b new => grows.not_live new ?_
    have live := grows.live new
    rwa [Live, same] at live
  · rintro rfl
    exact grows.blockSize?_eq

/-- No byte that `h` had was changed and no block of `h` was freed. -/
structure Retains (h g : Heap) : Prop extends h.Prolongs g where
  keeps_live : ∀ {b}, h.Live b → g.Live b

theorem Grows.retains (grows : h.Grows g blocks) : h.Retains g :=
  ⟨grows.toProlongs, grows.keeps_live⟩

theorem Retains.refl (h : Heap) : h.Retains h := (Grows.refl h).retains

theorem Retains.trans (first : h.Retains g) (second : g.Retains k) : h.Retains k where
  toProlongs := first.toProlongs.trans second.toProlongs
  keeps_live live := second.keeps_live (first.keeps_live live)

/-- A write above what a heap had changes nothing of it. -/
theorem Retains.overwritten (retains : h.Retains g) {address : Nat} {bytes : List UInt8}
    (within : g.Accessible address bytes.length) (beyond : h.size ≤ address) :
    h.Retains (g.overwritten address bytes) where
  size_le := by
    rw [size_overwritten]
    exact retains.size_le
  byteAt_eq x old := by
    rw [byteAt_overwritten within, if_neg (by omega)]
    exact retains.byteAt_eq x old
  keeps_live := retains.keeps_live

/-! ### Losing blocks -/

structure Sheds (h g : Heap) (blocks : List Block) : Prop where
  bytes_eq : g.bytes = h.bytes
  live_iff : ∀ b, g.Live b ↔ h.Live b ∧ b ∉ blocks
  held : ∀ b ∈ blocks, h.Live b
  nodup : blocks.Nodup

theorem Sheds.refl (h : Heap) : h.Sheds h [] where
  bytes_eq := rfl
  live_iff b := by simp
  held := by simp
  nodup := .nil

theorem Sheds.size_eq (sheds : h.Sheds g blocks) : g.size = h.size :=
  congrArg Array.size sheds.bytes_eq

theorem Sheds.byteAt_eq (sheds : h.Sheds g blocks) : g.byteAt = h.byteAt :=
  byteAt_of_bytes_eq sheds.bytes_eq

theorem Sheds.keeps_live (sheds : h.Sheds g blocks) (old : h.Live b) (kept : b ∉ blocks) :
    g.Live b := (sheds.live_iff b).2 ⟨old, kept⟩

theorem Sheds.trans (first : h.Sheds g blocks) (second : g.Sheds k more) :
    h.Sheds k (blocks ++ more) where
  bytes_eq := second.bytes_eq.trans first.bytes_eq
  live_iff b := by
    rw [second.live_iff, first.live_iff, List.mem_append, not_or, and_assoc]
  held b gone := by
    rcases List.mem_append.1 gone with earlier | later
    · exact first.held b earlier
    · exact ((first.live_iff b).1 (second.held b later)).1
  nodup := by
    apply first.nodup.append second.nodup
    intro b earlier later
    exact ((first.live_iff b).1 (second.held b later)).2 earlier

theorem Sheds.perm (sheds : h.Sheds g blocks) (same : blocks.Perm more) : h.Sheds g more where
  bytes_eq := sheds.bytes_eq
  live_iff b := by rw [sheds.live_iff, same.mem_iff]
  held b gone := sheds.held b (same.mem_iff.2 gone)
  nodup := same.nodup_iff.1 sheds.nodup

theorem Sheds.drop (live : h.Live b) (listed : h.live.contains b.address) :
    h.Sheds (h.drop b.address listed) [b] where
  bytes_eq := rfl
  live_iff c := by
    simp only [Live, blockSize?, Heap.drop, Std.TreeMap.getElem?_erase,
      Std.LawfulEqCmp.compare_eq_iff_eq, List.mem_singleton]
    constructor
    · intro found
      split at found
      · cases found
      · rename_i other
        exact ⟨found, fun same => other (same ▸ rfl)⟩
    · rintro ⟨found, other⟩
      rw [if_neg fun same => other (Live.eq_of_address found live same.symm)]
      exact found
  held c gone := by rwa [List.mem_singleton.1 gone]
  nodup := List.nodup_singleton _

theorem free_eq (live : h.Live b) : ∃ g, free b.address h = .ok () g ∧ h.Sheds g [b] := by
  have listed : h.live.contains b.address = true := isLive_iff.2 ⟨b.size, live⟩
  have nonzero : b.address ≠ 0 := by
    have inside := live.inside
    simp only [guardSize] at inside
    omega
  exact ⟨_, by rw [free, if_neg nonzero, dif_pos listed], .drop live listed⟩

theorem Grows.sheds (grows : h.Grows g (blocks ++ more)) (sheds : g.Sheds k blocks) :
    h.Grows k more where
  size_le := by rw [sheds.size_eq]; exact grows.size_le
  byteAt_eq x old := by rw [sheds.byteAt_eq]; exact grows.byteAt_eq x old
  live_iff b := by
    rw [sheds.live_iff, grows.live_iff, List.mem_append]
    constructor
    · rintro ⟨old | gone | new, kept⟩
      · exact .inl old
      · exact absurd gone kept
      · exact .inr new
    · rintro (old | new)
      · exact ⟨.inl old, fun gone => grows.not_live (List.mem_append_left _ gone) old⟩
      · exact ⟨.inr (.inr new), fun gone =>
          List.disjoint_of_nodup_append grows.nodup gone new⟩
  fresh b new := grows.fresh b (List.mem_append_right _ new)
  nodup := (List.nodup_append.1 grows.nodup).2.1

theorem Grows.sheds_all (grows : h.Grows g blocks) (sheds : g.Sheds k blocks) : h.Grows k [] :=
  Grows.sheds (by rwa [List.append_nil]) sheds

theorem Sheds.prolongs (sheds : h.Sheds g blocks) : h.Prolongs g :=
  ⟨Nat.le_of_eq sheds.size_eq.symm, fun _ _ => by rw [sheds.byteAt_eq]⟩

/-! ### Losing and gaining -/

/-- `g` came from `h` by losing and gaining blocks, and no byte that `h` had was changed. -/
structure Trades (h g : Heap) (lost gained : List Block) : Prop extends h.Prolongs g where
  live_iff : ∀ b, g.Live b ↔ h.Live b ∧ b ∉ lost ∨ b ∈ gained
  fresh : ∀ b ∈ gained, h.size ≤ b.address

theorem Trades.refl (h : Heap) : h.Trades h [] [] where
  toProlongs := .refl h
  live_iff b := by simp
  fresh := by simp

variable {lost gained : List Block}

theorem Trades.not_live (trades : h.Trades g lost gained) (new : b ∈ gained) : ¬ h.Live b := by
  intro old
  have inside := old.inside
  have fresh := trades.fresh b new
  simp only [Block.stop] at inside
  omega

theorem Trades.grows (trades : h.Trades g lost gained) (grows : g.Grows k more) :
    h.Trades k lost (gained ++ more) where
  toProlongs := trades.toProlongs.trans grows.toProlongs
  live_iff b := by rw [grows.live_iff, trades.live_iff, List.mem_append, or_assoc]
  fresh b new := by
    rcases List.mem_append.1 new with earlier | later
    · exact trades.fresh b earlier
    · exact Nat.le_trans trades.size_le (grows.fresh b later)

theorem Trades.sheds (trades : h.Trades g lost gained) (sheds : g.Sheds k more)
    (old : ∀ b ∈ more, h.Live b) : h.Trades k (lost ++ more) gained where
  toProlongs := trades.toProlongs.trans sheds.prolongs
  live_iff b := by
    have apart : b ∈ gained → b ∉ more := fun new gone => trades.not_live new (old b gone)
    rw [sheds.live_iff, trades.live_iff, List.mem_append, not_or]
    grind
  fresh := trades.fresh

/-! ### Copies -/

/-- `g` has a copy of the bytes in a new block at `address`. -/
structure Copied (h g : Heap) (bytes : List UInt8) (address : Nat) : Prop where
  grows : h.Grows g [⟨address, max bytes.length 1⟩]
  accessible : g.Accessible address bytes.length
  slice_eq : g.slice address bytes.length = bytes

theorem gives_allocBytes_unless {bytes : List UInt8} {align : Nat}
    {failed : HeapFault → Heap → Prop} {halted : Halt → Prop}
    (full : capacity < h.size + (max align 1 - 1) + max bytes.length 1 → halted .exhausted) :
    (allocBytes bytes align).Gives h
      (fun a g => h.Copied g bytes a ∧ g.size ≤ h.size + (max align 1 - 1) + max bytes.length 1)
      failed halted := by
  rw [allocBytes, Action.gives_bind]
  apply gives_alloc_unless _ full
  intro start after positive room near
  have gained := Grows.extend after positive room
  have within := (gained.live (List.mem_singleton_self _)).accessible_start
    (Nat.le_max_left bytes.length 1)
  rw [Action.gives_bind]
  refine Action.gives_of_ok (write_eq within)
    ⟨⟨gained.overwritten within after, ?_, slice_overwritten within⟩, ?_⟩
  · simpa only [Accessible, size_overwritten] using within
  · rw [size_overwritten, size_extend]
    omega

theorem gives_allocBytes {bytes : List UInt8} {align : Nat} {failed : HeapFault → Heap → Prop} :
    (allocBytes bytes align).Gives h
      (fun a g => ∃ n, h.Grows g [⟨a, n⟩]) failed :=
  Action.Gives.mono (gives_allocBytes_unless fun _ => rfl) (fun _ _ made => ⟨_, made.1.grows⟩)
    fun _ _ never => never

theorem gives_copyBlock {address size : Nat} :
    (copyBlock address size).Gives h (fun a g => ∃ n, h.Grows g [⟨a, n⟩])
      (fun _ g => h.Grows g []) := by
  rw [copyBlock, Action.gives_bind]
  exact gives_read (fun _ => gives_allocBytes) fun _ => .refl h

end Heap

end ForeignCall
