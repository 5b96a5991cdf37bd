import ForeignCall.Proofs.Conversion.Steps
import ForeignCall.Proofs.Ownership.Release

/-!
Filling buffers: what a buffer owns while a script array is packed into it.

It grows by one element at a time. When an element cannot be lowered, what the buffer owns so far is
released, so that a failure leaves no block behind.
-/

set_option autoImplicit false

namespace ForeignCall

open Heap (Frees)

variable {h g k : Heap} {b : Block} {parts : List Footprint} {p : Footprint}
  {d element : Descriptor} {slot : Slot} {count : Nat} {f : Footprint}

/-! ### Frames -/

theorem Owns.of_grows {blocks : List Block} (owns : Owns g d slot count f)
    (grows : g.Grows k blocks) (live : ∀ c ∈ f.all, g.Live c) : Owns k d slot count f :=
  owns.frame grows.size_le fun c listed x _ below =>
    grows.byteAt_eq x (Nat.lt_of_lt_of_le below (live c listed).inside.2.2)

theorem OwnsItem.of_grows {blocks : List Block} (owns : OwnsItem g d slot f)
    (grows : g.Grows k blocks) (live : ∀ c ∈ f.all, g.Live c) : OwnsItem k d slot f :=
  owns.frame grows.size_le fun c listed x _ below =>
    grows.byteAt_eq x (Nat.lt_of_lt_of_le below (live c listed).inside.2.2)

theorem OwnsItem.of_overwritten {address : Nat} {bytes : List UInt8} (owns : OwnsItem g d slot f)
    (live : ∀ c ∈ f.all, g.Live c) (other : g.Live b) (apart : b ∉ f.all)
    (above : b.address ≤ address) (below : address + bytes.length ≤ b.stop) :
    OwnsItem (g.overwritten address bytes) d slot f := by
  apply owns.frame (by simp)
  intro c listed x from_c to_c
  rw [Heap.byteAt_overwritten (other.accessible above below), if_neg]
  intro written
  rcases (live c listed).apart other (fun same => apart (same ▸ listed)) with before | after
  · omega
  · omega

@[simp] theorem Descriptor.isInlineStruct_structured (size : Option Nat) (byValue pointer : Bool)
    (name : String) :
    (Descriptor.named (.structured size byValue) name pointer).isInlineStruct =
      (byValue && !pointer) := by
  cases byValue <;> cases pointer <;> rfl

theorem isInlineStruct_of_holds (holds : elementHoldsMemory element false = true) :
    element.isInlineStruct = false := by
  unfold elementHoldsMemory at holds
  split at holds <;> simp_all [Descriptor.isInlineStruct]

/-- Elements that neither hold memory nor are stored inline own nothing, whatever their slot is. -/
theorem owns_empty_of_bare (bare : elementHoldsMemory element false = false)
    (stored : element.isInlineStruct = false) (slot : Slot) (count : Nat) :
    Owns h element slot count .empty := by
  unfold Owns
  split
  · rfl
  · split <;> simp_all [elementHoldsMemory]

theorem ownsItem_empty_of_bare (bare : elementHoldsMemory element false = false)
    (stored : element.isInlineStruct = false) (slot : Slot) : OwnsItem h element slot .empty := by
  refine ⟨0, owns_empty_of_bare bare stored slot 0, ?_⟩
  cases element with
  | array => cases bare
  | _ => trivial

theorem Owns.eq_empty_of_bare (owns : Owns h element slot count f)
    (bare : elementHoldsMemory element false = false) (stored : element.isInlineStruct = false) :
    f = .empty := by
  cases null : slot.isNull with
  | true => exact (owns_null null).1 owns
  | false =>
    unfold Owns at owns
    rw [if_neg (by simp [null])] at owns
    split at owns <;> simp_all only [elementHoldsMemory, Bool.true_eq_false]
    rw [Descriptor.isInlineStruct_structured] at stored
    simpa only [stored, Bool.false_eq_true, if_false] using owns

theorem Packed.snoc {item : Slot → Footprint → Prop} {size base position : Nat}
    (packed : Packed h item size base position parts)
    (last : item (h.slotAt (base + (position + parts.length) * size) size) p) :
    Packed h item size base position (parts ++ [p]) := by
  induction parts generalizing position with
  | nil => exact ⟨last, trivial⟩
  | cons q rest ih =>
    refine ⟨packed.1, ih packed.2 ?_⟩
    simpa only [List.length_cons, Nat.add_assoc, Nat.add_comm 1] using last

/-- What is packed in a buffer stays there when a slot is put behind it. -/
theorem Packed.put {item item' : Slot → Footprint → Prop} {size : Nat} {bytes : List UInt8}
    (packed : Packed g item size b.address 0 parts) (live : g.Live b) (prolongs : g.Prolongs k)
    (room : (parts.length + 1) * size ≤ b.size)
    (within : k.Accessible (b.address + parts.length * size) bytes.length)
    (items : ∀ q ∈ parts, ∀ s, item s q → item' s q)
    (last : item' ((k.overwritten (b.address + parts.length * size) bytes).slotAt
      (b.address + parts.length * size) size) p) :
    Packed (k.overwritten (b.address + parts.length * size) bytes) item' size b.address 0
      (parts ++ [p]) := by
  have inside := live.inside
  rw [Nat.add_one_mul] at room
  simp only [Block.stop] at inside
  apply Packed.snoc
  · refine packed.frame (fun x _ below => ?_) items
    rw [Nat.zero_add] at below
    rw [Heap.byteAt_overwritten within, if_neg (by omega), prolongs.byteAt_eq x (by omega)]
  · rwa [Nat.zero_add]

/-! ### Buffers -/

/-- `g` came from `h` by filling the buffer `b` with values that own `parts`. -/
structure Buffer (h g : Heap) (element : Descriptor) (b : Block) (parts : List Footprint) :
    Prop where
  grows : h.Grows g (parts.flatMap (·.all) ++ [b])
  packed : element.isInlineStruct = false →
    Packed g (OwnsItem g element) element.size b.address 0 parts
  bare : elementHoldsMemory element false = false → ∀ p ∈ parts, p = .empty
  room : parts.length * element.size ≤ b.size

namespace Buffer

theorem start (grows : h.Grows g [b]) : Buffer h g element b [] where
  grows := grows
  packed _ := trivial
  bare _ := by simp
  room := by simp

theorem live (buffer : Buffer h g element b parts) : g.Live b :=
  buffer.grows.live (by simp)

theorem live_part (buffer : Buffer h g element b parts) (listed : p ∈ parts) :
    ∀ c ∈ p.all, g.Live c := fun _ part =>
  buffer.grows.live (List.mem_append_left _ (List.mem_flatMap.2 ⟨p, listed, part⟩))

theorem not_mem_part (buffer : Buffer h g element b parts) (listed : p ∈ parts) : b ∉ p.all := by
  intro part
  have shared := List.disjoint_of_nodup_append buffer.grows.nodup
  exact shared (List.mem_flatMap.2 ⟨p, listed, part⟩) (by simp)

theorem put {bytes : List UInt8} (buffer : Buffer h g element b parts)
    (grows : g.Grows k p.all)
    (room : (parts.length + 1) * element.size ≤ b.size) (short : bytes.length ≤ element.size)
    (holding : elementHoldsMemory element false = true →
      ∃ slot, bytes = slot.toBytes 8 ∧ OwnsItem k element slot p)
    (bare : elementHoldsMemory element false = false → p = .empty) :
    Buffer h (k.overwritten (b.address + parts.length * element.size) bytes) element b
      (parts ++ [p]) := by
  have next := room
  rw [Nat.add_one_mul] at room
  have live := grows.keeps_live buffer.live
  have above : b.address ≤ b.address + parts.length * element.size := Nat.le_add_right _ _
  have below : b.address + parts.length * element.size + bytes.length ≤ b.stop := by
    simp only [Block.stop]
    omega
  have within := live.accessible above below
  have fresh : h.size ≤ b.address := buffer.grows.fresh b (by simp)
  refine ⟨?_, fun stored => ?_, fun none q listed => ?_, ?_⟩
  · refine ((buffer.grows.trans grows).perm ?_).overwritten within (by omega)
    simp only [List.flatMap_append, List.flatMap_cons, List.flatMap_nil, List.append_nil,
      List.append_assoc]
    exact (List.perm_append_comm).append_left _
  · refine (buffer.packed stored).put buffer.live grows.toProlongs next within
      (fun q listed s item => ?_) ?_
    · have kept := item.of_grows grows (buffer.live_part listed)
      refine kept.of_overwritten (fun c part => ?_) live (buffer.not_mem_part listed) above below
      exact grows.keeps_live (buffer.live_part listed c part)
    · cases holds : elementHoldsMemory element false with
      | true =>
        obtain ⟨slot, rfl, owned⟩ := holding holds
        rw [size_of_elementHoldsMemory holds, pointerSize] at within below above ⊢
        rw [Slot.length_toBytes] at within
        rw [Heap.slotAt_stored slot within]
        refine owned.of_overwritten (fun c => grows.live) live (fun part => ?_) above below
        exact grows.not_live part buffer.live
      | false =>
        rw [bare holds]
        exact ownsItem_empty_of_bare holds stored _
  · rcases List.mem_append.1 listed with old | new
    · exact buffer.bare none q old
    · rw [List.mem_singleton.1 new, bare none]
  · rwa [List.length_append, List.length_singleton]

theorem kept (buffer : Buffer h g element b parts) (grows : g.Grows k []) :
    Buffer h k element b parts where
  grows := by simpa using buffer.grows.trans grows
  packed stored := by
    refine (buffer.packed stored).frame (fun x _ below => ?_) fun q listed s owned =>
      owned.of_grows grows (buffer.live_part listed)
    have inside := buffer.live.inside
    have room := buffer.room
    rw [Nat.zero_add] at below
    simp only [Block.stop] at inside
    exact grows.byteAt_eq x (by omega)
  bare := buffer.bare
  room := buffer.room

theorem discard (buffer : Buffer h g element b parts) :
    Frees (discardElements element b.address parts.length) g (parts.flatMap (·.all)) := by
  cases stored : element.isInlineStruct with
  | true =>
    have none : elementHoldsMemory element false = false := by
      by_contra holds
      simp [isInlineStruct_of_holds (by simpa using holds)] at stored
    have nothing : parts.flatMap (·.all) = [] := by
      simpa using fun p listed => by rw [buffer.bare none p listed, Footprint.all_empty]
    rw [discardElements, if_pos stored, nothing]
    exact Heap.frees_pure g
  | false =>
    rw [discardElements, if_neg (by simp [stored])]
    refine frees_forPositions (fun h s p => OwnsItem h element s p)
      (fun sheds owned => owned.of_sheds sheds) ?_ (buffer.packed stored) buffer.grows.keeps.left
    rintro i below k same p listed ⟨n, owned, ended⟩ keeps
    have inside := buffer.live.inside
    have room := buffer.room
    have reach : (i + 1) * element.size ≤ parts.length * element.size :=
      Nat.mul_le_mul_right _ (by omega)
    rw [Nat.add_one_mul] at reach
    have within : k.Accessible (b.address + i * element.size) element.size := by
      simp only [Heap.Accessible, Block.stop] at *
      omega
    apply Frees.after_read (Action.attempt_of_ok (Action.act_of_ok (Heap.load_eq within)))
    refine Frees.attempt (release_seen owned (fun _ => ended.counted) ?_)
    simpa [Footprint.held, Holding.of, Footprint.all] using keeps

end Buffer

/-! ### Filling a buffer -/

/-- The action lowers a value: either to a slot that owns exactly the blocks gained, the outer ones
among them if it `allocates`, or it fails and no block was gained. -/
def Lowers (x : ConversionM Slot) (d : Descriptor) (allocates : Bool) : Prop :=
  ∀ m, x.Gives m
    (fun slot t => ∃ n f, Owns t.heap d slot n f ∧ m.heap.Grows t.heap f.all ∧
      f.outer.isEmpty = !allocates)
    (fun _ t => m.heap.Grows t.heap [])

theorem putItem_gives {r : Repository} {lowerItem : Value → ConversionM Slot} {item : Value}
    {m : Memory} {allocates : Bool} (lowers : Lowers (lowerItem item) element allocates)
    (measured : element.isMeasured = true) (buffer : Buffer h m.heap element b parts)
    (room : (parts.length + 1) * element.size ≤ b.size) :
    (putItem r element lowerItem (b.address + parts.length * element.size) item).Gives m
      (fun _ t => ∃ p, Buffer h t.heap element b (parts ++ [p]))
      (fun _ t => Buffer h t.heap element b parts) := by
  have reach := room
  rw [Nat.add_one_mul] at reach
  have above : b.address ≤ b.address + parts.length * element.size := Nat.le_add_right _ _
  cases stored : element.isInlineStruct with
  | true =>
    have none : elementHoldsMemory element false = false := by
      by_contra holds
      simp [isInlineStruct_of_holds (by simpa using holds)] at stored
    rw [putItem, if_pos stored, Action.gives_bind]
    refine gives_expectInstance (fun w _ _ => ?_) fun _ => buffer
    rw [Action.gives_bind, Action.gives_touch]
    refine Heap.gives_read (fun _ => ?_) fun _ => buffer
    have within : m.heap.Accessible (b.address + parts.length * element.size)
        (m.heap.slice w.address element.size).length := by
      rw [Heap.length_slice]
      exact buffer.live.accessible above (by simp only [Block.stop]; omega)
    rw [Action.gives_touch]
    refine Action.gives_of_ok (Heap.write_eq within) ⟨.empty, ?_⟩
    refine buffer.put (.refl _) room (by simp) (fun holds => ?_) fun _ => rfl
    rw [none] at holds
    cases holds
  | false =>
    rw [putItem, if_neg (by simp [stored]), Action.gives_bind]
    refine (lowers m).mono ?_ fun _ t grows => buffer.kept grows
    rintro slot t ⟨n, p, owned, grows, -⟩
    have within :
        t.heap.Accessible (b.address + parts.length * element.size) (min element.size 8) := by
      apply (grows.keeps_live buffer.live).accessible above
      simp only [Block.stop]
      omega
    rw [Action.gives_touch]
    refine Action.gives_of_ok (Heap.store_eq slot within) ⟨p, ?_⟩
    refine buffer.put grows room ?_ (fun holds => ?_) fun bare => ?_
    · rw [Slot.length_toBytes]
      omega
    · rw [size_of_elementHoldsMemory holds]
      exact ⟨slot, rfl, n, owned, Descriptor.ended_of_isMeasured measured _ _ _ _⟩
    · exact owned.eq_empty_of_bare bare stored

theorem packItems_gives {r : Repository} {lowerItem : Value → ConversionM Slot} {items : List Value}
    {m : Memory} {allocates : Value → Bool} (lowers : ∀ v, Lowers (lowerItem v) element (allocates v))
    (measured : element.isMeasured = true)
    (buffer : Buffer h m.heap element b parts)
    (room : (parts.length + items.length) * element.size ≤ b.size) :
    (packItems element b.address (putItem r element lowerItem) parts.length items).Gives m
      (fun _ t => ∃ more, more.length = parts.length + items.length ∧
        Buffer h t.heap element b more)
      (fun _ t => h.Grows t.heap []) := by
  induction items generalizing m parts with
  | nil => exact ⟨parts, rfl, buffer⟩
  | cons item rest ih =>
    rw [packItems, Action.gives_bind, Action.gives_attempt]
    have fits : (parts.length + 1) * element.size ≤ b.size :=
      Nat.le_trans (Nat.mul_le_mul_right _ (by simp)) room
    apply (putItem_gives (lowers item) measured buffer fits).mono
    · rintro _ t ⟨p, longer⟩
      have count : (parts ++ [p]).length + rest.length = parts.length + (item :: rest).length := by
        simp only [List.length_append, List.length_cons, List.length_nil]
        omega
      have next := ih longer (by rwa [count])
      rw [count, List.length_append] at next
      exact next
    · rintro fault t given
      obtain ⟨g, run, sheds⟩ := given.discard
      have left := given.grows.sheds sheds
      obtain ⟨k, run', sheds'⟩ := Heap.free_eq (left.live (List.mem_singleton_self b))
      simp only [Action.gives_bind, Action.gives_onHeap, Action.gives_touch, Action.gives_fail]
      refine Action.gives_of_ok run (Action.gives_of_ok run' ?_)
      exact left.sheds_all sheds'

section Packing

variable {r : Repository} {mode : ArrayLength} {form : ArrayForm} {pointer nullable : Bool}
  {lowerItem : Value → ConversionM Slot} {items : List Value} {v : Value} {m : Memory}

theorem packItems_owned {parts : List Footprint} (buffer : Buffer h g element b parts)
    (counted : parts.length = items.length) (allowed : lengthAllows mode items.length = true) :
    ∃ f, Owns g (.array element mode form pointer) (.ofNat b.address) items.length f ∧
      h.Grows g f.all ∧ f.outer.isEmpty = false := by
  have inside := buffer.live.inside
  refine ⟨⟨[b], parts.flatMap Footprint.all⟩, ?_, buffer.grows, rfl⟩
  refine (owns_array buffer.live.isNull_ofNat).2 ⟨b, parts, ?_, rfl, counted, ?_, inside.1, inside.2.2,
    buffer.room, ?_, buffer.bare⟩
  · rw [buffer.live.toNat_ofNat]
  · rintro n rfl
    simpa [lengthAllows] using allowed
  · exact fun holds => buffer.packed (isInlineStruct_of_holds holds)

theorem packArray_gives (pointer : Bool) {allocates : Value → Bool}
    (lowers : ∀ v, Lowers (lowerItem v) element (allocates v)) (measured : element.isMeasured = true) :
    (packArray r d element mode form lowerItem v nullable).Gives m
      (fun packed t => ∃ f, Owns t.heap (.array element mode form pointer) packed.1 packed.2 f ∧
        m.heap.Grows t.heap f.all ∧ f.outer.isEmpty = !v.items?.isSome)
      (fun _ t => m.heap.Grows t.heap []) := by
  have unchanged : m.heap.Grows m.heap [] := .refl _
  refine gives_packArray (fun missing => ?_) (fun _ => unchanged) rfl ?_
  · refine ⟨.empty, owns_empty_of_null rfl, unchanged, ?_⟩
    cases v <;> first | rfl | cases missing
  · rintro items rfl allowed start after positive room
    have buffer : Buffer _ _ element _ [] := .start (.extend after positive room)
    refine (packItems_gives (m := { m with heap := _ }) lowers measured buffer ?_).mono ?_
      fun _ _ grows => grows
    · simp only [List.length_nil, Nat.zero_add]
      refine Nat.le_trans (Nat.mul_le_mul_right _ ?_) (Nat.le_max_left _ 1)
      exact Nat.le_add_right _ _
    · rintro _ t ⟨parts, counted, filled⟩
      rw [List.length_nil, Nat.zero_add] at counted
      exact packItems_owned filled counted allowed

end Packing

end ForeignCall
