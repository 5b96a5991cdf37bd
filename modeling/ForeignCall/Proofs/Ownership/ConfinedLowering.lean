import ForeignCall.Proofs.Ownership.Confinement
import ForeignCall.Proofs.Ownership.Lowering

/-!
Lowering confines what it gives to new blocks.

This holds of every type, also of those of which a pass cannot tell how much there is. If lowering
fails, blocks may be left behind, but nothing that was there before is touched.
-/

set_option autoImplicit false

namespace ForeignCall

open ForeignCall.Action
open Heap (Sparing)

variable {h g k t : Heap} {blocks more : List Block} {b : Block} {d element : Descriptor} {slot : Slot}
  {given : Option Nat} {parts : List Footprint} {p : Footprint}

/-- Nothing that was there before was touched, and the blocks are new. -/
structure Heap.Adds (h g : Heap) (blocks : List Block) : Prop extends h.Retains g where
  fresh : ∀ b ∈ blocks, h.size ≤ b.address
  live : ∀ b ∈ blocks, g.Live b

namespace Heap

theorem Grows.adds (grows : h.Grows g blocks) : h.Adds g blocks :=
  { grows.retains with fresh := grows.fresh, live := fun _ => grows.live }

theorem Retains.adds (retains : h.Retains g) : h.Adds g [] :=
  { retains with fresh := List.forall_mem_nil _, live := List.forall_mem_nil _ }

theorem Adds.not_live (adds : h.Adds g blocks) (new : b ∈ blocks) : ¬ h.Live b := by
  intro old
  have inside := old.inside
  have above := adds.fresh b new
  simp only [Block.stop] at inside
  omega

theorem Adds.trans (first : h.Adds g blocks) (second : g.Adds k more) :
    h.Adds k (blocks ++ more) where
  toRetains := first.toRetains.trans second.toRetains
  fresh b listed := (List.mem_append.1 listed).elim (first.fresh b) fun new =>
    Nat.le_trans first.size_le (second.fresh b new)
  live b listed := (List.mem_append.1 listed).elim
    (fun old => second.keeps_live (first.live b old)) (second.live b)

theorem Adds.retains (adds : h.Adds g blocks) (retains : g.Retains k) : h.Adds k blocks := by
  rw [← List.append_nil blocks]
  exact adds.trans retains.adds

theorem Adds.subset (adds : h.Adds g blocks) (fewer : more ⊆ blocks) : h.Adds g more :=
  { adds.toRetains with
    fresh := fun b listed => adds.fresh b (fewer listed)
    live := fun b listed => adds.live b (fewer listed) }

theorem Adds.overwritten (adds : h.Adds g blocks) {address : Nat} {bytes : List UInt8}
    (within : g.Accessible address bytes.length) (beyond : h.size ≤ address) :
    h.Adds (g.overwritten address bytes) blocks :=
  { adds.toRetains.overwritten within beyond with
    fresh := adds.fresh
    live := fun b listed => by
      rw [Live, blockSize?_overwritten]
      exact adds.live b listed }

/-- Freeing what was added leaves what was there before. -/
theorem Adds.spares (adds : h.Adds g blocks) (spares : g.Spares (StartOf blocks) k) :
    h.Retains k where
  toProlongs := adds.toProlongs.trans (prolongs_of_bytes_eq spares.bytes_eq)
  keeps_live := by
    intro b old
    refine spares.keeps_live (adds.keeps_live old) ?_
    rintro ⟨c, new, same⟩
    have above := adds.fresh c new
    have inside := old.inside
    simp only [Block.stop] at inside
    omega

end Heap

/-- A write into another block changes nothing of what a value is confined to. -/
theorem Confined.overwritten (confined : Confined g d slot given blocks) {address : Nat}
    {bytes : List UInt8} (live : ∀ c ∈ blocks, g.Live c) (other : g.Live b) (apart : b ∉ blocks)
    (above : b.address ≤ address) (below : address + bytes.length ≤ b.stop) :
    Confined (g.overwritten address bytes) d slot given blocks := by
  refine confined.agree (.of_size_le (by simp) fun c listed x from_c to_c _ => ?_)
  rw [Heap.byteAt_overwritten (other.accessible above below), if_neg]
  intro written
  rcases (live c listed).apart other (fun same => apart (same ▸ listed)) with before | after
  · omega
  · omega

/-- The action lowers a value to a slot that is confined to new blocks, or it fails. In no case is
anything touched that was there before. -/
def Confines (x : ConversionM Slot) (d : Descriptor) : Prop :=
  ∀ m, x.Gives m (fun slot t => ∃ blocks, Confined t.heap d slot none blocks ∧
    m.heap.Adds t.heap blocks) (fun _ t => m.heap.Retains t.heap) fun _ => True

/-! ### Buffers -/

/-- `g` came from `h` by filling the buffer `b` with values that are confined to `parts`. The rest of
the buffer is blank. -/
structure Filling (h g : Heap) (element : Descriptor) (b : Block) (parts : List Footprint) : Prop where
  adds : h.Adds g (parts.flatMap (·.all) ++ [b])
  apart : ∀ p ∈ parts, b ∉ p.all
  packed : element.isInlineStruct = false →
    Packed g (fun s p => Confined g element s none p.all) element.size b.address 0 parts
  room : parts.length * element.size ≤ b.size
  blank : ∀ x, b.address + parts.length * element.size ≤ x → x < b.stop → g.byteAt x = 0

namespace Filling

theorem start (adds : h.Adds g [b]) (blank : ∀ x, b.address ≤ x → g.byteAt x = 0) :
    Filling h g element b [] where
  adds := adds
  apart := List.forall_mem_nil _
  packed _ := trivial
  room := by simp
  blank x above _ := blank x (by simpa using above)

theorem live (filling : Filling h g element b parts) : g.Live b :=
  filling.adds.live b (List.mem_append_right _ (List.mem_singleton_self b))

theorem live_part (filling : Filling h g element b parts) (listed : p ∈ parts) :
    ∀ c ∈ p.all, g.Live c := fun c part =>
  filling.adds.live c (List.mem_append_left _ (List.mem_flatMap.2 ⟨p, listed, part⟩))

theorem put {bytes : List UInt8} (filling : Filling h g element b parts) (adds : g.Adds k p.all)
    (room : (parts.length + 1) * element.size ≤ b.size) (short : bytes.length ≤ element.size)
    (item : element.isInlineStruct = false →
      Confined k element ((k.overwritten (b.address + parts.length * element.size) bytes).slotAt
        (b.address + parts.length * element.size) element.size) none p.all) :
    Filling h (k.overwritten (b.address + parts.length * element.size) bytes) element b
      (parts ++ [p]) := by
  have next := room
  rw [Nat.add_one_mul] at room
  have live := adds.keeps_live filling.live
  have above : b.address ≤ b.address + parts.length * element.size := Nat.le_add_right _ _
  have below : b.address + parts.length * element.size + bytes.length ≤ b.stop := by
    simp only [Block.stop]
    omega
  have within := live.accessible above below
  have fresh := filling.adds.fresh b (List.mem_append_right _ (List.mem_singleton_self b))
  have outside : b ∉ p.all := fun part => adds.not_live part filling.live
  refine ⟨?_, ?_, fun stored => ?_, ?_, fun x from_b to_b => ?_⟩
  · refine ((filling.adds.trans adds).subset ?_).overwritten within (by omega)
    intro c listed
    simp only [List.flatMap_append, List.flatMap_singleton, List.mem_append] at listed ⊢
    tauto
  · intro q listed
    rcases List.mem_append.1 listed with old | new
    · exact filling.apart q old
    · rwa [List.mem_singleton.1 new]
  · refine (filling.packed stored).put filling.live adds.toProlongs next within
      (fun q listed s part => ?_) ?_
    · refine (part.prolongs adds.toProlongs).overwritten (fun c piece => ?_) live
        (filling.apart q listed) above below
      exact adds.keeps_live (filling.live_part listed c piece)
    · exact (item stored).overwritten adds.live live outside above below
  · rwa [List.length_append, List.length_singleton]
  · have inside := filling.live.inside
    rw [List.length_append, List.length_singleton, Nat.add_one_mul] at from_b
    rw [Heap.byteAt_overwritten within, if_neg (by omega), adds.byteAt_eq x (by omega)]
    exact filling.blank x (by omega) to_b

theorem kept (filling : Filling h g element b parts) (retains : g.Retains k) :
    Filling h k element b parts where
  adds := filling.adds.retains retains
  apart := filling.apart
  packed stored := by
    refine (filling.packed stored).frame (fun x _ below => ?_) fun q listed s part =>
      part.prolongs retains.toProlongs
    have inside := filling.live.inside
    have room := filling.room
    rw [Nat.zero_add] at below
    simp only [Block.stop] at inside
    exact retains.byteAt_eq x (by omega)
  room := filling.room
  blank x above below := by
    have inside := filling.live.inside
    rw [retains.byteAt_eq x (by omega)]
    exact filling.blank x above below

theorem discard (filling : Filling h g element b parts) :
    g.Sparing (StartOf (parts.flatMap (·.all) ++ [b]))
      (discardElements element b.address parts.length) := by
  cases stored : element.isInlineStruct with
  | true =>
    rw [discardElements, if_pos stored]
    exact Heap.sparing_pure ()
  | false =>
    rw [discardElements, if_neg (by simp [stored])]
    have packed := filling.packed stored
    refine sparing_forPositions (Nat.le_refl _) (fun i below p listed item => ?_) packed
    have inside := filling.live.inside
    have room := filling.room
    have reach : (i + 1) * element.size ≤ parts.length * element.size :=
      Nat.mul_le_mul_right _ (by omega)
    rw [Nat.add_one_mul] at reach
    have within : g.Accessible (b.address + i * element.size) element.size := by
      simp only [Heap.Accessible, Block.stop] at *
      omega
    have part : p.all ⊆ parts.flatMap (·.all) ++ [b] := fun c piece =>
      List.mem_append_left _ (List.mem_flatMap.2 ⟨p, listed, piece⟩)
    refine .after (fun e same => attempt_of_ok (Heap.load_of_bytes_eq same within)) ?_
    exact ((release_sparing rfl item).mono (StartOf.mono part)).attempt

end Filling

section Packing

variable {r : Repository} {lowerItem : Value → ConversionM Slot} {items : List Value} {m : Memory}

theorem putItem_confines {item : Value} (confines : Confines (lowerItem item) element)
    (filling : Filling h m.heap element b parts)
    (room : (parts.length + 1) * element.size ≤ b.size) :
    (putItem r element lowerItem (b.address + parts.length * element.size) item).Gives m
      (fun _ t => ∃ p, Filling h t.heap element b (parts ++ [p]))
      (fun _ t => Filling h t.heap element b parts) fun _ => True := by
  have reach := room
  rw [Nat.add_one_mul] at reach
  have above : b.address ≤ b.address + parts.length * element.size := Nat.le_add_right _ _
  cases stored : element.isInlineStruct with
  | true =>
    rw [putItem, if_pos stored, gives_bind]
    refine gives_expectInstance (fun w _ _ => ?_) fun _ => filling
    rw [gives_bind, gives_touch]
    apply Gives.partly
    refine Heap.gives_read (fun _ => ?_) fun _ => filling
    have within : m.heap.Accessible (b.address + parts.length * element.size)
        (m.heap.slice w.address element.size).length := by
      rw [Heap.length_slice]
      exact filling.live.accessible above (by simp only [Block.stop]; omega)
    rw [gives_touch]
    refine gives_of_ok (Heap.write_eq within) ⟨.empty, ?_⟩
    refine filling.put (Heap.Retains.refl _).adds room (by simp) fun inline => ?_
    rw [stored] at inline
    cases inline
  | false =>
    rw [putItem, if_neg (by simp [stored]), gives_bind]
    refine (confines m).mono ?_ fun _ t retains => filling.kept retains
    rintro slot t ⟨blocks, confined, adds⟩
    have within :
        t.heap.Accessible (b.address + parts.length * element.size) (min element.size 8) := by
      apply (adds.keeps_live filling.live).accessible above
      simp only [Block.stop]
      omega
    rw [gives_touch]
    refine gives_of_ok (Heap.store_eq slot within) ⟨⟨blocks, []⟩, ?_⟩
    refine filling.put adds room ?_ fun _ => ?_
    · rw [Slot.length_toBytes]
      omega
    · cases holds : elementHoldsMemory element false with
      | true =>
        rw [size_of_elementHoldsMemory holds, pointerSize] at within ⊢
        rwa [Heap.slotAt_stored slot within]
      | false => exact confined_of_bare holds stored _ _ _

theorem packItems_confines (confines : ∀ v, Confines (lowerItem v) element)
    (filling : Filling h m.heap element b parts)
    (room : (parts.length + items.length) * element.size ≤ b.size) :
    (packItems element b.address (putItem r element lowerItem) parts.length items).Gives m
      (fun _ t => ∃ more, more.length = parts.length + items.length ∧
        Filling h t.heap element b more)
      (fun _ t => h.Retains t.heap) fun _ => True := by
  induction items generalizing m parts with
  | nil => exact ⟨parts, rfl, filling⟩
  | cons item rest ih =>
    rw [packItems, gives_bind, gives_attempt]
    have fits : (parts.length + 1) * element.size ≤ b.size :=
      Nat.le_trans (Nat.mul_le_mul_right _ (by simp)) room
    apply (putItem_confines (confines item) filling fits).mono
    · rintro _ t ⟨p, longer⟩
      have count : (parts ++ [p]).length + rest.length = parts.length + (item :: rest).length := by
        simp only [List.length_append, List.length_cons, List.length_nil]
        omega
      have next := ih longer (by rwa [count])
      rw [count, List.length_append] at next
      exact next
    · rintro fault t given
      -- What was packed is freed as far as that goes, and then the buffer.
      have base : StartOf (parts.flatMap (·.all) ++ [b]) b.address :=
        ⟨b, List.mem_append_right _ (List.mem_singleton_self b), rfl⟩
      simp only [gives_bind, gives_onHeap, gives_touch, gives_fail]
      refine (given.discard t.heap rfl).mono (fun _ e freed => ?_) fun _ e freed =>
        given.adds.spares freed
      have frees := Heap.sparing_free base e freed.bytes_eq
      rw [gives_act] at frees
      exact frees.mono (fun _ k rest => given.adds.spares (freed.trans rest))
        fun _ k rest => given.adds.spares (freed.trans rest)

variable {mode : ArrayLength} {form : ArrayForm} {pointer nullable : Bool} {v : Value}

/-- A buffer is confined to its blocks as an array, whether a pass is told the count or not. -/
theorem Filling.confined (filling : Filling h g element b parts) (counted : parts.length = items.length)
    (allowed : lengthAllows mode items.length = true)
    (ended : mode = .zeroTerminated → (parts.length + 1) * element.size ≤ b.size)
    (told : given = none ∨ given = some items.length) :
    Confined g (.array element mode form pointer) (.ofNat b.address) given
      (parts.flatMap (·.all) ++ [b]) := by
  have inside := filling.live.inside
  refine (confined_array filling.live.isNull_ofNat).2 ⟨b, by simp, filling.live.toNat_ofNat.symm,
    fun holds => ⟨parts, fun p listed c piece => ?_, inside.1, inside.2.2, ?_, ?_, ?_⟩⟩
  · exact List.mem_append_left _ (List.mem_flatMap.2 ⟨p, listed, piece⟩)
  · rw [← size_of_elementHoldsMemory holds]
    exact filling.room
  · rw [← size_of_elementHoldsMemory holds]
    exact filling.packed (isInlineStruct_of_holds holds)
  · rcases told with rfl | rfl
    · cases mode with
      | fixed n =>
        have : items.length = n := by simpa [lengthAllows] using allowed
        exact Nat.le_of_eq (by rw [counted, this])
      | zeroTerminated =>
        have room := ended rfl
        have blank := filling.blank
        rw [size_of_elementHoldsMemory holds] at room blank
        refine ⟨room, fun x above below => blank x above ?_⟩
        simp only [Block.stop]
        omega
      | _ => trivial
    · exact Nat.le_of_eq counted.symm

theorem packArray_confines (pointer : Bool) (confines : ∀ v, Confines (lowerItem v) element) :
    (packArray r d element mode form lowerItem v nullable).Gives m
      (fun packed t => ∃ blocks, m.heap.Adds t.heap blocks ∧
        ∀ given, given = none ∨ given = some packed.2 →
          Confined t.heap (.array element mode form pointer) packed.1 given blocks)
      (fun _ t => m.heap.Retains t.heap) fun _ => True := by
  have unchanged : m.heap.Retains m.heap := .refl _
  refine gives_packArray (fun _ => ⟨[], unchanged.adds, fun _ _ => confined_null rfl⟩)
    (fun _ => unchanged) trivial ?_
  rintro items rfl allowed start after positive room
  have filling : Filling m.heap _ element _ [] :=
    .start (Heap.Grows.extend after positive room).adds fun x above => by
      rw [Heap.byteAt_extend, Heap.byteAt_of_size_le (Nat.le_trans after above)]
  refine (packItems_confines (m := { m with heap := _ }) confines filling ?_).mono ?_
    fun _ _ retains => retains
  · simp only [List.length_nil, Nat.zero_add]
    refine Nat.le_trans (Nat.mul_le_mul_right _ ?_) (Nat.le_max_left _ 1)
    exact Nat.le_add_right _ _
  · rintro _ t ⟨parts, counted, filled⟩
    rw [List.length_nil, Nat.zero_add] at counted
    refine ⟨_, filled.adds, fun given told => filled.confined counted allowed ?_ told⟩
    rintro rfl
    rw [counted]
    exact Nat.le_max_left _ 1

end Packing

/-! ### Chains -/

theorem Prepended.adds {singlyLinked : Bool} {head node : Nat} {item : Slot}
    (prepended : Prepended g t singlyLinked item head node) (adds : h.Adds g blocks)
    (new : head ≠ 0 → h.size ≤ head) :
    h.Adds t (blocks ++ [⟨node, nodeSize singlyLinked⟩]) where
  size_le := Nat.le_trans adds.size_le prepended.size_le
  byteAt_eq x old := by
    have inside := Nat.lt_of_lt_of_le old adds.size_le
    rw [prepended.byteAt_eq x inside fun chained => ?_, adds.byteAt_eq x old]
    have := new chained
    omega
  keeps_live old := prepended.keeps_live (adds.keeps_live old)
  fresh b listed := (List.mem_append.1 listed).elim (adds.fresh b) fun last => by
    rw [List.mem_singleton.1 last]
    exact Nat.le_trans adds.size_le prepended.after
  live b listed := (List.mem_append.1 listed).elim (fun old => prepended.keeps_live (adds.live b old))
    fun last => (List.mem_singleton.1 last).symm ▸ prepended.live

/-- `g` came from `h` by building the chain at `head`, each item of which is confined to its part. -/
structure Strand (h g : Heap) (element : Descriptor) (singlyLinked : Bool) (head : Nat)
    (links : List Link) : Prop where
  adds : h.Adds g (links.flatMap (·.item.all) ++ links.map (·.node))
  linked : Linked g (fun s p => Confined g element s none p.all) (nodeSize singlyLinked) head links
  apart : ∀ l ∈ links, ⟨head, nodeSize singlyLinked⟩ ∉ l.item.all

namespace Strand

variable {singlyLinked : Bool} {head node : Nat} {links : List Link} {item : Slot}

theorem nil (h : Heap) : Strand h h element singlyLinked 0 [] where
  adds := (Heap.Retains.refl h).adds
  linked := rfl
  apart := List.forall_mem_nil _

theorem live_node {l : Link} (strand : Strand h g element singlyLinked head links)
    (listed : l ∈ links) : g.Live l.node :=
  strand.adds.live _ (List.mem_append_right _ (List.mem_map_of_mem listed))

theorem live_item {l : Link} (strand : Strand h g element singlyLinked head links)
    (listed : l ∈ links) : ∀ c ∈ l.item.all, g.Live c := fun c part =>
  strand.adds.live c (List.mem_append_left _ (List.mem_flatMap.2 ⟨l, listed, part⟩))

theorem live_head (strand : Strand h g element singlyLinked head links) (nonzero : head ≠ 0) :
    g.Live ⟨head, nodeSize singlyLinked⟩ :=
  strand.linked.live_head (fun _ => strand.live_node) nonzero

theorem toNat_head (strand : Strand h g element singlyLinked head links) :
    (Slot.ofNat head).toNat = head := strand.linked.toNat_head fun _ => strand.live_node

theorem kept (strand : Strand h g element singlyLinked head links) (retains : g.Retains k) :
    Strand h k element singlyLinked head links where
  adds := strand.adds.retains retains
  linked := strand.linked.prolongs (sixteen_le_nodeSize singlyLinked) retains.toProlongs
    fun _ _ _ part => part.prolongs retains.toProlongs
  apart := strand.apart

theorem confined (strand : Strand h g element singlyLinked head links) (pointer : Bool)
    (given : Option Nat) :
    Confined g (.list element singlyLinked pointer) (.ofNat head) given
      (links.flatMap (·.item.all) ++ links.map (·.node)) := by
  by_cases zero : head = 0
  · subst zero
    exact confined_null rfl
  · refine (confined_list (strand.live_head zero).isNull_ofNat).2 ⟨links, fun l listed => ⟨?_, ?_⟩, ?_⟩
    · exact List.mem_append_right _ (List.mem_map_of_mem listed)
    · exact fun c part => List.mem_append_left _ (List.mem_flatMap.2 ⟨l, listed, part⟩)
    · rw [strand.toNat_head]
      exact strand.linked

theorem prepend (strand : Strand h g element singlyLinked head links) (adds : g.Adds k p.all)
    (part : Confined k element item none p.all)
    (prepended : Prepended k t singlyLinked item head node) :
    Strand h t element singlyLinked node (⟨⟨node, nodeSize singlyLinked⟩, p⟩ :: links) := by
  have chained (nonzero : head ≠ 0) : k.Live ⟨head, nodeSize singlyLinked⟩ :=
    adds.keeps_live (strand.live_head nonzero)
  have large := sixteen_le_nodeSize singlyLinked
  have fresh {c : Block} (old : k.Live c) : c ≠ ⟨node, nodeSize singlyLinked⟩ := by
    rintro rfl
    have inside := old.inside
    have after := prepended.after
    simp only [Block.stop] at inside
    omega
  have elsewhere {c : Block} (old : k.Live c) (other : head ≠ 0 → c ≠ ⟨head, nodeSize singlyLinked⟩) :
      ∀ x, c.address ≤ x → x < c.stop → x < k.size → t.byteAt x = k.byteAt x := fun x above below _ =>
    prepended.spares chained old other above below
  have live (l : Link) (listed : l ∈ links) (c : Block) (piece : c ∈ l.item.all) : k.Live c :=
    adds.keeps_live (strand.live_item listed c piece)
  have inside := prepended.live.inside
  refine ⟨?_, ⟨rfl, inside.1, inside.2.2, ?_, ?_⟩, ?_⟩
  · refine (prepended.adds (strand.adds.trans adds) fun nonzero => ?_).subset ?_
    · exact strand.adds.fresh _ (List.mem_append_right _ (strand.linked.head_mem nonzero))
    · intro c listed
      simp only [List.flatMap_cons, List.map_cons, List.mem_append, List.mem_cons, List.not_mem_nil,
        or_false] at listed ⊢
      tauto
  · rw [prepended.item_eq]
    refine part.agree (.of_size_le prepended.size_le fun c piece => elsewhere (adds.live c piece) ?_)
    exact fun nonzero same => adds.not_live piece (same ▸ strand.live_head nonzero)
  · rw [prepended.next_eq, strand.toNat_head]
    have behind : Linked k (fun s p => Confined k element s none p.all) _ head links :=
      strand.linked.prolongs large adds.toProlongs fun _ _ _ later => later.prolongs adds.toProlongs
    refine prepended.linked behind (fun l listed => adds.keeps_live (strand.live_node listed))
      fun l listed s later => later.agree (.of_size_le prepended.size_le fun c piece => ?_)
    exact elsewhere (live l listed c piece) fun _ same => strand.apart l listed (same ▸ piece)
  · intro l listed
    rcases List.mem_cons.1 listed with rfl | old
    · exact fun piece => fresh (adds.live _ piece) rfl
    · exact fun piece => fresh (live l old _ piece) rfl

end Strand

section Linking

variable {singlyLinked pointer : Bool} {lowerItem : Value → ConversionM Slot} {m : Memory} {head : Nat}
  {links : List Link}

theorem linkItems_confines {items : List Value} (confines : ∀ v, Confines (lowerItem v) element)
    (strand : Strand h m.heap element singlyLinked head links) :
    (linkItems (.list element singlyLinked pointer) singlyLinked lowerItem head items).Gives m
      (fun head t => ∃ more, Strand h t.heap element singlyLinked head more)
      (fun _ t => h.Retains t.heap) fun _ => True := by
  induction items generalizing m head links with
  | nil => exact ⟨links, strand⟩
  | cons item rest ih =>
    rw [linkItems, gives_bind, gives_attempt]
    apply (confines item m).mono
    · rintro slot t ⟨blocks, part, adds⟩
      rw [gives_bind, gives_touch]
      have chained := fun nonzero : head ≠ 0 => adds.keeps_live (strand.live_head nonzero)
      refine Gives.mono (prependNode_gives chained fun _ => trivial) ?_ fun _ _ never => never
      intro node e prepended
      exact ih (m := { t with heap := e }) (strand.prepend (p := ⟨blocks, []⟩) adds part prepended)
    · rintro fault t retains
      have given := strand.kept retains
      have frees : t.heap.Sparing _ (freeValue (.list element singlyLinked pointer) (.ofNat head)
          .nothing .input none) := release_sparing rfl (given.confined pointer none)
      simp only [gives_bind, gives_attempt, gives_onHeap, gives_fail]
      exact (frees t.heap rfl).mono (fun _ _ => given.adds.spares) fun _ _ => given.adds.spares

theorem buildList_confines {v : Value} (confines : ∀ v, Confines (lowerItem v) element) :
    Confines (buildList (.list element singlyLinked pointer) singlyLinked lowerItem v)
      (.list element singlyLinked pointer) := by
  intro m
  cases v with
  | array items =>
    rw [buildList, gives_bind]
    refine (linkItems_confines confines (.nil m.heap)).mono ?_ fun _ _ retains => retains
    rintro head t ⟨links, strand⟩
    exact ⟨_, strand.confined pointer none, strand.adds⟩
  | _ => exact Heap.Retains.refl m.heap

end Linking

/-! ### Lowering -/

section

variable {v : Value} {env : Environment} {nullable : Bool}

theorem Lowers.confines {x : ConversionM Slot} {allocates : Bool} (lowers : Lowers x d allocates)
    (confined : ∀ {h slot n f}, Owns h d slot n f → Confined h d slot none f.all) : Confines x d := by
  intro m
  refine (lowers m).partly.mono ?_ fun _ _ grows => grows.retains
  rintro slot t ⟨n, f, owns, grows, -⟩
  exact ⟨f.all, confined owns, grows.adds⟩

theorem lower_nullish_confines (nullish : (v.isNullish && !isBoolean d) = true) :
    Confines (lower env d v nullable) d := by
  intro m
  rw [lower_nullish nullish]
  split
  · exact ⟨[], confined_null rfl, (Heap.Retains.refl m.heap).adds⟩
  · exact Heap.Retains.refl m.heap

theorem Owns.confined_basic {type : BasicType} {pointer : Bool} {n : Nat} {f : Footprint}
    (owns : Owns h (.basic type pointer) slot n f) (other : type ≠ .error) :
    Confined h (.basic type pointer) slot none f.all := by
  cases null : slot.isNull with
  | true => exact confined_null null
  | false =>
    cases type with
    | string filename =>
      obtain ⟨b, start, rfl⟩ := (owns_string null).1 owns
      exact (confined_string null).2 ⟨b, List.mem_singleton_self b, start⟩
    | error => exact (other rfl).elim
    | _ => exact confined_of_bare rfl rfl _ _ _

theorem Owns.confined_named {type : NamedType} {name : String} {pointer : Bool} {n : Nat}
    {f : Footprint} (owns : Owns h (.named type name pointer) slot n f) :
    Confined h (.named type name pointer) slot none f.all := by
  cases null : slot.isNull with
  | true => exact confined_null null
  | false =>
    cases type with
    | structured size byValue =>
      refine (confined_structured null).2 fun inline => ?_
      rw [owns_structured null, if_pos inline] at owns
      obtain ⟨b, start, rfl⟩ := owns
      exact ⟨b, List.mem_singleton_self b, start⟩
    | _ => exact confined_of_bare rfl rfl _ _ _

theorem lower_basic_confines {type : BasicType} {pointer : Bool} :
    Confines (lower env (.basic type pointer) v nullable) (.basic type pointer) := by
  by_cases nullish : (v.isNullish && !isBoolean (.basic type pointer)) = true
  · exact lower_nullish_confines nullish
  · by_cases error : type = .error
    · subst error
      unfold lower
      rw [if_neg nullish]
      exact fun m => Heap.Retains.refl m.heap
    · exact lower_basic_lowers.confines fun owns => owns.confined_basic error

/-- Whatever the type, lowering confines what it gives to new blocks. -/
theorem lower_confines (d : Descriptor) (v : Value) (nullable : Bool) :
    Confines (lower env d v nullable) d := by
  induction d generalizing nullable v with
  | basic type pointer => exact lower_basic_confines
  | named type name pointer => exact lower_named_lowers.confines Owns.confined_named
  | hash key value pointer =>
    by_cases nullish : (v.isNullish && !isBoolean (.hash key value pointer)) = true
    · exact lower_nullish_confines nullish
    · unfold lower
      rw [if_neg nullish]
      exact fun m => Heap.Retains.refl m.heap
  | array element mode form pointer ih =>
    by_cases nullish : (v.isNullish && !isBoolean (.array element mode form pointer)) = true
    · exact lower_nullish_confines nullish
    · rw [lower, if_neg nullish]
      intro m
      rw [gives_bind]
      refine (packArray_confines pointer fun item => ih item false).mono ?_ fun _ _ retains => retains
      rintro ⟨slot, count⟩ t ⟨blocks, adds, confined⟩
      exact ⟨blocks, confined none (.inl rfl), adds⟩
  | list element singlyLinked pointer ih =>
    by_cases nullish : (v.isNullish && !isBoolean (.list element singlyLinked pointer)) = true
    · exact lower_nullish_confines nullish
    · rw [lower, if_neg nullish]
      exact buildList_confines fun item => ih item false

theorem lowerArray_confines (m : Memory) :
    (lowerArray env d v nullable).Gives m
      (fun packed t => ∃ blocks, m.heap.Adds t.heap blocks ∧
        Confined t.heap d packed.1 (some packed.2) blocks)
      (fun _ t => m.heap.Retains t.heap) fun _ => True := by
  cases d with
  | array element mode form pointer =>
    refine (packArray_confines pointer fun item => lower_confines element item false).mono ?_
      fun _ _ retains => retains
    rintro packed t ⟨blocks, adds, confined⟩
    exact ⟨blocks, adds, confined _ (.inr rfl)⟩
  | _ => exact Heap.Retains.refl m.heap

end

end ForeignCall
