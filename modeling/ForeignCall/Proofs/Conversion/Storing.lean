import ForeignCall.Proofs.Conversion.Reading
import ForeignCall.Proofs.Conversion.Steps
import ForeignCall.Proofs.Ownership.Chains

/-!
Building containers that read as what went into them.

A buffer or a chain is followed while it is built: each element that is stored reads as a value equal
to the item it was lowered from, and what is stored after it leaves its bytes alone.
-/

set_option autoImplicit false

namespace ForeignCall

variable {h g k t : Heap} {d element : Descriptor} {slot : Slot} {v w : Value} {base places : Nat}
  {done : List (Value × Value)}

/-- Lowering `v` made `g` of `h`, and the slot reads as `w`, which equals `v`. -/
structure Stores (h g : Heap) (d : Descriptor) (slot : Slot) (v w : Value) : Prop where
  retains : h.Retains g
  fits : slot.toNat < 256 ^ d.size
  marked : d.storesZero v = false → slot.toNat ≠ 0
  equal : w.equals v = true
  reads : ∀ given, d.Tells given v → Reads g h.size g.size d slot given w

/-- The halt of an action that needs more address space than there is below `limit`. -/
def Heap.Full (limit : Nat) (halt : Halt) : Prop := halt = .exhausted ∧ Heap.capacity < limit

def RoundTrips (x : ConversionM Slot) (d : Descriptor) (v : Value) : Prop :=
  ∀ (m : Memory) (limit : Nat), m.heap.size + d.room v ≤ limit →
    x.Gives m
      (fun slot t => t.heap.size ≤ m.heap.size + d.room v ∧ ∃ w, Stores m.heap t.heap d slot v w)
      (fun _ _ => False) (Heap.Full limit)

/-! ### Buffers -/

/-- A buffer at `base` with room for `places` elements, the first of which read as the values in
`done` beside the items they come from. -/
structure Filled (h g : Heap) (element : Descriptor) (base places : Nat)
    (done : List (Value × Value)) : Prop where
  retains : h.Retains g
  fresh : h.size ≤ base
  inside : base + places * element.size ≤ g.size
  equal : ∀ p ∈ done, p.2.equals p.1 = true
  slots : ∀ i p, done[i]? = some p →
    Reads g (base + places * element.size) g.size element
        (g.slotAt (base + i * element.size) element.size) none p.2 ∧
      (element.storesZero p.1 = false →
        (g.slotAt (base + i * element.size) element.size).toNat ≠ 0)
  blank : ∀ x, base + done.length * element.size ≤ x → x < base + places * element.size →
    g.byteAt x = 0

namespace Filled

theorem start {size : Nat} (enough : places * element.size ≤ size) (after : h.size ≤ base)
    (positive : 0 < size) (room : base + size ≤ Heap.capacity) :
    Filled h (h.extend base size after positive room) element base places [] where
  retains := (Heap.Grows.extend after positive room).retains
  fresh := after
  inside := by
    rw [Heap.size_extend]
    omega
  equal := by simp
  slots := by simp
  blank x above _ := by
    rw [Heap.byteAt_extend]
    exact Heap.byteAt_of_size_le (by omega)

theorem accessible (filled : Filled h g element base places done) (more : done.length < places)
    (retains : g.Retains k) :
    k.Accessible (base + done.length * element.size) element.size := by
  have reach : (done.length + 1) * element.size ≤ places * element.size :=
    Nat.mul_le_mul_right _ more
  have guarded := h.guarded
  have fresh := filled.fresh
  have inside := filled.inside
  have grown := retains.size_le
  rw [Nat.add_one_mul] at reach
  simp only [Heap.size] at *
  constructor
  · omega
  · simp only [Heap.size]
    omega

/-- Writing the next element leaves all other bytes alone. -/
theorem byteAt_put (filled : Filled h g element base places done) (more : done.length < places)
    (narrow : element.size ≤ 8) (retains : g.Retains k) {x : Nat}
    (apart : x < base + done.length * element.size ∨
      base + done.length * element.size + element.size ≤ x) :
    (k.overwritten (base + done.length * element.size) (slot.toBytes element.size)).byteAt x =
      k.byteAt x := by
  have length : (slot.toBytes element.size).length = element.size := by
    rw [Slot.length_toBytes, Nat.min_eq_left narrow]
  have within := filled.accessible more retains
  rw [Heap.byteAt_overwritten (by rwa [length]), length, if_neg (by omega)]

/-- The elements that are there read as before when the next one is written. -/
theorem slots_put (filled : Filled h g element base places done) (more : done.length < places)
    (narrow : element.size ≤ 8) (retains : g.Retains k) {i : Nat} {p : Value × Value}
    (found : done[i]? = some p) :
    let put := k.overwritten (base + done.length * element.size) (slot.toBytes element.size)
    Reads put (base + places * element.size) put.size element
        (put.slotAt (base + i * element.size) element.size) none p.2 ∧
      (element.storesZero p.1 = false →
        (put.slotAt (base + i * element.size) element.size).toNat ≠ 0) := by
  intro put
  have inside := filled.inside
  have reach : (done.length + 1) * element.size ≤ places * element.size :=
    Nat.mul_le_mul_right _ more
  have before : (i + 1) * element.size ≤ done.length * element.size :=
    Nat.mul_le_mul_right _ (List.getElem?_eq_some_iff.1 found).1
  rw [Nat.add_one_mul] at reach before
  have kept : put.slotAt (base + i * element.size) element.size =
      g.slotAt (base + i * element.size) element.size :=
    Heap.slotAt_congr fun x above below => by
      rw [filled.byteAt_put more narrow retains (by omega), retains.byteAt_eq x (by omega)]
  obtain ⟨reads, marked⟩ := filled.slots i p found
  have grown : g.size ≤ put.size := by
    rw [Heap.size_overwritten]
    exact retains.size_le
  rw [kept]
  refine ⟨reads.frame (Nat.le_refl _) grown fun x above below => ?_, marked⟩
  rw [filled.byteAt_put more narrow retains (by omega), retains.byteAt_eq x (by omega)]

theorem put (filled : Filled h g element base places done) (more : done.length < places)
    (data : element.isData = true) (sized : element.isSelfSized = true)
    (stores : Stores g k element slot v w) :
    Filled h (k.overwritten (base + done.length * element.size) (slot.toBytes element.size)) element
      base places (done ++ [(v, w)]) := by
  have narrow := (Descriptor.size_of_isData data).2
  have within := filled.accessible more stores.retains
  have fresh := filled.fresh
  have inside := filled.inside
  have grown := stores.retains.size_le
  have reach : (done.length + 1) * element.size ≤ places * element.size :=
    Nat.mul_le_mul_right _ more
  rw [Nat.add_one_mul] at reach
  refine ⟨?_, fresh, ?_, ?_, ?_, ?_⟩
  · refine (filled.retains.trans stores.retains).overwritten ?_ (by omega)
    rwa [Slot.length_toBytes, Nat.min_eq_left narrow]
  · rw [Heap.size_overwritten]
    omega
  · intro p listed
    rcases List.mem_append.1 listed with old | new
    · exact filled.equal p old
    · rw [List.mem_singleton.1 new]
      exact stores.equal
  · intro i p found
    rcases Nat.lt_or_ge i done.length with old | last
    · rw [List.getElem?_append_left old] at found
      exact filled.slots_put more narrow stores.retains found
    · obtain ⟨rfl, rfl⟩ : i = done.length ∧ p = (v, w) := by
        have bound := (List.getElem?_eq_some_iff.1 found).1
        simp only [List.length_append, List.length_singleton] at bound
        obtain rfl : i = done.length := by omega
        simpa [eq_comm] using found
      rw [Heap.slotAt_stored_of_lt stores.fits narrow within, Heap.size_overwritten]
      have reads := stores.reads none (Descriptor.tells_none sized v)
      refine ⟨reads.frame inside (Nat.le_refl _) fun x above below => ?_, stores.marked⟩
      rw [filled.byteAt_put more narrow stores.retains (by omega)]
  · intro x above below
    rw [List.length_append, List.length_singleton, Nat.add_one_mul] at above
    rw [filled.byteAt_put more narrow stores.retains (by omega)]
    by_cases old : x < g.size
    · rw [stores.retains.byteAt_eq x old, filled.blank x (by omega) below]
    · omega

end Filled

theorem putItem_fills {r : Repository} {lowerItem : Value → ConversionM Slot} {m : Memory}
    {limit : Nat} (trips : RoundTrips (lowerItem v) element v) (data : element.isData = true)
    (sized : element.isSelfSized = true) (filled : Filled h m.heap element base places done)
    (more : done.length < places) (enough : m.heap.size + element.room v ≤ limit) :
    (putItem r element lowerItem (base + done.length * element.size) v).Gives m
      (fun _ t => t.heap.size ≤ m.heap.size + element.room v ∧
        ∃ w, Filled h t.heap element base places (done ++ [(v, w)]))
      (fun _ _ => False) (Heap.Full limit) := by
  have narrow := (Descriptor.size_of_isData data).2
  rw [putItem, if_neg (by simp [Descriptor.isInlineStruct_of_isData data]), Action.gives_bind]
  refine (trips m limit enough).mono ?_ fun _ _ never => never
  rintro slot t ⟨bound, w, stores⟩
  have within := filled.accessible more stores.retains
  rw [Action.gives_touch]
  refine Action.gives_of_ok (Heap.store_eq slot (by rwa [Nat.min_eq_left narrow])) ⟨?_, w, ?_⟩
  · rwa [Heap.size_overwritten]
  · exact filled.put more data sized stores

theorem packItems_fills {r : Repository} {lowerItem : Value → ConversionM Slot} {m : Memory}
    {limit : Nat} {items : List Value} (data : element.isData = true)
    (sized : element.isSelfSized = true)
    (trips : ∀ item ∈ items, RoundTrips (lowerItem item) element item)
    (filled : Filled h m.heap element base places done)
    (more : done.length + items.length ≤ places)
    (enough : m.heap.size + (items.map element.room).sum ≤ limit) :
    (packItems element base (putItem r element lowerItem) done.length items).Gives m
      (fun _ t => t.heap.size ≤ m.heap.size + (items.map element.room).sum ∧
        ∃ all, all.map Prod.fst = done.map Prod.fst ++ items ∧
          Filled h t.heap element base places all)
      (fun _ _ => False) (Heap.Full limit) := by
  induction items generalizing m done with
  | nil => exact ⟨Nat.le_refl _, done, by simp, filled⟩
  | cons item rest ih =>
    simp only [List.map_cons, List.sum_cons, List.length_cons] at more enough ⊢
    rw [packItems, Action.gives_bind, Action.gives_attempt]
    refine (putItem_fills (trips item (by simp)) data sized filled (by omega) (by omega)).mono ?_
      fun _ _ never => never.elim
    rintro _ t ⟨bound, w, longer⟩
    have next := ih (fun item later => trips item (by simp [later])) longer
      (by simp only [List.length_append, List.length_singleton]; omega) (by omega)
    rw [List.length_append, List.length_singleton] at next
    refine next.mono ?_ fun _ _ never => never
    rintro _ u ⟨bound', all, same, full⟩
    refine ⟨by omega, all, ?_, full⟩
    simpa using same

theorem equalItems_of_forall (all : ∀ p ∈ done, p.2.equals p.1 = true) :
    Value.equalItems (done.map Prod.snd) (done.map Prod.fst) = true := by
  induction done with
  | nil => rfl
  | cons p rest ih =>
    simp only [List.map_cons, Value.equalItems, Bool.and_eq_true]
    exact ⟨all p (by simp), ih fun q later => all q (by simp [later])⟩

section Arrays

variable {mode : ArrayLength} {pointer : Bool} {given : Option Nat}

theorem Filled.arrayLength_eq
    (filled : Filled h g element base (done.length + if mode = .zeroTerminated then 1 else 0) done)
    (carries : (Descriptor.array element mode .c pointer).Carries (.array (done.map Prod.fst)))
    (tells : (Descriptor.array element mode .c pointer).Tells given (.array (done.map Prod.fst)))
    (inside : g.size ≤ k.size) (agree : ∀ x, base ≤ x → x < g.size → k.byteAt x = g.byteAt x) :
    arrayLength (.array element mode .c pointer) base given k = .ok done.length k := by
  obtain ⟨items, same, allowed, -, ended⟩ := carries
  cases same
  rw [List.length_map] at allowed
  rcases tells with rfl | ⟨rfl, sized⟩
  · have counted : (done.map Prod.fst).length = done.length := List.length_map _
    rw [← counted]
    rfl
  · cases mode with
    | fixed n =>
      simp only [lengthAllows, beq_iff_eq] at allowed
      rw [arrayLength, allowed]
      rfl
    | zeroTerminated =>
      have room := filled.inside
      have blank := filled.blank
      have fresh := filled.fresh
      have guarded := h.guarded
      simp only [if_true] at room blank
      refine terminatedLength_of_slots (Nat.le_trans guarded fresh) (by omega) (fun i below => ?_)
        fun x above below => ?_
      · have reach : (i + 1) * element.size ≤ done.length * element.size :=
          Nat.mul_le_mul_right _ below
        rw [Nat.add_one_mul] at reach room
        have found : done[i]? = some done[i] := List.getElem?_eq_getElem below
        rw [Heap.slotAt_congr fun x above below => agree x (by omega) (by omega)]
        exact (filled.slots i _ found).2
          (ended rfl _ (List.mem_map.2 ⟨done[i], List.getElem_mem _, rfl⟩))
      · rw [agree x (by omega) (by omega)]
        exact blank x above below
    | parameter | unspecified => cases sized

theorem Filled.stores (data : element.isData = true)
    (filled : Filled h g element base (done.length + if mode = .zeroTerminated then 1 else 0) done)
    (carries : (Descriptor.array element mode .c pointer).Carries (.array (done.map Prod.fst))) :
    Stores h g (.array element mode .c pointer) (.ofNat base) (.array (done.map Prod.fst))
      (.array (done.map Prod.snd)) := by
  have guarded : 16 ≤ h.size := h.guarded
  have fresh := filled.fresh
  have inside := filled.inside
  have bound := g.size_le_capacity
  have word := Heap.capacity_lt
  have address : (Slot.ofNat base).toNat = base := Slot.toNat_ofNat (by omega)
  have places : done.length * element.size ≤
      (done.length + if mode = .zeroTerminated then 1 else 0) * element.size :=
    Nat.mul_le_mul_right _ (Nat.le_add_right _ _)
  refine ⟨filled.retains, (Slot.ofNat base).toNat_lt, fun _ => by omega, ?_,
    fun given tells m held copy larger agree => ?_⟩
  · exact equalItems_of_forall filled.equal
  · have same : ∀ x, base ≤ x → x < g.size → m.heap.byteAt x = g.byteAt x :=
      fun x above below => agree x (by omega) below
    have length : (Memory.onHeap (arrayLength (.array element mode .c pointer) base given) :
        ConversionM Nat) m = .ok done.length m := by
      rw [Memory.onHeap, filled.arrayLength_eq carries tells larger same]
    have each : ∀ i w, (done.map Prod.snd)[i]? = some w → ∀ held,
        lift held element (m.heap.slotAt (base + i * element.size) element.size) none copy m =
          .ok w m := by
      intro i w found held
      rw [List.getElem?_map, Option.map_eq_some_iff] at found
      obtain ⟨p, entry, rfl⟩ := found
      have reach : (i + 1) * element.size ≤ done.length * element.size :=
        Nat.mul_le_mul_right _ (List.getElem?_eq_some_iff.1 entry).1
      rw [Nat.add_one_mul] at reach
      rw [Heap.slotAt_congr fun x above below => same x (by omega) (by omega)]
      exact (filled.slots i p entry).1 m held copy larger fun x above below =>
        same x (by omega) below
    have buffer : liftBuffer (fun held item => lift held element item none copy) held element base
        (done.map Prod.snd).length m = .ok (.array (done.map Prod.snd)) m :=
      liftBuffer_eq data (Nat.le_trans guarded fresh) (by rw [List.length_map]; omega) each
    rw [List.length_map] at buffer
    rw [lift, Slot.isNull, address, if_neg (by rw [beq_iff_eq]; omega), Action.bind_of_ok length]
    exact buffer

variable {r : Repository} {form : ArrayForm} {lowerItem : Value → ConversionM Slot}
  {nullable : Bool} {m : Memory} {limit : Nat}

theorem packArray_roundTrips
    (trips : ∀ item, element.Carries item → RoundTrips (lowerItem item) element item)
    (data : (Descriptor.array element mode form pointer).isData = true)
    (carries : (Descriptor.array element mode form pointer).Carries v)
    (enough : m.heap.size + (Descriptor.array element mode form pointer).room v ≤ limit) :
    (packArray r d element mode form lowerItem v nullable).Gives m
      (fun packed t =>
        some packed.2 = v.items?.map List.length ∧
          t.heap.size ≤ m.heap.size + (Descriptor.array element mode form pointer).room v ∧
          ∃ w, Stores m.heap t.heap (.array element mode form pointer) packed.1 v w)
      (fun _ _ => False) (Heap.Full limit) := by
  simp only [Descriptor.isData, Bool.and_eq_true, beq_iff_eq] at data
  obtain ⟨⟨rfl, sized⟩, data⟩ := data
  have sizes := Descriptor.size_of_isData data
  have fitting := carries
  obtain ⟨items, rfl, allowed, each, -⟩ := carries
  simp only [Descriptor.room] at enough ⊢
  have places : (items.length + if mode = .zeroTerminated then 1 else 0) * element.size ≤
      (items.length + 1) * element.size := by
    apply Nat.mul_le_mul_right
    split <;> omega
  have aligned : max element.align 1 - 1 ≤ 7 := by
    unfold Descriptor.align
    split
    · decide
    · split
      · decide
      · split <;> decide
  have positive : element.size ≤ (items.length + 1) * element.size :=
    Nat.le_mul_of_pos_left element.size (Nat.succ_pos items.length)
  rw [packArray_eq allowed, Action.gives_bind, Action.gives_touch]
  apply Heap.gives_alloc_unless
  · intro base after least room near
    have started : Filled m.heap _ element base
        (items.length + if mode = .zeroTerminated then 1 else 0) [] :=
      .start (Nat.le_max_left _ 1) after least room
    rw [Action.gives_bind]
    have size := Heap.size_extend after least room
    generalize m.heap.extend base _ after least room = g at started size ⊢
    refine (packItems_fills (m := { m with heap := g }) data sized
      (fun item listed => trips item (each item listed)) started ?_ ?_).mono ?_
      fun _ _ never => never
    · rw [List.length_nil, Nat.zero_add]
      exact Nat.le_add_right _ _
    · dsimp only
      omega
    · rintro _ t ⟨bound, done, same, filled⟩
      dsimp only at bound
      rw [List.map_nil, List.nil_append] at same
      subst same
      rw [List.length_map] at filled
      refine ⟨by simp [Value.items?], by omega, _, filled.stores data fitting⟩
  · intro full
    exact ⟨rfl, by omega⟩

end Arrays

/-! ### Chains -/

section Chains

variable {singlyLinked pointer : Bool} {head node : Nat}

/-- A chain at `head` whose items read as the values in `done` beside the items they come from. -/
structure Strung (h g : Heap) (element : Descriptor) (singlyLinked : Bool) (head : Nat)
    (done : List (Value × Value)) : Prop where
  retains : h.Retains g
  fresh : head ≠ 0 → h.size ≤ head
  live : head ≠ 0 → g.Live ⟨head, nodeSize singlyLinked⟩
  nonempty : done ≠ [] → head ≠ 0
  long : 16 * done.length ≤ g.size
  equal : ∀ p ∈ done, p.2.equals p.1 = true
  reads : ChainReads g h.size element head (done.map Prod.snd)

namespace Strung

theorem nil (h : Heap) (element : Descriptor) (singlyLinked : Bool) :
    Strung h h element singlyLinked 0 [] where
  retains := .refl h
  fresh some := absurd rfl some
  live some := absurd rfl some
  nonempty some := absurd rfl some
  long := by simp
  equal := by simp
  reads := chainReads_nil h h.size element

theorem head_lt (strung : Strung h g element singlyLinked head done) : head < UInt64.size := by
  by_cases zero : head = 0
  · rw [zero]
    decide
  · exact Nat.lt_of_le_of_lt (Nat.le_add_right _ _) (strung.live zero).lt_word

theorem prepend (strung : Strung h g element singlyLinked head done)
    (sized : element.isSelfSized = true) (stores : Stores g k element slot v w)
    (prepended : Prepended k t singlyLinked slot head node) :
    Strung h t element singlyLinked node ((v, w) :: done) := by
  have guarded : 16 ≤ h.size := h.guarded
  have older := strung.retains.size_le
  have old := stores.retains.size_le
  have after := prepended.after
  have size := prepended.size_eq
  have large := sixteen_le_nodeSize singlyLinked
  have inside : head ≠ 0 → head + nodeSize singlyLinked ≤ g.size := fun some =>
    (strung.live some).inside.2.2
  -- Of what was there before, the new node changes the link back of the old head only.
  have kept : ∀ x < k.size, (head ≠ 0 → x < head + 16 ∨ g.size ≤ x) → t.byteAt x = k.byteAt x := by
    intro x below outside
    apply prepended.byteAt_eq x below
    intro some
    have := inside some
    simp only [previousOffset]
    have := outside some
    omega
  refine ⟨?_, fun _ => by omega, fun _ => prepended.live, fun _ => by omega, ?_, ?_, ?_⟩
  · refine ⟨⟨by omega, fun x below => ?_⟩, fun live => ?_⟩
    · have fresh := strung.fresh
      rw [kept x (by omega) (fun some => by have := fresh some; omega),
        stores.retains.byteAt_eq x (by omega), strung.retains.byteAt_eq x below]
    · exact prepended.keeps_live (stores.retains.keeps_live (strung.retains.keeps_live live))
  · have long := strung.long
    rw [List.length_cons]
    omega
  · simp only [List.forall_mem_cons]
    exact ⟨stores.equal, strung.equal⟩
  · apply chainReads_cons (show 16 ≤ node by omega) (by omega) prepended.next_eq
      strung.head_lt
    · intro m agree larger held copy
      rw [prepended.item_eq]
      apply stores.reads none (Descriptor.tells_none sized v) m held copy (by omega)
      intro x above below
      rw [agree x (by omega) (by omega), kept x below fun _ => .inr above]
    · intro some
      have := inside some
      omega
    · intro m held copy fuel enough larger agree
      apply strung.reads m held copy fuel enough larger
      intro x above below
      have some : head ≠ 0 := by omega
      have := inside some
      rw [agree x above below, kept x (by omega) fun _ => .inl below,
        stores.retains.byteAt_eq x (by omega)]

theorem stores (strung : Strung h g element singlyLinked head done) :
    Stores h g (.list element singlyLinked pointer) (.ofNat head) (.array (done.map Prod.fst))
      (.array (done.map Prod.snd)) := by
  have address : (Slot.ofNat head).toNat = head := Slot.toNat_ofNat strung.head_lt
  have bound := g.size_le_capacity
  have word := Heap.capacity_lt
  have long := strung.long
  refine ⟨strung.retains, (Slot.ofNat head).toNat_lt, fun marked => ?_, ?_, ?_⟩
  · rw [address]
    apply strung.nonempty
    simpa [Descriptor.storesZero] using marked
  · exact equalItems_of_forall strung.equal
  · intro given _ m held copy larger agree
    have reads := strung.reads m held copy chainBound
      (by rw [List.length_map, chainBound]; omega)
      (fun some => by
        have inside := (strung.live some).inside.2.2
        have := sixteen_le_nodeSize singlyLinked
        simp only [Block.stop] at inside
        omega)
      fun x above below => by
        have guarded : 16 ≤ h.size := h.guarded
        have some : head ≠ 0 := by omega
        have inside := (strung.live some).inside.2.2
        have := sixteen_le_nodeSize singlyLinked
        simp only [Block.stop] at inside
        exact agree x above (by omega)
    rw [lift, address, Action.bind_of_ok reads]
    rfl

end Strung

variable {lowerItem : Value → ConversionM Slot} {m : Memory} {limit : Nat}

theorem linkItems_strings {items : List Value} (sized : element.isSelfSized = true)
    (trips : ∀ item ∈ items, RoundTrips (lowerItem item) element item)
    (strung : Strung h m.heap element singlyLinked head done)
    (enough : m.heap.size + (items.map fun item => 31 + element.room item).sum ≤ limit) :
    (linkItems d singlyLinked lowerItem head items).Gives m
      (fun head t =>
        t.heap.size ≤ m.heap.size + (items.map fun item => 31 + element.room item).sum ∧
          ∃ all, all.map Prod.fst = items.reverse ++ done.map Prod.fst ∧
            Strung h t.heap element singlyLinked head all)
      (fun _ _ => False) (Heap.Full limit) := by
  induction items generalizing m head done with
  | nil => exact ⟨Nat.le_refl _, done, by simp, strung⟩
  | cons item rest ih =>
    have small : nodeSize singlyLinked ≤ 24 := by cases singlyLinked <;> decide
    simp only [List.map_cons, List.sum_cons] at enough ⊢
    rw [linkItems, Action.gives_bind, Action.gives_attempt]
    refine (trips item (by simp) m limit (by omega)).mono ?_ fun _ _ never => never.elim
    rintro slot t ⟨bound, w, stores⟩
    have linked := fun some : head ≠ 0 => stores.retains.keeps_live (strung.live some)
    rw [Action.gives_bind, Action.gives_touch]
    refine Action.Gives.mono (prependNode_gives linked fun full => ⟨rfl, by omega⟩) ?_
      fun _ _ never => never
    intro node k prepended
    have near := prepended.near
    have size := prepended.size_eq
    refine (ih (m := { t with heap := k }) (fun item later => trips item (by simp [later]))
      (strung.prepend sized stores prepended) (by dsimp only; omega)).mono ?_
      fun _ _ never => never
    rintro head u ⟨bound', all, same, longer⟩
    dsimp only at bound'
    refine ⟨by omega, all, ?_, longer⟩
    simpa using same

theorem buildList_roundTrips (sized : element.isSelfSized = true)
    (trips : ∀ item, element.Carries item → RoundTrips (lowerItem item) element item)
    (carries : (Descriptor.list element singlyLinked pointer).Carries v) :
    RoundTrips (buildList (.list element singlyLinked pointer) singlyLinked lowerItem v)
      (.list element singlyLinked pointer) v := by
  obtain ⟨items, rfl, each⟩ := carries
  intro m limit enough
  have total : (items.reverse.map fun item => 31 + element.room item).sum =
      (items.map fun item => 31 + element.room item).sum := by
    rw [List.map_reverse, List.sum_reverse]
  rw [buildList, Action.gives_bind]
  refine (linkItems_strings (m := m) sized
    (fun item listed => trips item (each item (List.mem_reverse.1 listed)))
    (.nil m.heap element singlyLinked) (by rwa [total])).mono ?_ fun _ _ never => never
  rintro head t ⟨bound, done, same, strung⟩
  rw [total] at bound
  rw [List.map_nil, List.append_nil, List.reverse_reverse] at same
  subst same
  exact ⟨bound, _, strung.stores⟩

end Chains

end ForeignCall
