import ForeignCall.Proofs.Conversion.Halting
import ForeignCall.Proofs.Heap.Histories

/-!
Arrays that reach past the end of the heap.

Each element is checked against the heap as it is when its turn comes. Where lifting an element copies
nothing that is the heap as it was at first, and an array that reaches past its end is refused. The copy
of a struct moves the end of the heap, though, and an array of structs can follow it.
-/

set_option autoImplicit false

namespace ForeignCall

open ForeignCall.Action

variable {held : List Value} {element : Descriptor} {base count position : Nat} {copy : Bool}
  {m t u : Memory} {items : List Value} {v : Value}

/-! ### One element after the other -/

/-- Lifts the element of an array at a position. -/
def liftElement (element : Descriptor) (base : Nat) (copy : Bool) (held : List Value)
    (position : Nat) : ConversionM Value := do
  let address ← ofExcept (elementAddress base position element.size)
  if element.isInlineStruct then liftInstance held element address true
  else lift held element (← Memory.touch (Heap.load address element.size)) none copy

theorem liftArray_eq (mode : ArrayLength) (form : ArrayForm) (pointer : Bool) :
    liftArray held (.array element mode form pointer) base count copy = do
      let items ← liftPositions (liftElement element base copy) held count 0
      return .array items := rfl

/-- Each of the elements was lifted, with those before it held. -/
theorem turn_of_liftPositions {liftAt : List Value → Nat → ConversionM Value}
    (ran : liftPositions liftAt held count position m = .ok items t) :
    items.length = count ∧ ∀ i < count, ∃ v u u',
      liftPositions liftAt held i position m = .ok (items.take i) u ∧
        liftAt ((items.take i).reverse ++ held) (position + i) u = .ok v u' := by
  induction count generalizing held position m items with
  | zero =>
    cases ran
    exact ⟨rfl, fun i below => absurd below (Nat.not_lt_zero i)⟩
  | succ count ih =>
    obtain ⟨v, u, lifted, onward⟩ := exists_of_bind ran
    obtain ⟨others, u', rest, done⟩ := exists_of_bind onward
    cases done
    obtain ⟨length, turns⟩ := ih rest
    refine ⟨by rw [List.length_cons, length], fun i below => ?_⟩
    cases i with
    | zero => exact ⟨v, m, u, rfl, lifted⟩
    | succ i =>
      obtain ⟨w, x, x', earlier, here⟩ := turns i (Nat.lt_of_succ_lt_succ below)
      refine ⟨w, x, x', ?_, ?_⟩
      · rw [liftPositions, bind_of_ok lifted, bind_of_ok earlier, List.take_succ_cons]
        rfl
      · rwa [List.take_succ_cons, List.reverse_cons, List.append_assoc, List.singleton_append,
          Nat.add_comm i 1, ← Nat.add_assoc]

/-- The element at an address is given without a look at the heap: it is null, or a wrapper that is held
stands for the address. -/
def Descriptor.Identified (element : Descriptor) (held : List Value) (m : Memory) (address : Nat) :
    Prop :=
  element.isInlineStruct = true ∧ (address = 0 ∨ (m.wrappers.lookup? held address).isSome = true)

theorem accessible_of_load {address size : Nat} {slot : Slot}
    (ran : (Memory.touch (Heap.load address size) : ConversionM Slot) m = .ok slot u) :
    m.heap.Accessible address size := by
  by_contra outside
  have refused : (Memory.touch (Heap.load address size) : ConversionM Slot).Gives m
      (fun _ _ => False) (fun _ _ => True) := by
    rw [gives_touch, Heap.load, gives_bind]
    simp only [Gives, Heap.read, if_neg outside]
  exact refused.of_ok ran

theorem accessible_of_copyBlock {address size copied : Nat}
    (ran : (Memory.touch (Heap.copyBlock address size) : ConversionM Nat) m = .ok copied u) :
    m.heap.Accessible address size := by
  by_contra outside
  have refused : (Memory.touch (Heap.copyBlock address size) : ConversionM Nat).Gives m
      (fun _ _ => False) (fun _ _ => True) := by
    rw [gives_touch, Heap.copyBlock, gives_bind]
    simp only [Gives, Heap.read, if_neg outside]
  exact refused.of_ok ran

namespace Descriptor

theorem exists_of_isInlineStruct (inline : element.isInlineStruct = true) :
    ∃ size name, element = .named (.structured size true) name false := by
  cases element with
  | named type name pointer =>
    cases type with
    | structured size byValue =>
      cases byValue <;> cases pointer <;> cases inline
      exact ⟨size, name, rfl⟩
    | _ => cases inline
  | _ => cases inline

end Descriptor

/-- An element that is lifted lies in the heap as it is then, or is given without a look at it. -/
theorem served_of_liftElement (ran : liftElement element base copy held position m = .ok v u) :
    element.Identified held m (base + position * element.size) ∨
      m.heap.Accessible (base + position * element.size) element.size := by
  obtain ⟨address, m', placed, onward⟩ := exists_of_bind ran
  rw [elementAddress] at placed
  split at placed
  · cases placed
    by_cases inline : element.isInlineStruct = true
    · rw [if_pos inline] at onward
      obtain ⟨size, name, rfl⟩ := Descriptor.exists_of_isInlineStruct inline
      unfold liftInstance at onward
      split at onward
      · rename_i null
        exact .inl ⟨rfl, .inl null⟩
      · obtain ⟨m', x, state, looked⟩ := exists_of_bind onward
        cases state
        cases found : m.wrappers.lookup? held (base + position * _) with
        | some w => exact .inl ⟨rfl, .inr (by rw [found]; rfl)⟩
        | none =>
          rw [found] at looked
          cases size with
          | none => cases looked
          | some size =>
            obtain ⟨copied, x, copies, -⟩ := exists_of_bind looked
            exact .inr (accessible_of_copyBlock copies)
    · rw [if_neg inline] at onward
      obtain ⟨item, x, loaded, -⟩ := exists_of_bind onward
      exact .inr (accessible_of_load loaded)
  · cases placed

theorem across_liftElement {R : Memory → Memory → Prop} (c : Wrapping R)
    (grows : element.copies copy = true → Growing R) (held : List Value) (position : Nat) :
    (liftElement element base copy held position).Across R := by
  have s := c.toComposes
  refine (across_ofExcept s _).bind s fun address => ?_
  split
  · rename_i inline
    exact across_liftInstance c _ _ _ _ fun _ =>
      grows (Descriptor.copies_of_isInlineStruct inline copy)
  · refine (c.load _ _).bind s fun item => ?_
    exact across_lift_of_copies c held element item none copy grows

theorem halting_liftElement (held : List Value) (position : Nat) :
    (liftElement element base copy held position).Halting (element.HaltsBy copy) := by
  refine (halting_ofExcept _).bind fun address => ?_
  split
  · rename_i inline
    exact halting_liftInstance _ _ fun _ => Descriptor.copies_of_isInlineStruct inline copy
  · exact (Heap.halting_load _ _).mapError.onHeap.bind fun item => lift_halting _ _ _

/-! ### Elements that copy nothing -/

theorem wrapping_heap : Wrapping fun m t : Memory => t.heap = m.heap where
  refl _ := rfl
  trans first second := second.trans first
  wrappers _ _ _ := rfl

/-- Where lifting an element copies no struct, an array that reaches past the end of the heap is
refused. -/
theorem liftPositions_refused (some : 1 ≤ count)
    (past : m.heap.size < base + count * element.size) (uncopied : element.copies copy = false) :
    (liftPositions (liftElement element base copy) held count 0).Gives m (fun _ _ => False)
      (fun _ t => t.heap = m.heap) fun h => h = .endless ∧ element.chained = true := by
  have same (count : Nat) : (liftPositions (liftElement element base copy) held count 0).Across
      fun m t => t.heap = m.heap :=
    across_liftPositions wrapping_heap (fun held position => across_liftElement wrapping_heap
      (fun copies => absurd (uncopied.symm.trans copies) Bool.false_ne_true) held position) held count 0
  have halts : (liftPositions (liftElement element base copy) held count 0).Halting
      (element.HaltsBy copy) := halting_liftPositions halting_liftElement count 0
  have refused : (liftPositions (liftElement element base copy) held count 0).Gives m
      (fun _ _ => False) (fun _ _ => True) fun _ => True := by
    refine (gives_self _ m).mono (fun items t ran => ?_) fun _ _ _ => trivial
    -- The last element is not in the heap, which is still what it was when its turn comes.
    obtain ⟨v, u, u', earlier, last⟩ :=
      (turn_of_liftPositions ran).2 (count - 1) (Nat.sub_one_lt_of_lt some)
    have here : u.heap = m.heap := ((same (count - 1)) m).of_ok earlier
    rcases served_of_liftElement last with ⟨inline, -⟩ | ⟨-, inside⟩
    · exact absurd (uncopied.symm.trans (Descriptor.copies_of_isInlineStruct inline copy))
        Bool.false_ne_true
    · rw [here, Nat.zero_add, Nat.add_assoc, ← Nat.succ_mul, Nat.succ_eq_add_one,
        Nat.sub_add_cancel some] at inside
      omega
  refine (((halts m).both ((same count m).both refused)).mono (fun _ _ never => never.2.2) ?_).mono_halted ?_
  · exact fun _ _ failed => failed.2.1
  · rintro (_ | _) halts
    · exact ⟨rfl, halts⟩
    · exact absurd (uncopied.symm.trans halts) Bool.false_ne_true

/-! ### Structs that are copied out -/

theorem WrapperTable.cached_wrap_of_ne (t : WrapperTable) (held : List Value) {address a : Nat}
    (other : a ≠ address) (typeName : String) (adopts : Bool) :
    (t.wrap held address typeName adopts).2.cached[a]? = t.cached[a]? := by
  unfold wrap
  cases t.lookup? held address with
  | some w => rfl
  | none =>
    dsimp only [fresh]
    rw [Std.TreeMap.getElem?_insert, if_neg]
    exact fun same => other (Std.LawfulEqCmp.eq_of_compare same).symm

/-- A copy is at an address of its own, a multiple of eight, and as long as the original. -/
theorem Heap.copyBlock_extends {h : Heap} {address size : Nat} (within : h.Accessible address size) :
    (Heap.copyBlock address size).Gives h
      (fun a g => h.size ≤ a ∧ 8 ∣ a ∧ h.size + size ≤ g.size) fun _ _ => False := by
  have asks : (HeapOperation.copyBlock address size).requests ≠ [] := List.cons_ne_nil _ _
  refine (Heap.gives_copyBlock.both (HeapOperation.run_serves asks)).mono ?_ ?_
  · rintro a g ⟨-, serves⟩
    have grows := serves.grows
    have here : a = alignUp h.size 8 := Option.some.inj serves.answered
    have live := (grows.live (List.mem_singleton_self _)).inside.2.2
    have after := le_alignUp h.size 8
    have long := Nat.le_max_left size 1
    simp only [HeapOperation.Request.serve, Block.stop] at live
    refine ⟨here ▸ after, here ▸ dvd_alignUp h.size 3, by omega⟩
  · rintro e g ⟨-, source, size', same, outside, -⟩
    cases same
    exact outside within

/-- A struct for whose address no wrapper is known is copied out. -/
theorem liftInstance_of_unknown {address size : Nat} {name : String} (somewhere : address ≠ 0)
    (unknown : m.wrappers.cached[address]? = none) :
    liftInstance held (.named (.structured (some size) true) name false) address true m =
      (do
        let copied ← Memory.touch (Heap.copyBlock address size)
        return .object (← Memory.wrap held copied name true) : ConversionM Value) m := by
  have state : (get : ConversionM Memory) m = .ok m m := rfl
  have missed : m.wrappers.lookup? held address = none := by
    rw [WrapperTable.lookup?, unknown]
    rfl
  rw [liftInstance, if_neg somewhere, bind_of_ok state, missed]
  rfl

/-- A struct in the heap for whose address no wrapper is known is copied out. What the table has for
addresses below the end of the heap, and for those that are no multiple of eight, stays. -/
theorem liftElement_extends {size : Nat} {name : String}
    (inline : element = .named (.structured (some size) true) name false)
    (within : m.heap.Accessible (base + position * size) size)
    (unknown : m.wrappers.cached[base + position * size]? = none) :
    (liftElement element base copy held position).Gives m
      (fun _ t => m.heap.size + size ≤ t.heap.size ∧ ∀ a, (m.heap.size ≤ a → ¬ 8 ∣ a) →
        t.wrappers.cached[a]? = m.wrappers.cached[a]?) fun _ _ => False := by
  subst inline
  obtain ⟨guarded, inside⟩ := within
  have somewhere : base + position * size ≠ 0 := by
    simp only [Heap.guardSize] at guarded
    omega
  have placed : elementAddress base position size = .ok (base + position * size) := by
    rw [elementAddress, if_pos]
    have := m.heap.size_le_capacity
    have := Heap.capacity_lt
    omega
  change (ofExcept (elementAddress base position size) >>= fun address =>
    liftInstance held (.named (.structured (some size) true) name false) address true).Gives m _ _
  rw [placed, gives_bind, gives_ofExcept]
  dsimp only
  rw [Gives, liftInstance_of_unknown somewhere unknown, ← Gives, gives_bind, gives_touch]
  refine (Heap.copyBlock_extends ⟨guarded, inside⟩).mono ?_ fun _ _ never => never
  rintro copied h ⟨after, aligned, longer⟩
  refine ⟨longer, fun a unaligned => WrapperTable.cached_wrap_of_ne _ _ ?_ _ _⟩
  rintro rfl
  exact unaligned after aligned

/-- One struct after the other is copied out, and each copy moves the end of the heap past the next
one. -/
theorem liftPositions_extends {size : Nat} {name : String}
    (inline : element = .named (.structured (some size) true) name false)
    (within : m.heap.Accessible (base + position * size) size)
    (unknown : ∀ i < count, m.wrappers.cached[base + (position + i) * size]? = none)
    (unaligned : ∀ i < count, m.heap.size ≤ base + (position + i) * size →
      ¬ 8 ∣ base + (position + i) * size) :
    (liftPositions (liftElement element base copy) held count position).Gives m
      (fun _ _ => True) fun _ _ => False := by
  induction count generalizing held position m with
  | zero => trivial
  | succ count ih =>
    rw [liftPositions, gives_bind]
    refine (liftElement_extends inline within (unknown 0 (Nat.succ_pos _))).mono ?_
      fun _ _ never => never
    rintro v t ⟨longer, kept⟩
    have next (i : Nat) : position + 1 + i = position + (i + 1) := by omega
    rw [gives_bind]
    refine (ih ?_ (fun i below => ?_) fun i below beyond => ?_).mono (fun _ _ _ => trivial)
      fun _ _ never => never
    · obtain ⟨guarded, inside⟩ := within
      rw [Heap.Accessible, Nat.succ_mul]
      omega
    · rw [next, kept _ (unaligned (i + 1) (Nat.succ_lt_succ below))]
      exact unknown (i + 1) (Nat.succ_lt_succ below)
    · rw [next] at beyond ⊢
      exact unaligned (i + 1) (Nat.succ_lt_succ below) (by omega)

/-- If there is no first struct, it is looked for and missed. -/
theorem liftPositions_missed {size : Nat} {name : String} (some : 1 ≤ count)
    (inline : element = .named (.structured (.some size) true) name false)
    (outside : ¬ m.heap.Accessible base size) (somewhere : base ≠ 0)
    (unknown : m.wrappers.cached[base]? = none) :
    (liftPositions (liftElement element base copy) held count 0).Gives m (fun _ _ => False)
      (fun _ t => t = m) fun _ => False := by
  subst inline
  obtain ⟨rest, rfl⟩ := Nat.exists_eq_add_of_le' some
  have first : (liftElement (.named (.structured (.some size) true) name false) base copy held
      0).Gives m (fun _ _ => False) (fun _ t => t = m) fun _ => False := by
    change (ofExcept (elementAddress base 0 size) >>= fun address =>
      liftInstance held (.named (.structured (.some size) true) name false) address true).Gives m _ _ _
    rw [gives_bind, gives_ofExcept]
    rcases placed : elementAddress base 0 size with fault | address
    · rfl
    · rw [elementAddress, Nat.zero_mul, Nat.add_zero] at placed
      split at placed
      · cases placed
        dsimp only
        rw [Gives, liftInstance_of_unknown somewhere unknown, ← Gives, gives_bind, gives_touch,
          Heap.copyBlock, gives_bind]
        simp only [Gives, Heap.read, if_neg outside]
      · cases placed
  rw [liftPositions, gives_bind]
  exact first.mono (fun _ _ never => never.elim) fun _ _ same => same

/-! ### Arrays -/

/-- An array that reaches past the end of the heap is refused, and nothing is copied, if its elements
copy nothing. Otherwise it is lifted only if each element past that end is null, has a wrapper that is
held, or lies in what the copies of those before it have added to the heap. Structs that have no wrapper
do so by themselves: if the first one is in the heap, any number of them is lifted, unless the addresses
run out. -/
theorem liftArray_past_end (some : 1 ≤ count) (past : m.heap.size < base + count * element.size)
    (mode : ArrayLength) (form : ArrayForm) (pointer : Bool) :
    let lifting := liftArray held (.array element mode form pointer) base count copy
    (element.copies copy = false →
      lifting.Gives m (fun _ _ => False) (fun _ t => t.heap = m.heap)
        fun h => h = .endless ∧ element.chained = true) ∧
    (∀ v t, lifting m = .ok v t → ∃ items, v = .array items ∧ items.length = count ∧
      ∀ i < count, m.heap.size < base + (i + 1) * element.size → ∃ u copies,
        liftPositions (liftElement element base copy) held i 0 m = .ok (items.take i) u ∧
        m.heap.Grows u.heap copies ∧
        (element.Identified ((items.take i).reverse ++ held) u (base + i * element.size) ∨
          m.heap.size < u.heap.size ∧
            u.heap.Accessible (base + i * element.size) element.size)) ∧
    (∀ size name, element = .named (.structured (.some size) true) name false → base ≠ 0 →
      (∀ i < count, m.wrappers.cached[base + i * size]? = none ∧
        (m.heap.size ≤ base + i * size → ¬ 8 ∣ base + i * size)) →
      (m.heap.Accessible base size → lifting.Gives m (fun _ _ => True) fun _ _ => False) ∧
      (¬ m.heap.Accessible base size →
        lifting.Gives m (fun _ _ => False) (fun _ t => t = m) fun _ => False)) := by
  dsimp only
  rw [liftArray_eq]
  refine ⟨fun uncopied => ?_, fun v t ran => ?_, fun size name inline somewhere unknown => ⟨?_, ?_⟩⟩
  · rw [gives_bind]
    exact (liftPositions_refused some past uncopied).mono (fun _ _ never => never.elim)
      fun _ _ same => same
  · obtain ⟨items, u, lifted, done⟩ := exists_of_bind ran
    cases done
    obtain ⟨length, turns⟩ := turn_of_liftPositions lifted
    refine ⟨items, rfl, length, fun i below beyond => ?_⟩
    obtain ⟨w, u, u', earlier, here⟩ := turns i below
    obtain ⟨⟨copies, grows⟩, -⟩ := (across_liftPositions Memory.copies_copied.toWrapping
      (across_liftElement Memory.copies_copied.toWrapping fun _ => Memory.copies_copied.grows)
      held i 0 m).of_ok earlier
    refine ⟨u, copies, earlier, grows, ?_⟩
    rw [Nat.zero_add] at here
    rcases served_of_liftElement here with identified | within
    · exact .inl identified
    · have inside := within.2
      rw [Nat.succ_mul] at beyond
      exact .inr ⟨by omega, within⟩
  · intro within
    rw [gives_bind]
    refine (liftPositions_extends inline ?_ (fun i below => ?_) fun i below => ?_).mono
      (fun _ _ _ => trivial) fun _ _ never => never
    · simpa using within
    · rw [Nat.zero_add]
      exact (unknown i below).1
    · rw [Nat.zero_add]
      exact (unknown i below).2
  · intro outside
    have first := (unknown 0 some).1
    rw [Nat.zero_mul, Nat.add_zero] at first
    rw [gives_bind]
    exact (liftPositions_missed some inline outside somewhere first).mono
      (fun _ _ never => never.elim) fun _ _ same => same

/-- Four numbers where there is room for three. -/
theorem liftArray_past_end_numbers :
    let number : Descriptor := .basic (.integer ⟨.w32, true⟩) false
    ∃ m : Memory, (Memory.touch (Heap.alloc 12 8) : ConversionM Nat) .empty = .ok 16 m ∧
      m.heap.size < 16 + 4 * number.size ∧ number.copies false = false ∧
      (liftArray [] (.array number .unspecified .c true) 16 4 false).Gives m (fun _ _ => False)
        (fun _ t => t.heap = m.heap) fun _ => False := by
  intro number
  obtain ⟨a, m, made, facts⟩ := exists_ok_such
    (x := (Memory.touch (Heap.alloc 12 8) : ConversionM Nat)) (s := Memory.empty)
    (fun a m => a == 16 && m.heap.size == 28) (by decide +kernel)
  simp only [Bool.and_eq_true, beq_iff_eq] at facts
  obtain ⟨rfl, size⟩ := facts
  have past : m.heap.size < 16 + 4 * number.size := by
    rw [size]
    decide
  refine ⟨m, made, past, rfl, ?_⟩
  refine ((liftArray_past_end (by decide) past .unspecified .c true).1 rfl).mono_halted ?_
  rintro h ⟨-, ⟨⟩⟩

/-- Two structs are lifted where there is room for one. -/
theorem liftArray_follows_heap :
    let point : Descriptor := .named (.structured (some 12) true) "T.P" false
    ∃ (m t : Memory) (v : Value),
      (Memory.touch (Heap.alloc 12 8) : ConversionM Nat) .empty = .ok 16 m ∧
      m.heap.size < 16 + 2 * point.size ∧
      liftArray [] (.array point .unspecified .c true) 16 2 false m = .ok v t := by
  intro point
  obtain ⟨a, m, made, facts⟩ := exists_ok_such
    (x := (Memory.touch (Heap.alloc 12 8) : ConversionM Nat)) (s := Memory.empty)
    (fun a m => a == 16 && m.heap.size == 28 &&
      (liftArray [] (.array point .unspecified .c true) 16 2 false).succeeds m fun _ _ => true)
    (by decide +kernel)
  simp only [Bool.and_eq_true, beq_iff_eq] at facts
  obtain ⟨⟨rfl, size⟩, lifts⟩ := facts
  obtain ⟨v, t, lifted, -⟩ := exists_ok_such _ lifts
  refine ⟨m, t, v, made, ?_, lifted⟩
  rw [size]
  decide

end ForeignCall
