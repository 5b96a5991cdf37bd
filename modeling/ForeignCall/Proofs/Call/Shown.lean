import ForeignCall.Call.Outputs
import ForeignCall.Proofs.Call.Slots
import ForeignCall.Proofs.Conversion.Measuring
import ForeignCall.Proofs.Conversion.RoundTrip

/-!
What the arguments of a call hold once they are filled.

An argument that is passed by reference is in a cell of its own, any other in its slot. Plain data is
read from there as a value equal to the one that was passed, and what is filled after it leaves that
alone. Nothing is refused but address space.
-/

set_option autoImplicit false

namespace ForeignCall

variable {env : Environment} {plan : Plan} {p q : Parameter} {v : Value} {s t u : Scratch}
  {slot : Slot} {position limit : Nat} {positions : List Nat} {halted : Halt → Prop}
  {failed : CallError → Scratch → Prop}

/-- The present value of an argument: its cell holds it, or it is in the slot itself if it is not
passed by reference. -/
def Frame.Shows (f : Frame) (h : Heap) (position : Nat) (p : Parameter) (slot : Slot) : Prop :=
  match f.cell? position with
  | some (.value cell) => h.Accessible cell p.type.slotSize ∧ h.slotAt cell p.type.slotSize = slot
  | some (.block _) => False
  | none => p.direction ≠ .inout ∧ f.slot position = slot

theorem Frame.Shows.frame {f : Frame} {h g : Heap} (shows : f.Shows h position p slot)
    (grown : h.size ≤ g.size) (same : ∀ x < h.size, g.byteAt x = h.byteAt x) :
    f.Shows g position p slot := by
  unfold Frame.Shows at *
  split at shows
  · obtain ⟨within, found⟩ := shows
    have inside := within.2
    refine ⟨⟨within.1, by omega⟩, (Heap.slotAt_congr fun x _ below => ?_).trans found⟩
    exact same x (by omega)
  · exact shows
  · exact shows

/-- An argument that nothing was put in yet. -/
structure Frame.Vacant (f : Frame) (position : Nat) : Prop where
  slot : position < f.slots.length
  cell : f.cells[position]? = some none

theorem Frame.Vacant.start {count : Nat} (inside : position < count) :
    (Frame.start count).Vacant position :=
  ⟨by simpa [Frame.start], by simp [Frame.start, inside]⟩

/-- From `s` to `t` only the arguments at some positions were filled. -/
structure Scratch.Fills (s t : Scratch) (positions : List Nat) : Prop where
  retains : s.memory.heap.Retains t.memory.heap
  slots : t.frame.slots.length = s.frame.slots.length
  slot_eq : ∀ i, i ∉ positions → t.frame.slot i = s.frame.slot i
  cells : ∀ i, i ∉ positions → t.frame.cells[i]? = s.frame.cells[i]?
  errorCell : t.frame.errorCell = s.frame.errorCell
  outputs : t.frame.outputs = s.frame.outputs

namespace Scratch.Fills

theorem refl (s : Scratch) : s.Fills s [] :=
  ⟨.refl _, rfl, fun _ _ => rfl, fun _ _ => rfl, rfl, rfl⟩

theorem trans {more : List Nat} (first : s.Fills t positions) (second : t.Fills u more) :
    s.Fills u (positions ++ more) where
  retains := first.retains.trans second.retains
  slots := second.slots.trans first.slots
  slot_eq i outside := by
    rw [List.mem_append, not_or] at outside
    rw [second.slot_eq i outside.2, first.slot_eq i outside.1]
  cells i outside := by
    rw [List.mem_append, not_or] at outside
    rw [second.cells i outside.2, first.cells i outside.1]
  errorCell := second.errorCell.trans first.errorCell
  outputs := second.outputs.trans first.outputs

theorem vacant (fills : s.Fills t positions) (apart : position ∉ positions)
    (vacant : s.frame.Vacant position) : t.frame.Vacant position :=
  ⟨fills.slots ▸ vacant.slot, (fills.cells position apart).trans vacant.cell⟩

theorem cell?_eq (fills : s.Fills t positions) (apart : position ∉ positions) :
    t.frame.cell? position = s.frame.cell? position := by
  rw [Frame.cell?, fills.cells position apart, Frame.cell?]

theorem shows (fills : s.Fills t positions) (apart : position ∉ positions)
    (shows : s.frame.Shows s.memory.heap position p slot) :
    t.frame.Shows t.memory.heap position p slot := by
  have shown := shows.frame fills.retains.size_le fills.retains.byteAt_eq
  unfold Frame.Shows at *
  rwa [fills.cell?_eq apart, fills.slot_eq position apart]

end Scratch.Fills

/-- What is put in a slot and in a cell, if there is one, at a position. -/
theorem Scratch.fills_set {h : Heap} {cells : List (Option Cell)}
    (retains : s.memory.heap.Retains h)
    (same : ∀ i, i ≠ position → cells[i]? = s.frame.cells[i]?) :
    s.Fills ⟨{ s.frame with slots := s.frame.slots.set position slot, cells := cells },
      { s.memory with heap := h }⟩ [position] where
  retains := retains
  slots := List.length_set
  slot_eq i outside := by
    rw [Frame.slot_set, if_neg (by simp_all)]
  cells i outside := same i (by simpa using outside)
  errorCell := rfl
  outputs := rfl

/-! ### Native memory -/

/-- A new block of a word: its bytes are zero. -/
theorem gives_word {h : Heap} {failed : HeapFault → Heap → Prop} (enough : h.size + 15 ≤ limit) :
    (Heap.alloc 8 8).Gives h
      (fun cell g => h.Retains g ∧ g.size ≤ h.size + 15 ∧ h.size ≤ cell ∧ g.Accessible cell 8 ∧
        g.slotAt cell 8 = .null)
      failed (Heap.Full limit) := by
  apply Heap.gives_alloc_unless
  · intro start after positive room near
    have guarded : Heap.guardSize ≤ h.size := h.guarded
    refine ⟨(Heap.Grows.extend after positive room).retains, ?_, after, ⟨by omega, ?_⟩, ?_⟩
    · rw [Heap.size_extend]
      omega
    · rw [Heap.size_extend]
      omega
    · apply Heap.slotAt_of_blank
      intro x above _
      rw [Heap.byteAt_extend]
      exact Heap.byteAt_of_size_le (by omega)
  · intro full
    exact ⟨rfl, by omega⟩

namespace FrameM

theorem current_gives (shows : s.frame.Shows s.memory.heap position p slot) :
    (current position p).Gives s (fun found t => found = slot ∧ t = s) failed halted := by
  unfold Frame.Shows at shows
  rw [current, Action.gives_bind, gives_frame]
  cases found : s.frame.cell? position with
  | none =>
    rw [found] at shows
    exact ⟨shows.2, rfl⟩
  | some c =>
    rw [found] at shows
    cases c with
    | value cell =>
      dsimp only at shows ⊢
      rw [gives_touch]
      exact Action.gives_of_ok (Heap.load_eq shows.1) ⟨shows.2, rfl⟩
    | block address => exact shows.elim

/-! ### Slots and cells -/

theorem setSlot_shows (vacant : s.frame.Vacant position)
    (enough : s.memory.heap.size + 15 ≤ limit) :
    (setSlot position p slot).Gives s
      (fun _ t => t.memory.heap.size ≤ s.memory.heap.size + 15 ∧ s.Fills t [position] ∧
        (slot.toNat < 256 ^ p.type.slotSize → p.type.slotSize ≤ 8 →
          t.frame.Shows t.memory.heap position p slot))
      (fun _ _ => False) (Heap.Full limit) := by
  unfold setSlot
  split
  · rw [Action.gives_bind, gives_touch]
    refine (gives_word enough).mono ?_ fun _ _ never => never
    rintro cell g ⟨retains, bound, fresh, within, -⟩
    have reach : min p.type.slotSize 8 ≤ 8 := Nat.min_le_right _ _
    have writable : g.Accessible cell (min p.type.slotSize 8) :=
      ⟨within.1, Nat.le_trans (Nat.add_le_add_left reach cell) within.2⟩
    rw [Action.gives_bind, gives_touch]
    refine Action.gives_of_ok (Heap.store_eq slot writable) ?_
    rw [gives_modifyFrame]
    refine ⟨?_, Scratch.fills_set (retains.overwritten ?_ fresh) fun i other => ?_,
      fun fits narrow => ?_⟩
    · rw [Heap.size_overwritten]
      exact bound
    · rwa [Slot.length_toBytes]
    · exact List.getElem?_set_ne other.symm
    · have inside : position < s.frame.cells.length :=
        (List.getElem?_eq_some_iff.1 vacant.cell).1
      have put : (s.frame.cells.set position (some (.value cell)))[position]? =
          some (some (.value cell)) := List.getElem?_set_self inside
      rw [Nat.min_eq_left narrow] at writable
      simp only [Frame.Shows, Frame.cell?, put, Option.join_some]
      refine ⟨?_, Heap.slotAt_stored_of_lt fits narrow writable⟩
      simpa only [Heap.Accessible, Heap.size_overwritten] using writable
  · rename_i direct
    rw [gives_modifyFrame]
    refine ⟨Nat.le_add_right _ _, Scratch.fills_set (.refl _) fun _ _ => rfl, fun _ _ => ?_⟩
    simp only [Frame.Shows, Frame.cell?, vacant.cell, Option.join_some]
    exact ⟨direct, (Frame.slot_set position).trans (if_pos ⟨rfl, vacant.slot⟩)⟩

end FrameM

/-- Address space enough for the cell of a parameter, whatever it is for. -/
def Parameter.cellRoom (p : Parameter) : Nat :=
  match p.type with
  | .named (.structured (some size) _) _ _ => 15 + size
  | _ => 15

theorem Parameter.le_cellRoom (p : Parameter) : 15 ≤ p.cellRoom := by
  unfold cellRoom
  split <;> omega

namespace FrameM

theorem allocCell_eq (p : Parameter) : ∃ (size : Nat) (cell : Nat → Cell),
    7 + max size 1 ≤ p.cellRoom ∧ allocCell p = (do return cell (← touch (Heap.alloc size 8))) := by
  unfold allocCell
  split
  · rename_i size _ _ _ type _
    refine ⟨size, .block, ?_, rfl⟩
    simp only [Parameter.cellRoom, type]
    omega
  · exact ⟨8, .value, p.le_cellRoom, rfl⟩

theorem setOutput_shows (enough : s.memory.heap.size + p.cellRoom ≤ limit) :
    (setOutput position p).Gives s
      (fun _ t => t.memory.heap.size ≤ s.memory.heap.size + p.cellRoom ∧ s.Fills t [position])
      (fun _ _ => False) (Heap.Full limit) := by
  obtain ⟨size, cell, wide, made⟩ := allocCell_eq p
  rw [setOutput, made, Action.gives_bind, Action.gives_bind, gives_touch]
  apply Heap.gives_alloc_unless
  · intro start after positive room near
    rw [Action.gives_pure, gives_modifyFrame]
    refine ⟨?_, Scratch.fills_set (Heap.Grows.extend after positive room).retains
      fun i other => List.getElem?_set_ne other.symm⟩
    rw [Heap.size_extend]
    omega
  · intro full
    exact ⟨rfl, by omega⟩

end FrameM

/-! ### Inputs -/

/-- An input that was lowered: its argument shows its slot, and the slot reads as a value equal to the
one that was given. -/
structure Lowered.Shown (plan : Plan) (s : Scratch) (x : Lowered) (given : Parameter × Value) :
    Prop where
  source : plan.parameters[x.position]? = some given.1
  visible : given.1.isVisible = true
  shows : s.frame.Shows s.memory.heap x.position given.1 x.slot
  counted : given.1.type.isArray = true → x.count = given.2.items?.map List.length
  reads : ∃ w, w.equals given.2 = true ∧ ∀ told, given.1.type.Tells told given.2 →
    Reads s.memory.heap 0 s.memory.heap.size given.1.type x.slot told w

theorem Lowered.Shown.frame {x : Lowered} {given : Parameter × Value} (shown : x.Shown plan s given)
    (shows : t.frame.Shows t.memory.heap x.position given.1 x.slot)
    (grown : s.memory.heap.size ≤ t.memory.heap.size)
    (same : ∀ y < s.memory.heap.size, t.memory.heap.byteAt y = s.memory.heap.byteAt y) :
    x.Shown plan t given where
  source := shown.source
  visible := shown.visible
  shows := shows
  counted := shown.counted
  reads := by
    obtain ⟨w, equal, reads⟩ := shown.reads
    refine ⟨w, equal, fun told tells => (reads told tells).frame (Nat.le_refl 0) grown ?_⟩
    exact fun y _ below => same y below

theorem Lowered.Shown.fills {x : Lowered} {given : Parameter × Value} (shown : x.Shown plan s given)
    (fills : s.Fills t positions) (apart : x.position ∉ positions) : x.Shown plan t given :=
  shown.frame (fills.shows apart shown.shows) fills.retains.size_le fills.retains.byteAt_eq

theorem Lowered.Shown.exists_count {x : Lowered} {given : Parameter × Value} {length : Nat}
    (shown : x.Shown plan s given) (wired : plan.Wired) (carries : given.1.type.Carries given.2)
    (role : given.1.role = .array length) : ∃ count, x.count = some count := by
  obtain ⟨⟨element, form, pointer, type⟩, -⟩ :=
    wired.array given.1 (List.mem_of_getElem? shown.source) length role
  have counted := shown.counted (by rw [type]; rfl)
  rw [type] at carries
  obtain ⟨items, same, -⟩ := carries
  rw [same] at counted
  exact ⟨items.length, counted⟩

theorem lowerArray_stores {d : Descriptor} {m : Memory} {nullable : Bool} (data : d.isData = true)
    (array : d.isArray = true) (carries : d.Carries v) (enough : m.heap.size + d.room v ≤ limit) :
    (lowerArray env d v nullable).Gives m
      (fun packed t => some packed.2 = v.items?.map List.length ∧
        t.heap.size ≤ m.heap.size + d.room v ∧ ∃ w, Stores m.heap t.heap d packed.1 v w)
      (fun _ _ => False) (Heap.Full limit) := by
  cases d with
  | array element mode form pointer =>
    have inner : element.isData = true := by
      simp only [Descriptor.isData, Bool.and_eq_true] at data
      exact data.2
    exact packArray_roundTrips (fun item fits => lower_roundTrips inner fits) data carries enough
  | _ => cases array

namespace FrameM

theorem lowerInput_stores (data : p.type.isData = true)
    (plain : ∀ closure destroy, p.role ≠ .callback closure destroy) (carries : p.type.Carries v)
    (enough : s.memory.heap.size + p.type.room v ≤ limit) :
    (lowerInput env p v).Gives s
      (fun lowered t => (∃ counts, t.frame = { s.frame with counts := counts }) ∧
        t.memory.heap.size ≤ s.memory.heap.size + p.type.room v ∧
        (p.type.isArray = true → lowered.2 = v.items?.map List.length) ∧
        ∃ w, Stores s.memory.heap t.memory.heap p.type lowered.1 v w)
      (fun _ _ => False) (Heap.Full limit) := by
  unfold lowerInput
  split
  · exact (plain _ _ ‹_›).elim
  · rename_i type _
    have array : p.type.isArray = true := by
      rw [type]
      rfl
    rw [Action.gives_bind, lowerArrayInput, Action.gives_bind, gives_convert]
    refine (lowerArray_stores data array carries enough).mono ?_ fun _ _ never => never
    rintro packed m ⟨counted, bound, stores⟩
    dsimp only
    split
    · rw [Action.gives_bind, gives_modifyFrame]
      exact ⟨⟨_, rfl⟩, bound, fun _ => counted, stores⟩
    · exact ⟨⟨s.frame.counts, rfl⟩, bound, fun _ => counted, stores⟩
  · rename_i _ other
    rw [Action.gives_bind, gives_convert]
    refine (lower_roundTrips data carries s.memory limit enough).mono ?_ fun _ _ never => never
    rintro slot m ⟨bound, stores⟩
    refine ⟨⟨s.frame.counts, rfl⟩, bound, fun array => ?_, stores⟩
    cases type : p.type with
    | array element mode form pointer => exact (other _ _ _ _ type).elim
    | _ => simp [type, Descriptor.isArray] at array

theorem takeInput_shows (found : plan.parameters[position]? = some p)
    (visible : p.isVisible = true) (data : p.type.isData = true)
    (plain : ∀ closure destroy, p.role ≠ .callback closure destroy) (carries : p.type.Carries v)
    (vacant : s.frame.Vacant position)
    (enough : s.memory.heap.size + (15 + p.type.room v) ≤ limit) :
    (takeInput env p position v).Gives s
      (fun _ t => t.memory.heap.size ≤ s.memory.heap.size + (15 + p.type.room v) ∧
        s.Fills t [position] ∧ ∃ x : Lowered, x.position = position ∧
          t.frame.inputs = s.frame.inputs ++ [x] ∧ x.Shown plan t (p, v))
      (fun _ _ => False) (Heap.Full limit) := by
  have size := Descriptor.slotSize_of_isData data
  have narrow := (Descriptor.size_of_isData data).2
  rw [takeInput, Action.gives_bind]
  refine (lowerInput_stores data plain carries (by omega)).mono ?_ fun _ _ never => never
  rintro ⟨slot, count⟩ ⟨f, m⟩ ⟨⟨counts, rfl⟩, bound, counted, w, stores⟩
  dsimp only at bound counted stores ⊢
  have room : m.heap.size + 15 ≤ limit := by omega
  rw [Action.gives_bind, gives_modifyFrame]
  refine Action.Gives.mono (Action.Gives.both (setSlot_shows ?_ room) setSlot_fills) ?_
    fun _ _ never => never.1
  · exact ⟨vacant.slot, vacant.cell⟩
  rintro _ t ⟨⟨bound', fills, shows⟩, kept, -⟩
  dsimp only at bound' fills kept
  refine ⟨by omega, ?_, ⟨position, slot, count⟩, rfl, kept.inputs, found, visible, ?_, counted,
    w, stores.equal, ?_⟩
  · exact ⟨stores.retains.trans fills.retains, fills.slots, fills.slot_eq, fills.cells,
      fills.errorCell, fills.outputs⟩
  · exact shows (by rw [size]; exact stores.fits) (by rwa [size])
  · intro told tells
    refine (stores.reads told tells).frame (Nat.zero_le _) fills.retains.size_le ?_
    exact fun y _ below => fills.retains.byteAt_eq y below

end FrameM

end ForeignCall
