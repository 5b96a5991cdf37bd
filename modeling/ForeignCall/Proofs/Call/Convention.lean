import ForeignCall.Call.Invoke
import ForeignCall.Proofs.Call.Confinement
import ForeignCall.Proofs.Call.Shown

/-!
The calling convention: what a native function is entered with.

It finds its receiver, one slot for each declared argument in the order of declaration, and its error
cell. An argument that is only passed in is in its slot. Any other has a new block of its own, of which
the slot has the address: blank for a result, and with the value in it for an argument that is passed
both ways.
-/

set_option autoImplicit false

namespace ForeignCall

open ForeignCall.Action

theorem Width.bytes_le (w : Width) : w.bytes ≤ 8 := by
  cases w <;> decide

/-- The value in a slot or a cell is never wider than a word. -/
theorem Descriptor.slotSize_le (d : Descriptor) : d.slotSize ≤ 8 := by
  unfold slotSize
  split
  · exact Nat.le_refl 8
  · rename_i plain
    unfold size
    split
    · decide
    · decide
    · decide
    · exact Width.bytes_le _
    · exact Width.bytes_le _
    · exact absurd rfl plain
    · exact Nat.le_refl 8

/-- Size of the block of an argument that has one: that of the struct that native code fills in, or of
a word. An empty struct has a byte. -/
def Parameter.blockSize (p : Parameter) : Nat :=
  match p.direction, p.callerAllocates, p.type with
  | .output, true, .named (.structured (some size) _) _ _ => max size 1
  | _, _, _ => 8

/-- The script value for an argument: each input before it took one. -/
def Plan.argumentAt (plan : Plan) (arguments : List Value) (position : Nat) : Value :=
  arguments.getD ((plan.parameters.take position).countP (·.isInput)) .undefined

/-- A block that lies behind all that were there before. -/
structure Block.New (b : Block) (before after : Heap) : Prop where
  live : after.Live b
  apart : ∀ c, before.Live c → c.stop ≤ b.address

/-- The bytes of the block are zero. -/
def Heap.Blank (h : Heap) (b : Block) : Prop := ∀ x, b.address ≤ x → x < b.stop → h.byteAt x = 0

/-- The input was lowered from the value, after the first heap and before the second one. -/
def Lowered.Of (x : Lowered) (env : Environment) (p : Parameter) (v : Value) (before after : Heap) :
    Prop :=
  ∃ s t : Scratch, FrameM.lowerInput env p v s = .ok (x.slot, x.count) t ∧
    before.Retains s.memory.heap ∧ t.memory.heap.Retains after

namespace Parameter

section

variable (env : Environment) (plan : Plan) (arguments : List Value) (before after : Heap)
  (inputs : List Lowered) (p : Parameter) (position : Nat)

/-- The value of an argument: it is lowered from the script value, or it is what the inputs leave for
a hidden argument. -/
inductive Given : Slot → Prop
  | lowered {x : Lowered} (visible : p.isVisible = true) (listed : x ∈ inputs)
      (here : x.position = position)
      (lowered : x.Of env p (plan.argumentAt arguments position) before after) : Given x.slot
  | left (hidden : p.isVisible = false) : Given (plan.hiddenSlot position p inputs)

/-- How an argument is passed: its slot, and the block that it has of its own. -/
inductive Passed : Slot → Option Block → Prop
  | input {slot : Slot} (direction : p.direction = .input)
      (given : Given env plan arguments before after inputs p position slot) : Passed slot none
  | output {b : Block} (direction : p.direction = .output) (new : b.New before after)
      (size : b.size = p.blockSize) (blank : after.Blank b) : Passed (.ofNat b.address) (some b)
  | inout {b : Block} {slot : Slot} (direction : p.direction = .inout) (new : b.New before after)
      (size : b.size = p.blockSize)
      (given : Given env plan arguments before after inputs p position slot)
      (holds : after.slice b.address p.type.slotSize = slot.toBytes p.type.slotSize) :
      Passed (.ofNat b.address) (some b)

end

end Parameter

/-- What the slots of a call hold: `declared` has those of the declared arguments, `own` the blocks of
those that have one, and `error` the block of the error cell. -/
structure Plan.Conveys (plan : Plan) (env : Environment) (arguments : List Value)
    (before after : Heap) (inputs : List Lowered) (declared : List Slot) (own : Nat → Option Block)
    (error : Option Block) : Prop where
  length : declared.length = plan.parameters.length
  taken : List.Forall₂ (Lowered.From plan) inputs (pairInputs plan.inputs arguments)
  passed : ∀ (i : Nat) (p : Parameter), plan.parameters[i]? = some p →
    p.Passed env plan arguments before after inputs i (declared.getD i .null) (own i)
  throws : error.isSome = plan.canThrow
  errorCell : ∀ b ∈ error, b.New before after ∧ b.size = 8 ∧ after.Blank b
  distinct : ∀ (i j : Nat) (b c : Block), own i = some b → own j = some c →
    b.address = c.address → i = j
  apart : ∀ (i : Nat) (b c : Block), own i = some b → error = some c → b.address ≠ c.address

variable {env : Environment} {plan : Plan} {arguments : List Value} {before h g : Heap}
  {inputs more : List Lowered} {p : Parameter} {position : Nat} {slot : Slot} {block : Option Block}
  {b : Block} {v : Value} {s t u : Scratch} {positions : List Nat}

/-! ### What later steps leave alone -/

theorem Block.New.later (new : b.New before h) (retains : h.Retains g) : b.New before g :=
  ⟨retains.keeps_live new.live, new.apart⟩

theorem Heap.Adds.new (adds : h.Adds g [b]) (retains : before.Retains h) : b.New before g where
  live := adds.live b (List.mem_singleton_self b)
  apart c live := by
    have fresh := adds.fresh b (List.mem_singleton_self b)
    exact Nat.le_trans (Nat.le_trans live.inside.2.2 retains.size_le) fresh

theorem Heap.Blank.later (blank : h.Blank b) (live : h.Live b) (retains : h.Retains g) :
    g.Blank b := by
  intro x above below
  rw [retains.byteAt_eq x (Nat.lt_of_lt_of_le below live.inside.2.2)]
  exact blank x above below

theorem Lowered.Of.later {x : Lowered} (lowered : x.Of env p v before h) (retains : h.Retains g) :
    x.Of env p v before g := by
  obtain ⟨s, t, ran, since, later⟩ := lowered
  exact ⟨s, t, ran, since, later.trans retains⟩

namespace Parameter

theorem Given.later (given : p.Given env plan arguments before h inputs position slot)
    (retains : h.Retains g) (kept : inputs ⊆ more) (same : p.isVisible = false → more = inputs) :
    p.Given env plan arguments before g more position slot := by
  cases given with
  | lowered visible listed here lowered =>
    exact .lowered visible (kept listed) here (lowered.later retains)
  | left hidden => exact same hidden ▸ .left hidden

theorem Passed.later (passed : p.Passed env plan arguments before h inputs position slot block)
    (retains : h.Retains g) (kept : inputs ⊆ more) (same : p.isVisible = false → more = inputs) :
    p.Passed env plan arguments before g more position slot block := by
  cases passed with
  | input direction given => exact .input direction (given.later retains kept same)
  | output direction new size blank =>
    exact .output direction (new.later retains) size (blank.later new.live retains)
  | @inout b slot direction new size given holds =>
    refine .inout direction (new.later retains) size (given.later retains kept same) ?_
    have narrow := p.type.slotSize_le
    have word : b.size = 8 := by rw [size, blockSize, direction]
    have inside := new.live.inside.2.2
    rw [← holds]
    refine Heap.slice_congr fun x _ below => retains.byteAt_eq x ?_
    rw [Block.stop] at inside
    omega

end Parameter

namespace Scratch

/-- The block that the argument at a position has of its own. -/
def ownBlock (plan : Plan) (s : Scratch) (position : Nat) : Option Block := do
  let cell ← s.frame.cell? position
  let p ← plan.parameters[position]?
  return ⟨cell.address, p.blockSize⟩

/-- No two arguments have one cell, and all cells lie in the heap. -/
structure Distinct (s : Scratch) : Prop where
  inside : ∀ (i : Nat) (c : Cell), s.frame.cell? i = some c → c.address < s.memory.heap.size
  apart : ∀ (i j : Nat) (c d : Cell), s.frame.cell? i = some c → s.frame.cell? j = some d →
    c.address = d.address → i = j

theorem distinct_start (count : Nat) (m : Memory) : Distinct ⟨.start count, m⟩ where
  inside i c found := by cases (Frame.cell?_start count i).symm.trans found
  apart i j c d found := by cases (Frame.cell?_start count i).symm.trans found

theorem Distinct.same (distinct : s.Distinct) (cells : t.frame.cells = s.frame.cells)
    (grown : s.memory.heap.size ≤ t.memory.heap.size) : t.Distinct where
  inside i c found := by
    rw [Frame.cell?, cells] at found
    exact Nat.lt_of_lt_of_le (distinct.inside i c found) grown
  apart i j c d first second := by
    rw [Frame.cell?, cells] at first second
    exact distinct.apart i j c d first second

/-- The argument at a position was given a new block. -/
structure Places (s t : Scratch) (position : Nat) (b : Block) : Prop where
  cell : ∃ c : Cell, t.frame.cell? position = some c ∧ c.address = b.address
  slot : t.frame.slot position = .ofNat b.address
  adds : s.memory.heap.Adds t.memory.heap [b]

/-- Some arguments were filled, each with a cell of its own if it has one. -/
structure Advances (s t : Scratch) (positions : List Nat) : Prop extends s.Fills t positions where
  cellCount : t.frame.cells.length = s.frame.cells.length
  distinct : s.Distinct → t.Distinct
  inputs : s.frame.inputs ⊆ t.frame.inputs

theorem Advances.refl (s : Scratch) : s.Advances s [] := ⟨.refl s, rfl, id, List.Subset.refl _⟩

theorem Advances.trans {others : List Nat} (first : s.Advances t positions)
    (second : t.Advances u others) : s.Advances u (positions ++ others) where
  toFills := first.toFills.trans second.toFills
  cellCount := second.cellCount.trans first.cellCount
  distinct := second.distinct ∘ first.distinct
  inputs := List.Subset.trans first.inputs second.inputs

/-- Lowering an input fills nothing yet. -/
theorem Advances.of_scopes {x : Lowered} (retains : s.memory.heap.Retains t.memory.heap)
    (scopes : s.frame.Scopes t.frame) :
    s.Advances ⟨{ t.frame with inputs := t.frame.inputs ++ [x] }, t.memory⟩ [] where
  retains := retains
  slots := congrArg List.length scopes.slots
  slot_eq i _ := by rw [Frame.slot, scopes.slots, Frame.slot]
  cells i _ := by rw [scopes.cells]
  errorCell := scopes.errorCell
  outputs := scopes.outputs
  cellCount := congrArg List.length scopes.cells
  distinct distinct := distinct.same scopes.cells retains.size_le
  inputs := by
    rw [← scopes.inputs]
    exact List.subset_append_left _ _

theorem Places.distinct (places : s.Places t position b) (fills : s.Fills t [position])
    (distinct : s.Distinct) : t.Distinct := by
  obtain ⟨cell, put, address⟩ := places.cell
  have fresh := places.adds.fresh b (List.mem_singleton_self b)
  have within := (places.adds.live b (List.mem_singleton_self b)).inside
  have old {i : Nat} {c : Cell} (found : t.frame.cell? i = some c) (other : i ≠ position) :
      s.frame.cell? i = some c := by
    rwa [fills.cell?_eq (by simpa using other)] at found
  have grown := places.adds.size_le
  refine ⟨fun i c found => ?_, fun i j c d first second same => ?_⟩
  · by_cases here : i = position
    · subst here
      cases put.symm.trans found
      rw [Block.stop] at within
      omega
    · exact Nat.lt_of_lt_of_le (distinct.inside i c (old found here)) grown
  · by_cases here : i = position <;> by_cases there : j = position
    · exact here.trans there.symm
    · subst here
      cases put.symm.trans first
      have below := distinct.inside j d (old second there)
      omega
    · subst there
      cases put.symm.trans second
      have below := distinct.inside i c (old first here)
      omega
    · exact distinct.apart i j c d (old first here) (old second there) same

theorem Fills.ownBlock_eq (fills : s.Fills t positions) (apart : position ∉ positions) :
    t.ownBlock plan position = s.ownBlock plan position := by
  rw [ownBlock, fills.cell?_eq apart, ownBlock]

theorem Places.ownBlock_eq (places : s.Places t position b)
    (found : plan.parameters[position]? = some p) (size : b.size = p.blockSize) :
    t.ownBlock plan position = some b := by
  obtain ⟨cell, put, address⟩ := places.cell
  rw [ownBlock, put, found]
  exact congrArg some (congr (congrArg Block.mk address) size.symm)

end Scratch

/-! ### Slots and cells -/

/-- A new block is blank, and nothing that was there is touched. -/
theorem gives_blank {failed : HeapFault → Heap → Prop} (size : Nat) :
    (Heap.alloc size 8).Gives h
      (fun a g => h.Adds g [⟨a, max size 1⟩] ∧ ∀ x, a ≤ x → g.byteAt x = 0) failed := by
  refine Heap.gives_alloc fun start after positive room => ⟨?_, fun x above => ?_⟩
  · exact (Heap.Grows.extend after positive room).adds
  · rw [Heap.byteAt_extend]
    exact Heap.byteAt_of_size_le (Nat.le_trans after above)

namespace FrameM

theorem Scratch.places_set {c : Cell} {n : Nat} (within : position < s.frame.slots.length)
    (celled : position < s.frame.cells.length) (adds : s.memory.heap.Adds g [⟨c.address, n⟩]) :
    let t : Scratch :=
      ⟨{ s.frame with
          slots := s.frame.slots.set position (.ofNat c.address)
          cells := s.frame.cells.set position (some c) }, { s.memory with heap := g }⟩
    s.Advances t [position] ∧ s.Places t position ⟨c.address, n⟩ := by
  intro t
  have fills : s.Fills t [position] :=
    Scratch.fills_set adds.toRetains fun i other => List.getElem?_set_ne other.symm
  have places : s.Places t position ⟨c.address, n⟩ := by
    refine ⟨⟨c, ?_, rfl⟩, ?_, adds⟩
    · rw [Frame.cell?_set, if_pos ⟨rfl, celled⟩]
    · rw [Frame.slot_set, if_pos ⟨rfl, within⟩]
  exact ⟨⟨fills, List.length_set, places.distinct fills, List.Subset.refl _⟩, places⟩

/-- A value that is put goes into the slot itself, or into a new cell that the slot leads to. -/
theorem setSlot_advances (within : position < s.frame.slots.length)
    (celled : position < s.frame.cells.length) :
    (setSlot position p slot).Gives s
      (fun _ t => s.Advances t [position] ∧ t.frame.inputs = s.frame.inputs ∧
        ((p.direction ≠ .inout ∧ t.frame.slot position = slot ∧ t.frame.cells = s.frame.cells) ∨
          p.direction = .inout ∧ ∃ b : Block, b.size = 8 ∧ s.Places t position b ∧
            t.memory.heap.slice b.address p.type.slotSize = slot.toBytes p.type.slotSize))
      (fun _ _ => False) fun _ => True := by
  unfold setSlot
  split
  · rename_i inout
    rw [Action.gives_bind, gives_touch]
    refine (gives_blank 8).partly.mono (fun cell g ⟨adds, _⟩ => ?_) fun _ _ never => never
    have live := adds.live _ (List.mem_singleton_self _)
    have fresh := adds.fresh _ (List.mem_singleton_self _)
    have length : (slot.toBytes p.type.slotSize).length = p.type.slotSize := by
      rw [Slot.length_toBytes, Nat.min_eq_left p.type.slotSize_le]
    have room : g.Accessible cell (slot.toBytes p.type.slotSize).length :=
      live.accessible_start (by rw [length]; exact p.type.slotSize_le)
    rw [Action.gives_bind, gives_touch]
    apply Action.gives_of_ok (Heap.store_eq slot (by rwa [Slot.length_toBytes] at room))
    rw [gives_modifyFrame]
    obtain ⟨advances, places⟩ :=
      Scratch.places_set (c := .value cell) within celled (adds.overwritten room fresh)
    have stored := Heap.slice_overwritten room
    rw [length] at stored
    exact ⟨advances, rfl, .inr ⟨inout, _, rfl, places, stored⟩⟩
  · rename_i direct
    rw [gives_modifyFrame]
    have fills : s.Fills ⟨{ s.frame with slots := s.frame.slots.set position slot }, s.memory⟩
        [position] := Scratch.fills_set (.refl _) fun _ _ => rfl
    have put : Frame.slot { s.frame with slots := s.frame.slots.set position slot } position = slot :=
      (Frame.slot_set position).trans (if_pos ⟨rfl, within⟩)
    exact ⟨⟨fills, rfl, fun distinct => distinct.same rfl (Nat.le_refl _), List.Subset.refl _⟩, rfl,
      .inl ⟨direct, put, rfl⟩⟩

theorem allocCell_blank (out : p.direction = .output) :
    (allocCell p).Gives s
      (fun c t => s.memory.heap.Adds t.memory.heap [⟨c.address, p.blockSize⟩] ∧
        t.memory.heap.Blank ⟨c.address, p.blockSize⟩ ∧
        t = { s with memory := { s.memory with heap := t.memory.heap } })
      (fun _ _ => False) fun _ => True := by
  unfold allocCell
  split
  · rename_i size byValue name pointer type allocates
    have wide : p.blockSize = max size 1 := by
      rw [Parameter.blockSize, out, allocates, type]
    rw [Action.gives_bind, gives_touch, wide]
    refine (gives_blank size).partly.mono (fun a g ⟨adds, blank⟩ => ?_) fun _ _ never => never
    exact ⟨adds, fun x above _ => blank x above, rfl⟩
  · rename_i other
    have word : p.blockSize = max 8 1 := by
      unfold Parameter.blockSize
      split
      · rename_i size byValue name pointer _ allocates type
        exact absurd allocates (other size byValue name pointer type)
      · rfl
    rw [Action.gives_bind, gives_touch, word]
    refine (gives_blank 8).partly.mono (fun a g ⟨adds, blank⟩ => ?_) fun _ _ never => never
    exact ⟨adds, fun x above _ => blank x above, rfl⟩

/-- The cell of a result is a new block of the size that its argument needs. -/
theorem setOutput_advances (out : p.direction = .output) (within : position < s.frame.slots.length)
    (celled : position < s.frame.cells.length) :
    (setOutput position p).Gives s
      (fun _ t => s.Advances t [position] ∧ t.frame.inputs = s.frame.inputs ∧
        ∃ b : Block, b.size = p.blockSize ∧ s.Places t position b ∧ t.memory.heap.Blank b)
      (fun _ _ => False) fun _ => True := by
  rw [setOutput, Action.gives_bind]
  refine (allocCell_blank out).mono ?_ fun _ _ never => never
  rintro c t ⟨adds, blank, same⟩
  rw [gives_modifyFrame]
  obtain ⟨advances, places⟩ := Scratch.places_set within celled adds
  rw [same]
  exact ⟨advances, rfl, _, rfl, places, blank⟩

/-! ### The two passes -/

/-- The argument is passed as its parameter says, once it was filled. -/
abbrev Filled (env : Environment) (plan : Plan) (arguments : List Value) (before : Heap) (s : Scratch)
    (e : Parameter × Nat) : Prop :=
  e.1.Passed env plan arguments before s.memory.heap s.frame.inputs e.2 (s.frame.slot e.2)
    (s.ownBlock plan e.2)

theorem Filled.later {e : Parameter × Nat} (filled : Filled env plan arguments before s e)
    (advances : s.Advances t positions) (apart : e.2 ∉ positions)
    (same : e.1.isVisible = false → t.frame.inputs = s.frame.inputs) :
    Filled env plan arguments before t e := by
  unfold Filled at filled ⊢
  rw [advances.slot_eq e.2 apart, advances.toFills.ownBlock_eq apart]
  exact filled.later advances.retains advances.inputs same

/-- What is needed to fill an argument: its slot, and a heap that keeps what was there before. -/
structure Fillable (plan : Plan) (before : Heap) (s : Scratch) : Prop where
  slots : s.frame.slots.length = plan.parameters.length
  cells : s.frame.cells.length = plan.parameters.length
  since : before.Retains s.memory.heap

theorem Fillable.later (fillable : Fillable plan before s) (advances : s.Advances t positions) :
    Fillable plan before t where
  slots := advances.slots.trans fillable.slots
  cells := advances.cellCount.trans fillable.cells
  since := fillable.since.trans advances.retains

theorem filled_output (found : plan.parameters[position]? = some p) (out : p.direction = .output)
    (since : before.Retains s.memory.heap) (size : b.size = p.blockSize)
    (places : s.Places t position b) (blank : t.memory.heap.Blank b) :
    Filled env plan arguments before t (p, position) := by
  unfold Filled
  rw [places.slot, places.ownBlock_eq found size]
  exact .output out (places.adds.new since) size blank

/-- A value that was put where it belongs. -/
theorem filled_value (found : plan.parameters[position]? = some p) (given : p.direction ≠ .output)
    (since : before.Retains s.memory.heap) (vacant : s.frame.cell? position = none)
    (value : p.Given env plan arguments before t.memory.heap t.frame.inputs position slot)
    (put : (p.direction ≠ .inout ∧ t.frame.slot position = slot ∧ t.frame.cells = s.frame.cells) ∨
      p.direction = .inout ∧ ∃ b : Block, b.size = 8 ∧ s.Places t position b ∧
        t.memory.heap.slice b.address p.type.slotSize = slot.toBytes p.type.slotSize) :
    Filled env plan arguments before t (p, position) := by
  unfold Filled
  rcases put with ⟨direct, here, cells⟩ | ⟨inout, b, word, places, holds⟩
  · have input : p.direction = .input := by
      cases direction : p.direction <;> simp_all
    have none : t.ownBlock plan position = none := by
      rw [Scratch.ownBlock, Frame.cell?, cells, ← Frame.cell?, vacant]
      rfl
    rw [here, none]
    exact .input input value
  · have size : b.size = p.blockSize := by rw [word, Parameter.blockSize, inout]
    rw [places.slot, places.ownBlock_eq found size]
    exact .inout inout (places.adds.new since) size value holds

theorem takeInput_fills (found : plan.parameters[position]? = some p) (visible : p.isVisible = true)
    (given : p.direction ≠ .output) (fillable : Fillable plan before s)
    (vacant : s.frame.cell? position = none) (value : v = plan.argumentAt arguments position) :
    (takeInput env p position v).Gives s
      (fun _ t => s.Advances t [position] ∧ Filled env plan arguments before t (p, position))
      (fun _ _ => True) fun _ => True := by
  rw [takeInput, Action.gives_bind]
  refine (((lowerInput_confines env p v s).both (lowerInput_scopes s)).both
    (gives_self _ s)).mono ?_ fun _ _ _ => trivial
  rintro ⟨first, count⟩ t ⟨⟨⟨blocks, adds, -⟩, scopes, -⟩, ran⟩
  dsimp only
  rw [Action.gives_bind, gives_modifyFrame]
  have inside := (List.getElem?_eq_some_iff.1 found).1
  have lowered := Scratch.Advances.of_scopes (x := ⟨position, first, count⟩) adds.toRetains scopes
  have fillable' := fillable.later lowered
  refine (setSlot_advances (fillable'.slots ▸ inside) (fillable'.cells ▸ inside)).mono ?_
    fun _ _ never => never.elim
  rintro _ u ⟨advances, inputs, put⟩
  have input : (⟨position, first, count⟩ : Lowered).Of env p (plan.argumentAt arguments position)
      before u.memory.heap := by
    rw [← value]
    exact ⟨s, t, ran, fillable.since, advances.retains⟩
  have listed : (⟨position, first, count⟩ : Lowered) ∈ u.frame.inputs := by
    rw [inputs]
    exact List.mem_append_right _ (List.mem_singleton_self _)
  refine ⟨lowered.trans advances, ?_⟩
  refine filled_value found given fillable'.since ?_ (.lowered visible listed rfl input) put
  rw [lowered.toFills.cell?_eq List.not_mem_nil]
  exact vacant

/-- The positions that a pass fills: the first one those of the visible parameters, the second one
those of the hidden ones. -/
def positionsOf (visible : Bool) (parameters : List (Parameter × Nat)) : List Nat :=
  (parameters.filter (·.1.isVisible == visible)).map Prod.snd

section

variable {visible : Bool} {rest : List (Parameter × Nat)}

theorem positionsOf_same (same : p.isVisible = visible) :
    positionsOf visible ((p, position) :: rest) = position :: positionsOf visible rest := by
  rw [positionsOf, List.filter_cons_of_pos (by simpa using same), List.map_cons, positionsOf]

theorem positionsOf_other (other : p.isVisible ≠ visible) :
    positionsOf visible ((p, position) :: rest) = positionsOf visible rest := by
  rw [positionsOf, List.filter_cons_of_neg (by simpa using other), positionsOf]

theorem not_mem_positionsOf (absent : position ∉ rest.map Prod.snd) :
    position ∉ positionsOf visible rest := fun listed =>
  absent (((List.filter_sublist).map Prod.snd).subset listed)

end

/-- Past a parameter, the script arguments that are left are those for the rest. -/
theorem argumentAt_rest {rest : List (Parameter × Nat)} {given : List Value}
    (values : ∀ k e, ((p, position) :: rest)[k]? = some e → plan.argumentAt arguments e.2 =
      given.getD ((((p, position) :: rest).take k).countP (·.1.isInput)) .undefined) (k : Nat)
    (e : Parameter × Nat) (found : rest[k]? = some e) : plan.argumentAt arguments e.2 =
      (if p.isInput = true then given.tail else given).getD
        ((rest.take k).countP (·.1.isInput)) .undefined := by
  rw [values (k + 1) e found, List.take_succ_cons, List.countP_cons]
  split
  · cases given <;> rfl
  · rfl

theorem ne_of_fresh {rest : List (Parameter × Nat)} {e : Parameter × Nat}
    (fresh : position ∉ rest.map Prod.snd) (listed : e ∈ rest) : e.2 ≠ position := by
  rintro rfl
  exact fresh (List.mem_map_of_mem listed)

theorem vacant_later {rest : List (Parameter × Nat)} (fills : s.Fills t [position])
    (fresh : position ∉ rest.map Prod.snd) (vacant : ∀ e ∈ rest, s.frame.cell? e.2 = none) :
    ∀ e ∈ rest, t.frame.cell? e.2 = none := by
  intro e listed
  rw [fills.cell?_eq (by simpa using ne_of_fresh fresh listed)]
  exact vacant e listed

/-- The first pass fills the visible arguments, each input with the next script argument. -/
theorem fillVisible_fills {parameters : List (Parameter × Nat)} {given : List Value}
    (inside : ∀ e ∈ parameters, plan.parameters[e.2]? = some e.1)
    (unrepeated : (parameters.map Prod.snd).Nodup) (fillable : Fillable plan before s)
    (vacant : ∀ e ∈ parameters, s.frame.cell? e.2 = none)
    (values : ∀ k e, parameters[k]? = some e → plan.argumentAt arguments e.2 =
      given.getD ((parameters.take k).countP (·.1.isInput)) .undefined) :
    (fillVisible env parameters given).Gives s
      (fun _ t => s.Advances t (positionsOf true parameters) ∧
        ∀ e ∈ parameters, e.1.isVisible = true → Filled env plan arguments before t e)
      (fun _ _ => True) fun _ => True := by
  induction parameters generalizing given s with
  | nil => exact ⟨.refl s, List.forall_mem_nil _⟩
  | cons first rest ih =>
    obtain ⟨p, position⟩ := first
    obtain ⟨found, inside'⟩ := List.forall_mem_cons.1 inside
    obtain ⟨fresh, unrepeated'⟩ := List.nodup_cons.1 unrepeated
    obtain ⟨empty, vacant'⟩ := List.forall_mem_cons.1 vacant
    have place := (List.getElem?_eq_some_iff.1 found).1
    have values' := argumentAt_rest values
    have untouched : position ∉ positionsOf true rest := not_mem_positionsOf fresh
    -- What is left to do once the parameter itself is filled.
    have onward {t : Scratch} {given' : List Value} (visible : p.isVisible = true)
        (advances : s.Advances t [position]) (filled : Filled env plan arguments before t (p, position))
        (values : ∀ k e, rest[k]? = some e → plan.argumentAt arguments e.2 =
          given'.getD ((rest.take k).countP (·.1.isInput)) .undefined) :
        (fillVisible env rest given').Gives t
          (fun _ u => s.Advances u (positionsOf true ((p, position) :: rest)) ∧
            ∀ e ∈ (p, position) :: rest, e.1.isVisible = true → Filled env plan arguments before u e)
          (fun _ _ => True) fun _ => True := by
      have empty := vacant_later advances.toFills fresh vacant'
      refine (ih inside' unrepeated' (fillable.later advances) empty values).mono ?_
        fun _ _ _ => trivial
      rintro _ u ⟨later, others⟩
      rw [positionsOf_same visible]
      refine ⟨advances.trans later, List.forall_mem_cons.2 ⟨fun _ => ?_, others⟩⟩
      refine filled.later later untouched fun hidden => ?_
      cases hidden.symm.trans visible
    rcases passes p with ⟨hidden, skipped⟩ | ⟨visible, out, skipped⟩ | ⟨visible, direction, input⟩
    · rw [skipped, if_neg Bool.false_ne_true] at values'
      rw [fillVisible_hidden hidden, positionsOf_other (by simp [hidden])]
      refine (ih inside' unrepeated' fillable vacant' values').mono (fun _ t ⟨advances, filled⟩ => ?_)
        fun _ _ _ => trivial
      refine ⟨advances, List.forall_mem_cons.2 ⟨fun visible => ?_, filled⟩⟩
      cases hidden.symm.trans visible
    · rw [skipped, if_neg Bool.false_ne_true] at values'
      rw [fillVisible_output visible out, Action.gives_bind]
      refine (setOutput_advances out (fillable.slots ▸ place) (fillable.cells ▸ place)).mono ?_
        fun _ _ never => never.elim
      rintro _ t ⟨advances, -, b, size, places, blank⟩
      exact onward visible advances (filled_output found out fillable.since size places blank) values'
    · rw [input, if_pos rfl] at values'
      rw [fillVisible_input visible direction, Action.gives_bind]
      have value : given.headD .undefined = plan.argumentAt arguments position := by
        rw [values 0 (p, position) rfl]
        cases given <;> rfl
      refine (takeInput_fills found visible direction fillable empty value).mono ?_
        fun _ _ _ => trivial
      rintro _ t ⟨advances, filled⟩
      exact onward visible advances filled values'

theorem putHidden_advances (arguments : List Value) (found : plan.parameters[position]? = some p)
    (hidden : p.isVisible = false) (fillable : Fillable plan before s)
    (vacant : s.frame.cell? position = none) (known : s.frame.Known plan) :
    (putHidden env p position).Gives s
      (fun _ t => s.Advances t [position] ∧ t.frame.inputs = s.frame.inputs ∧
        Filled env plan arguments before t (p, position))
      (fun _ _ => True) fun _ => True := by
  have place := (List.getElem?_eq_some_iff.1 found).1
  unfold putHidden
  split
  · rename_i out
    refine (setOutput_advances out (fillable.slots ▸ place) (fillable.cells ▸ place)).mono ?_
      fun _ _ never => never.elim
    rintro _ t ⟨advances, inputs, b, size, places, blank⟩
    exact ⟨advances, inputs, filled_output found out fillable.since size places blank⟩
  · rename_i direction
    rw [Action.gives_bind]
    refine ((hiddenSlot_gives known).both hiddenSlot_spares).mono ?_ fun _ _ _ => trivial
    rintro slot t ⟨⟨value, -⟩, same⟩
    subst same
    refine (setSlot_advances (fillable.slots ▸ place) (fillable.cells ▸ place)).mono ?_
      fun _ _ never => never.elim
    rintro _ u ⟨advances, inputs, put⟩
    refine ⟨advances, inputs, filled_value found direction fillable.since vacant ?_ put⟩
    rw [value, ← inputs]
    exact .left hidden

/-- The second pass fills the hidden arguments from what the inputs left for them. -/
theorem fillHidden_fills (arguments : List Value) {parameters : List (Parameter × Nat)}
    (inside : ∀ e ∈ parameters, plan.parameters[e.2]? = some e.1)
    (unrepeated : (parameters.map Prod.snd).Nodup) (fillable : Fillable plan before s)
    (vacant : ∀ e ∈ parameters, e.1.isVisible = false → s.frame.cell? e.2 = none)
    (known : s.frame.Known plan) (shown : ∀ x ∈ s.frame.inputs, ∀ p,
      plan.parameters[x.position]? = some p → p.isVisible = true) :
    (fillHidden env parameters).Gives s
      (fun _ t => s.Advances t (positionsOf false parameters) ∧ t.frame.inputs = s.frame.inputs ∧
        ∀ e ∈ parameters, e.1.isVisible = false → Filled env plan arguments before t e)
      (fun _ _ => True) fun _ => True := by
  induction parameters generalizing s with
  | nil => exact ⟨.refl s, rfl, List.forall_mem_nil _⟩
  | cons first rest ih =>
    obtain ⟨p, position⟩ := first
    obtain ⟨found, inside'⟩ := List.forall_mem_cons.1 inside
    obtain ⟨fresh, unrepeated'⟩ := List.nodup_cons.1 unrepeated
    obtain ⟨empty, vacant'⟩ := List.forall_mem_cons.1 vacant
    by_cases hidden : p.isVisible = false
    · have place := (List.getElem?_eq_some_iff.1 found).1
      have other : ∀ x ∈ s.frame.inputs, x.position ≠ position := by
        rintro x listed rfl
        cases hidden.symm.trans (shown x listed p found)
      rw [fillHidden_hidden hidden, Action.gives_bind, positionsOf_same hidden]
      refine ((putHidden_advances arguments found hidden fillable (empty hidden) known).both
        (putHidden_fills known place)).mono ?_ fun _ _ _ => trivial
      rintro _ t ⟨⟨advances, inputs, filled⟩, fills, -⟩
      have vacant'' : ∀ e ∈ rest, e.1.isVisible = false → t.frame.cell? e.2 = none := by
        intro e listed hidden
        rw [advances.toFills.cell?_eq (by simpa using ne_of_fresh fresh listed)]
        exact vacant' e listed hidden
      refine (ih inside' unrepeated' (fillable.later advances) vacant'' (known.fills fills other)
        (inputs ▸ shown)).mono ?_ fun _ _ _ => trivial
      rintro _ u ⟨later, inputs', others⟩
      refine ⟨advances.trans later, inputs'.trans inputs, List.forall_mem_cons.2 ⟨fun _ => ?_, others⟩⟩
      exact filled.later later (not_mem_positionsOf fresh) fun _ => inputs'
    · rw [fillHidden_visible (by simpa using hidden), positionsOf_other hidden]
      refine (ih inside' unrepeated' fillable vacant' known shown).mono ?_ fun _ _ _ => trivial
      rintro _ t ⟨advances, inputs, filled⟩
      exact ⟨advances, inputs, List.forall_mem_cons.2 ⟨fun absurd => (hidden absurd).elim, filled⟩⟩

/-- The error cell is a new block that is blank, behind all cells of the arguments. -/
theorem allocErrorCell_blank (none : s.frame.errorCell = none) :
    (allocErrorCell plan).Gives s
      (fun _ t => s.memory.heap.Retains t.memory.heap ∧ t.frame.slots = s.frame.slots ∧
        t.frame.cells = s.frame.cells ∧ t.frame.inputs = s.frame.inputs ∧
        t.frame.errorCell.isSome = plan.canThrow ∧ ∀ a ∈ t.frame.errorCell,
          s.memory.heap.Adds t.memory.heap [⟨a, 8⟩] ∧ t.memory.heap.Blank ⟨a, 8⟩)
      (fun _ _ => False) fun _ => True := by
  unfold allocErrorCell
  split
  · rename_i throws
    rw [Action.gives_bind, gives_touch]
    refine (gives_blank 8).partly.mono (fun a g ⟨adds, blank⟩ => ?_) fun _ _ never => never
    rw [gives_modifyFrame]
    refine ⟨adds.toRetains, rfl, rfl, rfl, throws.symm, ?_⟩
    rintro _ ⟨⟩
    exact ⟨adds, fun x above _ => blank x above⟩
  · rename_i quiet
    refine ⟨.refl _, rfl, rfl, rfl, ?_, ?_⟩
    · rw [none]
      simpa using quiet
    · rw [none]
      rintro _ ⟨⟩

theorem argumentAt_zipIdx (plan : Plan) (arguments : List Value) (k : Nat) (e : Parameter × Nat)
    (found : plan.parameters.zipIdx[k]? = some e) : plan.argumentAt arguments e.2 =
      arguments.getD ((plan.parameters.zipIdx.take k).countP (·.1.isInput)) .undefined := by
  have place : e.2 = k := by
    rw [List.getElem?_zipIdx] at found
    obtain ⟨p, -, rfl⟩ := Option.map_eq_some_iff.1 found
    exact Nat.zero_add k
  have counted : (plan.parameters.zipIdx.take k).countP (·.1.isInput) =
      (plan.parameters.take k).countP (·.isInput) := by
    have first : (plan.parameters.zipIdx.take k).map Prod.fst = plan.parameters.take k := by
      rw [List.map_take, List.zipIdx_map_fst]
    rw [← first, List.countP_map]
    rfl
  rw [counted, Plan.argumentAt, place]

/-- The passes fill different positions. -/
theorem not_mem_other_pass {visible : Bool} {e : Parameter × Nat}
    (listed : e ∈ plan.parameters.zipIdx) (other : e.1.isVisible ≠ visible) :
    e.2 ∉ positionsOf visible plan.parameters.zipIdx := by
  intro filled
  obtain ⟨e', member, same⟩ := List.mem_map.1 filled
  obtain ⟨listed', shown⟩ := List.mem_filter.1 member
  have here := plan.getElem?_position e listed
  have there := plan.getElem?_position e' listed'
  rw [same, here, Option.some.injEq] at there
  exact other (by rw [there]; simpa using shown)

theorem exists_of_ownBlock (owns : s.ownBlock plan position = some b) :
    ∃ c, s.frame.cell? position = some c ∧ c.address = b.address := by
  obtain ⟨c, found, rest⟩ := Option.bind_eq_some_iff.1 owns
  obtain ⟨p, -, done⟩ := Option.bind_eq_some_iff.1 rest
  cases done
  exact ⟨c, found, rfl⟩

/-- Once every argument is filled, the cell for an error completes what is passed. -/
theorem conveys_of_filled (since : Fillable plan before s) (distinct : s.Distinct)
    (taken : List.Forall₂ (Lowered.From plan) s.frame.inputs (pairInputs plan.inputs arguments))
    (each : ∀ e ∈ plan.parameters.zipIdx, Filled env plan arguments before s e)
    (retains : s.memory.heap.Retains t.memory.heap) (slots : t.frame.slots = s.frame.slots)
    (cells : t.frame.cells = s.frame.cells) (inputs : t.frame.inputs = s.frame.inputs)
    (throws : t.frame.errorCell.isSome = plan.canThrow)
    (made : ∀ a ∈ t.frame.errorCell,
      s.memory.heap.Adds t.memory.heap [⟨a, 8⟩] ∧ t.memory.heap.Blank ⟨a, 8⟩) :
    plan.Conveys env arguments before t.memory.heap t.frame.inputs t.frame.slots (t.ownBlock plan)
      (t.frame.errorCell.map (⟨·, 8⟩)) := by
  have own (i : Nat) : t.ownBlock plan i = s.ownBlock plan i := by
    rw [Scratch.ownBlock, Frame.cell?, cells, Scratch.ownBlock, Frame.cell?]
  refine ⟨?_, ?_, fun i p found => ?_, ?_, fun b listed => ?_, fun i j b c first second => ?_,
    fun i b c mine error => ?_⟩
  · rw [slots, since.slots]
  · rw [inputs]
    exact taken
  · have filled := each (p, i) (List.mem_zipIdx_iff_getElem?.2 found)
    unfold Filled at filled
    rw [slots, own, inputs]
    exact filled.later retains (List.Subset.refl _) fun _ => rfl
  · rw [Option.isSome_map, throws]
  · obtain ⟨a, found, rfl⟩ := Option.mem_map.1 listed
    obtain ⟨adds, blank⟩ := made a found
    exact ⟨adds.new since.since, rfl, blank⟩
  · rw [own] at first second
    obtain ⟨c', first', here⟩ := exists_of_ownBlock first
    obtain ⟨d', second', there⟩ := exists_of_ownBlock second
    intro equal
    exact distinct.apart i j c' d' first' second' (here.trans (equal.trans there.symm))
  · rw [own] at mine
    obtain ⟨c', mine', here⟩ := exists_of_ownBlock mine
    obtain ⟨a, found, rfl⟩ := Option.map_eq_some_iff.1 error
    have below := distinct.inside i c' mine'
    have above := (made a found).1.fresh _ (List.mem_singleton_self _)
    dsimp only at above ⊢
    omega

/-- Filling the slots of a call fills every argument, and the error cell after them. -/
theorem nativeSlots_conveys (env : Environment) (receiver : Option Nat) (arguments : List Value)
    (wired : plan.Wired) (m : Memory) :
    (nativeSlots env plan receiver arguments).Gives ⟨.start plan.parameters.length, m⟩
      (fun slots t => ∃ declared own error,
        plan.Conveys env arguments m.heap t.memory.heap t.frame.inputs declared own error ∧
        slots = receiver.toList.map .ofNat ++ declared ++ error.toList.map (.ofNat ·.address))
      (fun _ _ => True) fun _ => True := by
  have inside := plan.getElem?_position
  have unrepeated := plan.nodup_positions
  have fillable : Fillable plan m.heap ⟨.start plan.parameters.length, m⟩ :=
    ⟨List.length_replicate, List.length_replicate, .refl _⟩
  have apart : ∀ x ∈ (Frame.start plan.parameters.length).inputs,
      x.position ∉ plan.parameters.zipIdx.map Prod.snd := List.forall_mem_nil _
  unfold nativeSlots
  rw [Action.gives_bind]
  refine ((fillVisible_fills inside unrepeated fillable (fun e _ => Frame.cell?_start _ e.2)
    (argumentAt_zipIdx plan arguments)).both
    (fillVisible_known wired inside unrepeated Frame.known_start apart)).mono ?_ fun _ _ _ => trivial
  rintro _ t ⟨⟨advances, visible⟩, known, inputs, grown, taken⟩
  change t.frame.inputs = inputs at grown
  rw [inputsOf_zipIdx, ← grown] at taken
  have vacant : ∀ e ∈ plan.parameters.zipIdx, e.1.isVisible = false →
      t.frame.cell? e.2 = none := by
    intro e listed hidden
    rw [advances.toFills.cell?_eq (not_mem_other_pass listed (by simp [hidden]))]
    exact Frame.cell?_start _ e.2
  rw [Action.gives_bind]
  refine (fillHidden_fills arguments inside unrepeated (fillable.later advances) vacant known
    (isVisible_of_taken taken)).mono ?_ fun _ _ _ => trivial
  rintro _ u ⟨later, same, hidden⟩
  have each : ∀ e ∈ plan.parameters.zipIdx, Filled env plan arguments m.heap u e := by
    intro e listed
    cases shown : e.1.isVisible with
    | true =>
      refine (visible e listed shown).later later (not_mem_other_pass listed (by simp [shown])) ?_
      exact fun _ => same
    | false => exact hidden e listed shown
  have since := (fillable.later advances).later later
  have distinct := later.distinct (advances.distinct (Scratch.distinct_start _ m))
  rw [Action.gives_bind]
  refine (allocErrorCell_blank (later.errorCell.trans advances.errorCell)).mono ?_ fun _ _ _ => trivial
  rintro _ w ⟨retains, slots, cells, inputs', throws, made⟩
  rw [Action.gives_bind, gives_frame, Action.gives_pure]
  rw [← same] at taken
  refine ⟨_, _, _, conveys_of_filled since distinct taken each retains slots cells inputs' throws made,
    ?_⟩
  cases w.frame.errorCell <;> rfl

end FrameM

namespace Session

variable {σ : Type} {w : World σ} {callback : Nat → List Slot → SessionM σ Slot} {held : List Value}
  {symbol : String} {receiver : Option Value} {address : Option Nat} {slots : List Slot}
  {session : Session σ}

/-- The rest of a call, from the entry of its native function with the slots. -/
def entered (w : World σ) (callback : Nat → List Slot → SessionM σ Slot) (held : List Value)
    (symbol : String) (plan : Plan) (receiver : Option Value) (frame : Frame) (slots : List Slot) :
    SessionM σ (Except CallError Value × Frame) := do
  let ret : Except CallError Slot ← attempt (enter w callback symbol slots)
  match ret with
  | .error e => return (.error e, frame)
  | .ok ret => do
    let around ← heldNow w held
    within frame (FrameM.settle around plan ret receiver)

theorem receiverAddress_ok (ready : receiverAddress plan receiver = .ok address) :
    address.isSome = plan.isMethod ∧
      ∀ a ∈ address, ∃ x : Wrapper, receiver = some (.object x) ∧ x.address = a := by
  unfold receiverAddress at ready
  split at ready
  · rename_i method
    split at ready
    · rename_i a found
      cases ready
      refine ⟨method.symm, ?_⟩
      rintro _ ⟨⟩
      obtain ⟨v, rfl, known⟩ := Option.bind_eq_some_iff.1 found
      obtain ⟨x, wrapped, rfl⟩ := Option.map_eq_some_iff.1 known
      cases v with
      | object y =>
        cases wrapped
        exact ⟨x, rfl, rfl⟩
      | _ => cases wrapped
    · cases ready
  · rename_i plain
    cases ready
    refine ⟨by simpa using plain, ?_⟩
    rintro _ ⟨⟩

/-- Once the arguments of a call are lowered, its native function is entered with the slots that the
calling convention says, and with nothing else. -/
theorem calling_convention {c : CallableRecord}
    (derived : Plan.derive w.environment.repository c = .ok plan)
    (ready : receiverAddress plan receiver = .ok address)
    (filled : FrameM.nativeSlots w.environment plan address arguments
      ⟨.start plan.parameters.length, session.memory⟩ = .ok slots t) :
    execute w callback held symbol plan receiver address arguments session =
        entered w callback held symbol plan receiver t.frame slots
          { session with memory := t.memory } ∧
      slots.length = plan.slotCount ∧
      address.isSome = plan.isMethod ∧
      (∀ a ∈ address, ∃ x : Wrapper, receiver = some (.object x) ∧ x.address = a) ∧
      (∃ declared own error,
        plan.Conveys w.environment arguments session.memory.heap t.memory.heap t.frame.inputs declared
          own error ∧
        slots = address.toList.map .ofNat ++ declared ++ error.toList.map (.ofNat ·.address)) ∧
      ∀ d : Descriptor, d.slotSize ≤ 8 := by
  have fills : within (.start plan.parameters.length)
      (FrameM.nativeSlots w.environment plan address arguments) session =
        .ok (.ok slots, t.frame) { session with memory := t.memory } := by
    simp only [within, filled]
  obtain ⟨method, object⟩ := receiverAddress_ok ready
  have conveys := (FrameM.nativeSlots_conveys w.environment address arguments
    (Plan.wired_of_derive derived) session.memory).of_ok filled
  refine ⟨?_, ?_, method, object, conveys, Descriptor.slotSize_le⟩
  · rw [execute, bind_of_ok fills]
    rfl
  · obtain ⟨declared, own, error, conveys, rfl⟩ := conveys
    have first : (address.toList.map Slot.ofNat).length = if plan.isMethod = true then 1 else 0 := by
      rw [← method]
      cases address <;> rfl
    have last : (error.toList.map fun b => Slot.ofNat b.address).length =
        if plan.canThrow = true then 1 else 0 := by
      rw [← conveys.throws]
      cases error <;> rfl
    rw [List.length_append, List.length_append, conveys.length, first, last, Plan.slotCount]
    omega

/-- A method that can fail, with an argument of each kind. It is entered with its receiver, the array and
the length of the array, the block of the number that it may change, that of the struct that it fills
in, and its error cell. -/
theorem calling_convention_mixed :
    let w : World Unit :=
      { environment :=
          ⟨.insertEntry .initial { namespaceName := "T", name := "P", kind := .struct, size := some 12 },
            .pin⟩
        library := fun _ => none
        script := fun _ _ => .ret .undefined
        kept := fun _ => [] }
    let c := CallableRecord.methodOf
      { namespaceName := "T", name := "f", throws := true
        arguments := [
          { name := "names", type := TypeRecord.utf8.cArray.withLength 1 },
          { name := "count", type := { tag := .integer ⟨.w32, true⟩ } },
          { name := "step", type := { tag := .integer ⟨.w32, true⟩ }, direction := .inout },
          { name := "at", type := .named "T.P", direction := .output, callerAllocates := true }] } "O"
    let plan := (Plan.derive w.environment.repository c).toOption.getD default
    let receiver : Wrapper := ⟨0, 16, "T.O", false⟩
    let arguments : List Value := [.array [.string "a", .string "b"], .number (.ofInt 7)]
    let session : Session Unit := ⟨⟨(Heap.alloc 8 8).last .empty, .empty, .empty, none, #[]⟩, ∅, ()⟩
    let callback : Nat → List Slot → SessionM Unit Slot := fun _ _ => pure .null
    Plan.derive w.environment.repository c = .ok plan ∧
      receiverAddress plan (some (.object receiver)) = .ok (some 16) ∧
      ∃ slots t, FrameM.nativeSlots w.environment plan (some 16) arguments
          ⟨.start plan.parameters.length, session.memory⟩ = .ok slots t ∧
        slots.length = 6 ∧
        execute w callback [] "f" plan (some (.object receiver)) (some 16) arguments session =
          entered w callback [] "f" plan (some (.object receiver)) t.frame slots
            { session with memory := t.memory } ∧
        ∃ declared own error,
          plan.Conveys w.environment arguments session.memory.heap t.memory.heap t.frame.inputs declared
            own error ∧
          slots = [.ofNat 16] ++ declared ++ error.toList.map (.ofNat ·.address) := by
  intro w c plan receiver arguments session callback
  have derived : Plan.derive w.environment.repository c = .ok plan := by decide +kernel
  have ready : receiverAddress plan (some (.object receiver)) = .ok (some 16) := by decide +kernel
  obtain ⟨slots, t, filled, count⟩ :=
    Action.exists_ok_such (x := FrameM.nativeSlots w.environment plan (some 16) arguments)
      (s := ⟨.start plan.parameters.length, session.memory⟩)
      (fun slots _ => slots.length == 6) (by decide +kernel)
  obtain ⟨enters, -, -, -, conveys, -⟩ := @calling_convention plan arguments t Unit w callback [] "f"
    _ _ slots session c derived ready filled
  exact ⟨derived, ready, slots, t, filled, by simpa using count, enters, conveys⟩

end Session

end ForeignCall
