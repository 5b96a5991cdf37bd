import ForeignCall.Proofs.Call.Slots
import ForeignCall.Proofs.Heap.Blocks

/-!
What the frame of a call knows of the scratch memory the call made for itself.

Wherever filling the slots ends, every slot that was filled for an out or inout argument is the
address of a cell that the frame lists, every inout argument that was lowered has such a cell, and the
frame lists the trampoline of every callback whose scope is the call.
-/

set_option autoImplicit false

namespace ForeignCall

open ForeignCall.Action

variable {env : Environment} {plan : Plan} {p : Parameter} {v : Value} {f g : Frame} {c : Cell}
  {position i : Nat} {slot : Slot}

/-- A caller-allocated block has a true address, and is for a struct of known size. -/
def Cell.Suits (c : Cell) (p : Parameter) : Prop :=
  match c with
  | .value _ => True
  | .block address => 0 < address ∧ address < UInt64.size ∧
    ∃ size byValue name pointer,
      p.type = .named (.structured (some size) byValue) name pointer

structure Frame.Formed (plan : Plan) (f : Frame) : Prop where
  lengths : f.slots.length = f.cells.length
  sized : f.cells.length = plan.parameters.length
  outputs : f.outputs = []
  cells : ∀ i c, f.cell? i = some c → ∃ p, plan.parameters[i]? = some p ∧
    p.direction ≠ .input ∧ f.slot i = .ofNat c.address ∧ c.Suits p
  unfilled : ∀ i p, plan.parameters[i]? = some p → p.direction ≠ .input → f.cell? i = none →
    f.slot i = .null
  taken : ∀ x ∈ f.inputs, ∀ p, plan.parameters[x.position]? = some p → p.direction = .inout →
    (f.cell? x.position).isSome
  callScoped : ∀ x ∈ f.inputs, ∀ p closure, plan.parameters[x.position]? = some p →
    p.role = .callback closure none → p.scope = some .call → x.slot.isNull = false →
      x.slot.toNat ∈ f.callScoped

/-- Nothing but links and trampolines of the call were added. -/
structure Frame.Scopes (f g : Frame) : Prop where
  slots : g.slots = f.slots
  cells : g.cells = f.cells
  inputs : g.inputs = f.inputs
  outputs : g.outputs = f.outputs
  errorCell : g.errorCell = f.errorCell
  callScoped : f.callScoped ⊆ g.callScoped

theorem Frame.Scopes.refl (f : Frame) : f.Scopes f := ⟨rfl, rfl, rfl, rfl, rfl, List.Subset.refl _⟩

namespace Frame

theorem cell?_set {slots : List Slot} (i : Nat) :
    ({ f with slots := slots, cells := f.cells.set position (some c) } : Frame).cell? i =
      if i = position ∧ position < f.cells.length then some c else f.cell? i := by
  simp only [cell?, List.getElem?_set]
  grind

theorem cell?_start (count i : Nat) : (start count).cell? i = none := by
  rw [cell?, start, List.getElem?_replicate]
  split <;> rfl

theorem formed_start : (start plan.parameters.length).Formed plan where
  lengths := by simp [start]
  sized := by simp [start]
  outputs := rfl
  cells i c found := by cases (cell?_start _ i).symm.trans found
  unfilled i p _ _ _ := by
    simp only [slot, start, List.getD_eq_getElem?_getD, List.getElem?_replicate]
    split <;> rfl
  taken x listed := nomatch listed
  callScoped x listed := nomatch listed

namespace Formed

theorem direct (formed : f.Formed plan) (found : plan.parameters[position]? = some p)
    (input : p.direction = .input) :
    Formed plan { f with slots := f.slots.set position slot } where
  lengths := by rw [List.length_set, formed.lengths]
  sized := formed.sized
  outputs := formed.outputs
  cells i c listed := by
    obtain ⟨q, source, direction, shows, suits⟩ := formed.cells i c listed
    have other : i ≠ position := by
      rintro rfl
      cases found.symm.trans source
      exact direction input
    refine ⟨q, source, direction, ?_, suits⟩
    rw [Frame.slot_set, if_neg (by simp [other]), shows]
  unfilled i q source direction none := by
    have other : i ≠ position := by
      rintro rfl
      cases found.symm.trans source
      exact direction input
    rw [Frame.slot_set, if_neg (by simp [other])]
    exact formed.unfilled i q source direction none
  taken := formed.taken
  callScoped := formed.callScoped

theorem put (formed : f.Formed plan) (found : plan.parameters[position]? = some p)
    (direction : p.direction ≠ .input) (suits : c.Suits p) :
    Formed plan
      { f with
        slots := f.slots.set position (.ofNat c.address)
        cells := f.cells.set position (some c) } where
  lengths := by simp only [List.length_set, formed.lengths]
  sized := by rw [List.length_set, formed.sized]
  outputs := formed.outputs
  cells i d listed := by
    rw [cell?_set] at listed
    rw [slot_set, formed.lengths]
    split at listed
    · rename_i here
      cases listed
      rw [here.1, if_pos ⟨rfl, here.2⟩]
      exact ⟨p, found, direction, rfl, suits⟩
    · rename_i other
      rw [if_neg other]
      exact formed.cells i d listed
  unfilled i q source passed none := by
    rw [cell?_set] at none
    rw [slot_set, formed.lengths]
    split at none
    · cases none
    · rename_i other
      rw [if_neg other]
      exact formed.unfilled i q source passed none
  taken x listed q source inout := by
    rw [cell?_set]
    split
    · rfl
    · exact formed.taken x listed q source inout
  callScoped := formed.callScoped

theorem of_scopes (formed : f.Formed plan) (scopes : f.Scopes g) : g.Formed plan where
  lengths := by rw [scopes.slots, scopes.cells, formed.lengths]
  sized := by rw [scopes.cells, formed.sized]
  outputs := by rw [scopes.outputs, formed.outputs]
  cells i c place := by
    simp only [cell?, Frame.slot, scopes.cells, scopes.slots] at place ⊢
    exact formed.cells i c place
  unfilled i q source direction none := by
    simp only [cell?, Frame.slot, scopes.cells, scopes.slots] at none ⊢
    exact formed.unfilled i q source direction none
  taken x listed := by
    rw [scopes.inputs] at listed
    rw [cell?, scopes.cells]
    exact formed.taken x listed
  callScoped x listed q closure source role scope nonnull := by
    rw [scopes.inputs] at listed
    exact scopes.callScoped (formed.callScoped x listed q closure source role scope nonnull)

theorem takes (formed : f.Formed plan) {count : Option Nat}
    (found : plan.parameters[position]? = some p)
    (listed : ∀ closure, p.role = .callback closure none → p.scope = some .call →
      slot.isNull = false → slot.toNat ∈ f.callScoped)
    (celled : p.direction = .inout → (f.cell? position).isSome) :
    Formed plan { f with inputs := f.inputs ++ [⟨position, slot, count⟩] } where
  lengths := formed.lengths
  sized := formed.sized
  outputs := formed.outputs
  cells := formed.cells
  unfilled := formed.unfilled
  taken x member q source inout := by
    rcases List.mem_append.1 member with old | new
    · exact formed.taken x old q source inout
    · obtain rfl := List.mem_singleton.1 new
      cases found.symm.trans source
      exact celled inout
  callScoped x member q closure source role scope nonnull := by
    rcases List.mem_append.1 member with old | new
    · exact formed.callScoped x old q closure source role scope nonnull
    · obtain rfl := List.mem_singleton.1 new
      cases found.symm.trans source
      exact listed closure role scope nonnull

end Formed

end Frame

/-- A step that keeps frames formed. -/
def Scratch.Forms (plan : Plan) (s t : Scratch) : Prop := s.frame.Formed plan → t.frame.Formed plan

theorem Scratch.composes_forms (plan : Plan) : Composes (Scratch.Forms plan) where
  refl _ formed := formed
  trans first second formed := second (first formed)

namespace FrameM

variable {α ε : Type}

theorem across_onMemory {R : Scratch → Scratch → Prop} {x : MemoryM ε α}
    (still : ∀ s m, R s { s with memory := m }) : (onMemory x).Across R := by
  intro s
  rw [gives_onMemory]
  exact (gives_anyhow x s.memory).mono (fun _ m _ => still s m) fun _ m _ => still s m

theorem touch_forms (x : HeapM α) : (touch x).Across (Scratch.Forms plan) :=
  across_onMemory fun _ _ formed => formed

/-- Putting a value into its slot does not fail once its cell was allocated, so that no cell is lost. -/
theorem setSlot_puts (s : Scratch) :
    (setSlot position p slot).Gives s
      (fun _ t => (p.direction ≠ .inout ∧
          t.frame = { s.frame with slots := s.frame.slots.set position slot }) ∨
        (p.direction = .inout ∧ ∃ a, t.frame =
          { s.frame with
            slots := s.frame.slots.set position (.ofNat a)
            cells := s.frame.cells.set position (some (.value a)) }))
      (fun _ _ => False) fun _ => True := by
  unfold setSlot
  split
  · rename_i inout
    rw [Action.gives_bind, gives_touch]
    refine Action.Gives.partly (Heap.gives_alloc fun start after positive room => ?_)
    have live := (Heap.Grows.extend after positive room).live (List.mem_singleton_self _)
    have within := live.accessible_start (Nat.min_le_right p.type.slotSize 8)
    rw [Action.gives_bind, gives_touch]
    apply Action.gives_of_ok (Heap.store_eq slot within)
    rw [gives_modifyFrame]
    exact .inr ⟨inout, start, rfl⟩
  · rename_i direct
    rw [gives_modifyFrame]
    exact .inl ⟨direct, rfl⟩

theorem setSlot_forms (found : plan.parameters[position]? = some p)
    (given : p.direction ≠ .output) : (setSlot position p slot).Across (Scratch.Forms plan) := by
  intro s
  refine (setSlot_puts s).mono ?_ fun _ _ never => never.elim
  rintro _ t (⟨direct, put⟩ | ⟨inout, a, put⟩) formed
  · rw [put]
    have input : p.direction = .input := by cases direction : p.direction <;> simp_all
    exact formed.direct found input
  · rw [put]
    exact formed.put (c := .value a) found (by simp [inout]) trivial

theorem allocCell_forms (s : Scratch) :
    (allocCell p).Gives s (fun c t => c.Suits p ∧ t.frame = s.frame) (fun _ _ => False)
      fun _ => True := by
  unfold allocCell
  split
  · rename_i size byValue name pointer type _
    rw [Action.gives_bind, gives_touch]
    refine Action.Gives.partly (Heap.gives_alloc fun start after positive room => ?_)
    rw [Action.gives_pure]
    have guarded : Heap.guardSize ≤ s.memory.heap.size := s.memory.heap.guarded
    have below := Heap.capacity_lt
    simp only [Heap.guardSize] at guarded
    exact ⟨⟨by omega, by omega, size, byValue, name, pointer, type⟩, rfl⟩
  · rw [Action.gives_bind, gives_touch]
    refine Action.Gives.partly (Heap.gives_alloc fun start after positive room => ?_)
    exact ⟨trivial, rfl⟩

theorem setOutput_forms (found : plan.parameters[position]? = some p)
    (out : p.direction = .output) : (setOutput position p).Across (Scratch.Forms plan) := by
  intro s
  have direction : p.direction ≠ .input := by simp [out]
  rw [setOutput, Action.gives_bind]
  refine (allocCell_forms s).mono ?_ fun _ _ never => never.elim
  intro c t ⟨suits, same⟩
  rw [gives_modifyFrame, same]
  intro formed
  exact formed.put found direction suits

theorem lowerCallbackInput_scopes {closure destroy : Option Nat} (s : Scratch) :
    (lowerCallbackInput env p closure destroy v).Gives s
      (fun slot t => s.frame.Scopes t.frame ∧
        (destroy = none → p.scope = some .call → slot.isNull = false →
          slot.toNat ∈ t.frame.callScoped))
      (fun _ t => t.frame = s.frame) fun _ => True := by
  unfold lowerCallbackInput
  rw [Action.gives_bind, gives_convert]
  refine (Action.gives_anyhow _ _).mono (fun slot m _ => ?_) fun _ m _ => rfl
  rw [Action.gives_bind, gives_modifyFrame, Action.gives_pure]
  constructor
  · refine ⟨rfl, rfl, rfl, rfl, rfl, fun a listed => ?_⟩
    dsimp only
    split
    · exact List.mem_append_left _ listed
    · exact listed
  · rintro rfl scope some
    simp [scope, some, releaseFor]

/-- Lowering an input lists its trampoline if that ends with the call. -/
theorem lowerInput_scopes (s : Scratch) :
    (lowerInput env p v).Gives s
      (fun lowered t => s.frame.Scopes t.frame ∧
        ∀ closure, p.role = .callback closure none → p.scope = some .call →
          lowered.1.isNull = false → lowered.1.toNat ∈ t.frame.callScoped)
      (fun _ t => t.frame = s.frame) fun _ => True := by
  have unscoped (plain : ∀ closure destroy, p.role ≠ .callback closure destroy) (slot : Slot)
      (t : Scratch) : ∀ closure, p.role = .callback closure none → p.scope = some .call →
        slot.isNull = false → slot.toNat ∈ t.frame.callScoped :=
    fun closure role => (plain closure none role).elim
  unfold lowerInput
  split
  · rename_i closure destroy role
    rw [Action.gives_bind]
    refine (lowerCallbackInput_scopes s).mono ?_ fun _ _ same => same
    intro slot t ⟨scopes, listed⟩
    refine ⟨scopes, fun closure' again => ?_⟩
    cases role.symm.trans again
    exact listed rfl
  · rename_i other
    rw [Action.gives_bind, lowerArrayInput, Action.gives_bind, gives_convert]
    refine (Action.gives_anyhow _ _).mono (fun packed m _ => ?_) fun _ m _ => rfl
    dsimp only
    split
    · exact ⟨⟨rfl, rfl, rfl, rfl, rfl, List.Subset.refl _⟩, unscoped other _ _⟩
    · exact ⟨.refl _, unscoped other _ _⟩
  · rename_i other _
    rw [Action.gives_bind, gives_convert]
    refine (Action.gives_anyhow _ _).mono (fun slot m _ => ?_) fun _ m _ => rfl
    exact ⟨.refl _, unscoped other _ _⟩

theorem takeInput_forms (found : plan.parameters[position]? = some p)
    (given : p.direction ≠ .output) :
    (takeInput env p position v).Across (Scratch.Forms plan) := by
  intro s
  rw [takeInput, Action.gives_bind]
  refine (lowerInput_scopes s).mono ?_ fun _ t same formed => same ▸ formed
  rintro lowered t ⟨scopes, listed⟩
  dsimp only
  rw [Action.gives_bind, gives_modifyFrame]
  refine (setSlot_puts _).mono ?_ fun _ _ never => never.elim
  rintro _ u (⟨direct, put⟩ | ⟨inout, a, put⟩) formed
  · rw [put]
    have input : p.direction = .input := by cases direction : p.direction <;> simp_all
    exact ((formed.of_scopes scopes).direct found input).takes found listed
      fun inout => (direct inout).elim
  · rw [put]
    have inside : position < t.frame.cells.length := by
      rw [scopes.cells, formed.sized]
      exact (List.getElem?_eq_some_iff.1 found).1
    refine ((formed.of_scopes scopes).put (c := .value a) found (by simp [inout]) trivial).takes found
      listed fun _ => ?_
    rw [Frame.cell?_set, if_pos ⟨rfl, inside⟩]
    rfl

theorem hiddenSlot_forms (q : Parameter) :
    (hiddenSlot env position q).Across (Scratch.Forms plan) := by
  intro s
  rw [hiddenSlot, Action.gives_bind, gives_frame]
  split
  · rw [gives_convert]
    exact (Action.gives_anyhow _ _).mono (fun _ _ _ formed => formed) fun _ _ _ formed => formed
  · exact fun formed => formed

theorem putHidden_forms (found : plan.parameters[position]? = some p) :
    (putHidden env p position).Across (Scratch.Forms plan) := by
  unfold putHidden
  split
  · exact setOutput_forms found ‹_›
  · exact (hiddenSlot_forms p).bind (Scratch.composes_forms plan) fun slot =>
      setSlot_forms found ‹_›

theorem allocErrorCell_forms : (allocErrorCell plan).Across (Scratch.Forms plan) := by
  have c := Scratch.composes_forms plan
  unfold allocErrorCell
  split
  · refine (touch_forms _).bind c fun cell => across_modify fun s formed => ?_
    exact { formed with }
  · exact across_pure c ()

/-- The frame is formed wherever filling the slots ends. -/
theorem nativeSlots_formed (env : Environment) (plan : Plan) (receiver : Option Nat)
    (arguments : List Value) (m : Memory) :
    (nativeSlots env plan receiver arguments).Gives ⟨.start plan.parameters.length, m⟩
      (fun _ t => t.frame.Formed plan) (fun _ t => t.frame.Formed plan) fun _ => True := by
  have c := Scratch.composes_forms plan
  have inside := plan.getElem?_position
  have forms : (nativeSlots env plan receiver arguments).Across (Scratch.Forms plan) := by
    have steps := sequential_across c
    refine Across.bind c (steps.fillVisible (fun e listed => setOutput_forms (inside e listed))
      fun e listed given v => takeInput_forms (inside e listed) given) fun _ => ?_
    refine Across.bind c (steps.fillHidden fun e listed => putHidden_forms (inside e listed))
      fun _ => ?_
    refine allocErrorCell_forms.bind c fun _ => ?_
    exact (across_get c).bind c fun _ => across_pure c _
  exact (forms _).mono (fun _ _ forms => forms Frame.formed_start)
    fun _ _ forms => forms Frame.formed_start

end FrameM

end ForeignCall
