import ForeignCall.Proofs.Call.Cleanup
import ForeignCall.Proofs.Call.Progress
import ForeignCall.Proofs.Trampolines

/-!
What the steps of calls and callbacks do to the table of trampolines.

Lowering registers trampolines and takes none away; those that the frame of a call lists are its own,
and end with the call. A release takes away what it names, the end of an invocation what was for one
invocation, and the end of a call what its frame lists. Nothing else changes the table.
-/

set_option autoImplicit false

namespace ForeignCall

open ForeignCall.Action
open TrampolineTable (addressOf)

/-! ### Steps of the table -/

namespace Memory

variable {m t u : Memory} {gone more : List Nat}

/-- The addresses that were given out to trampolines, in their order. -/
def registrations (m : Memory) : List Nat :=
  m.journal.toList.filterMap fun
    | .registered address => some address
    | _ => none

/-- What was given out from one state to the other are the next addresses, one after the other. -/
structure Numbers (m t : Memory) : Prop where
  next_le : m.trampolines.next ≤ t.trampolines.next
  registrations_eq : t.registrations = m.registrations ++
    (List.range' m.trampolines.next (t.trampolines.next - m.trampolines.next)).map addressOf

theorem Numbers.of_same (next : t.trampolines.next = m.trampolines.next)
    (same : t.registrations = m.registrations) : m.Numbers t where
  next_le := Nat.le_of_eq next.symm
  registrations_eq := by
    rw [same, next, Nat.sub_self, List.range'_zero, List.map_nil, List.append_nil]

theorem Numbers.trans (first : m.Numbers t) (second : t.Numbers u) : m.Numbers u where
  next_le := Nat.le_trans first.next_le second.next_le
  registrations_eq := by
    have below := first.next_le
    have above := second.next_le
    have parts := List.range'_append_1 (s := m.trampolines.next)
      (m := t.trampolines.next - m.trampolines.next) (n := u.trampolines.next - t.trampolines.next)
    rw [Nat.add_sub_cancel' below] at parts
    rw [second.registrations_eq, first.registrations_eq, List.append_assoc, ← List.map_append, parts]
    congr 3
    omega

/-- The table has the same trampolines. -/
structure Still (m t : Memory) : Prop where
  table : m.trampolines.Keeps t.trampolines
  registrations_eq : t.registrations = m.registrations

/-- The table gained trampolines at most. -/
structure Registers (m t : Memory) : Prop where
  table : m.trampolines.Extends t.trampolines
  numbers : m.Numbers t

/-- The table lost the trampolines at the given addresses. -/
structure Loses (gone : List Nat) (m t : Memory) : Prop where
  table : m.trampolines.Loses t.trampolines gone
  registrations_eq : t.registrations = m.registrations

theorem Still.trans (first : m.Still t) (second : t.Still u) : m.Still u :=
  ⟨first.table.trans second.table, second.registrations_eq.trans first.registrations_eq⟩

theorem quiet_still : Quiet Still where
  refl m := ⟨.refl m.trampolines, rfl⟩
  trans := Still.trans
  heap m _ := ⟨.refl m.trampolines, rfl⟩
  wrappers m _ _ := ⟨.refl m.trampolines, rfl⟩

/-- Recording what is no registration. -/
theorem Still.record (m : Memory) {e : Event} (other : ∀ address, e ≠ .registered address) :
    m.Still { m with journal := m.journal.push e } := by
  refine ⟨.refl m.trampolines, ?_⟩
  cases e with
  | registered address => exact (other address rfl).elim
  | _ => simp [registrations]

theorem Still.registers (still : m.Still t) : m.Registers t := 
  ⟨still.table.extends, .of_same still.table.next_eq still.registrations_eq⟩

theorem Still.loses (still : m.Still t) : m.Loses [] t := ⟨still.table.loses, still.registrations_eq⟩

theorem Loses.trans (first : m.Loses gone t) (second : t.Loses more u) : m.Loses (gone ++ more) u :=
  ⟨first.table.trans second.table, second.registrations_eq.trans first.registrations_eq⟩

theorem Loses.still_trans (first : m.Loses gone t) (second : t.Still u) : m.Loses gone u := by
  rw [← List.append_nil gone]
  exact first.trans second.loses

theorem Registers.trans (first : m.Registers t) (second : t.Registers u) : m.Registers u :=
  ⟨first.table.trans second.table, first.numbers.trans second.numbers⟩

theorem Registers.registered (m : Memory) (function : FunctionId) (plan : Plan)
    (release : Release) : m.Registers { m with
      trampolines := (m.trampolines.register function plan release).2
      journal := m.journal.push
        (.registered (m.trampolines.register function plan release).1) } where
  table := .register function plan release
  numbers := by
    refine ⟨Nat.le_succ _, ?_⟩
    simp [registrations, TrampolineTable.register]

theorem registering_registers : Registering Registers where
  refl m := (quiet_still.refl m).registers
  trans := Registers.trans
  heap m h := (quiet_still.heap m h).registers
  wrappers m wrappers wraps := (quiet_still.wrappers m wrappers wraps).registers
  registered := Registers.registered

/-- Whatever came and went, no address was given out again, and none came back. -/
structure Advances (m t : Memory) : Prop where
  table : m.trampolines.Later t.trampolines
  numbers : m.Numbers t

theorem Advances.trans (first : m.Advances t) (second : t.Advances u) : m.Advances u :=
  ⟨first.table.trans second.table, first.numbers.trans second.numbers⟩

theorem Registers.advances (registers : m.Registers t) : m.Advances t :=
  ⟨registers.table.later, registers.numbers⟩

theorem Still.advances (still : m.Still t) : m.Advances t := still.registers.advances

theorem Loses.advances (loses : m.Loses gone t) : m.Advances t :=
  ⟨loses.table.later, .of_same loses.table.next_eq loses.registrations_eq⟩

end Memory

theorem releaseTrampoline_loses (address : Nat) :
    (releaseTrampoline address).Within (Memory.Loses [address]) := by
  intro m
  rw [releaseTrampoline, gives_bind, gives_get]
  split
  · rename_i absent
    exact ⟨.absent (TrampolineTable.releaseAt_eq_none.2 absent), rfl⟩
  · rw [gives_bind, gives_modify, gives_bind]
    have removed : m.Loses [address] { m with
        trampolines := m.trampolines.remove address
        journal := m.journal.push (.released address) } := by
      refine ⟨.remove address, (Memory.Still.record m ?_).registrations_eq⟩
      rintro _ ⟨⟩
    exact (within_onHeap Memory.quiet_still _ _).mono (fun _ _ kept => removed.still_trans kept)
      fun _ _ kept => removed.still_trans kept

/-- The addresses that leave when an invocation of the trampoline at `address` ends. -/
def TrampolineTable.spent (t : TrampolineTable) (address : Nat) : List Nat :=
  if t.releaseAt address = some .afterFirstInvocation then [address] else []

theorem endInvocation_loses (address : Nat) :
    (endInvocation address).Within fun m t => m.Loses (m.trampolines.spent address) t := by
  intro m
  have counted : m.Still { m with trampolines := m.trampolines.recordInvocation address } :=
    ⟨.update fun _ => rfl, rfl⟩
  rw [endInvocation, gives_bind, gives_get, gives_bind, gives_modify]
  by_cases last : m.trampolines.isSpent address
  · have spent : m.trampolines.spent address = [] ++ [address] :=
      if_pos (TrampolineTable.isSpent_iff.1 last)
    simp only [if_pos last, gives_bind, Surrounds.memory, id_eq, spent]
    exact (releaseTrampoline_loses address _).mono (fun _ _ loses => counted.loses.trans loses)
      fun _ _ loses => counted.loses.trans loses
  · have spent : m.trampolines.spent address = [] :=
      if_neg fun r => last (TrampolineTable.isSpent_iff.2 r)
    simp only [if_neg last, Surrounds.memory, id_eq, spent]
    exact counted.loses

namespace FrameM

theorem tryAll_ends (first : Except CallError Unit) (steps : List (FrameM Unit)) (s : Scratch) :
    (tryAll first steps).Gives s (fun _ _ => True) (fun _ _ => False) fun _ => True := by
  induction steps generalizing first s with
  | nil => trivial
  | cons step rest ih =>
    rw [tryAll, gives_bind, keepFirst, gives_bind, gives_attempt]
    exact (gives_anyhow step s).mono (fun _ t _ => ih _ t) fun _ t _ => ih _ t

/-- Releasing trampolines one after the other, whether it succeeds or not. -/
theorem tryAll_loses (first : Except CallError Unit) (todo : List Nat) (s : Scratch) :
    (tryAll first (todo.map fun address => do
      let _ ← convert (releaseTrampoline address))).Gives s
        (fun _ t => s.memory.Loses todo t.memory) (fun _ _ => False) fun _ => True := by
  induction todo generalizing first s with
  | nil => exact (Memory.quiet_still.refl s.memory).loses
  | cons address rest ih =>
    have step := within_convert (releaseTrampoline_loses address) s
    have onward (first : Except CallError Unit) (t : Scratch)
        (loses : s.memory.Loses [address] t.memory) :=
      (ih first t).mono (fun _ _ later => loses.trans later)
        fun _ _ never => never
    rw [List.map_cons, tryAll, gives_bind, keepFirst, gives_bind, gives_attempt, gives_bind]
    exact step.mono (fun _ t loses => onward _ t loses) fun _ t loses => onward _ t loses

/-- The end of a call takes the trampolines out of the table that end with it, and no others. -/
theorem releaseAll_loses (plan : Plan) (s : Scratch) :
    (releaseAll plan).Gives s (fun _ t => s.memory.Loses s.frame.callScoped t.memory)
      (fun _ t => s.memory.Loses s.frame.callScoped t.memory) fun _ => True := by
  have quiet := Memory.quiet_still
  -- What is tried before the trampolines frees blocks only.
  have tries {first : Except CallError Unit} {steps : List (FrameM Unit)} {t : Scratch}
      {rest : Except CallError Unit → FrameM Unit} (still : s.memory.Still t.memory)
      (each : ∀ step ∈ steps, step.Within Memory.Still)
      (later : ∀ first u, s.memory.Still u.memory → (rest first).Gives u
        (fun _ t => s.memory.Loses s.frame.callScoped t.memory)
        (fun _ t => s.memory.Loses s.frame.callScoped t.memory) fun _ => True) :
      (tryAll first steps >>= rest).Gives t
        (fun _ t => s.memory.Loses s.frame.callScoped t.memory)
        (fun _ t => s.memory.Loses s.frame.callScoped t.memory) fun _ => True := by
    rw [gives_bind]
    exact ((within_tryAll quiet first steps each t).both (tryAll_ends first steps t)).mono
      (fun first u step => later first u (quiet.trans still step.1)) fun _ _ never => never.2.elim
  rw [releaseAll, gives_bind, gives_frame]
  refine tries (quiet.refl _) ?_ fun first t still => ?_
  · exact List.forall_mem_map.2 fun input _ => within_releaseInput quiet plan input
  refine tries still ?_ fun first t still => ?_
  · exact List.forall_mem_map.2 fun c _ => within_touch quiet _
  refine tries still ?_ fun first t still => ?_
  · exact List.forall_mem_map.2 fun cell _ => within_touch quiet _
  rw [gives_bind]
  refine (tryAll_loses first s.frame.callScoped t).mono (fun first u loses => ?_)
    fun _ _ never => never.elim
  rw [gives_ofExcept]
  cases first <;> exact still.loses.trans loses

end FrameM

/-! ### Lowering arguments -/

/-- Trampolines were registered at most, and those that the frame lists in addition are new and end
with the call. -/
structure Scratch.Registers (s t : Scratch) : Prop where
  memory : s.memory.Registers t.memory
  own : ∀ a ∈ t.frame.callScoped, a ∈ s.frame.callScoped ∨
    (∃ n, s.memory.trampolines.next ≤ n ∧ a = addressOf n) ∧
      t.memory.trampolines.releaseAt a = some .afterCall

theorem Scratch.composes_registers : Composes Scratch.Registers where
  refl s := ⟨Memory.registering_registers.refl _, fun _ listed => .inl listed⟩
  trans first second := by
    refine ⟨first.memory.trans second.memory, fun a listed => ?_⟩
    rcases second.own a listed with before | ⟨⟨n, above, same⟩, release⟩
    · refine (first.own a before).imp_right ?_
      exact And.imp_right second.memory.table.releaseAt_of_some
    · exact .inr ⟨⟨n, Nat.le_trans first.memory.table.next_le above, same⟩, release⟩

namespace FrameM

variable {α : Type} {x : FrameM α} {p : Parameter} {position : Nat} {env : Environment}

/-- A step that leaves the list of the frame alone. -/
theorem registers_of_same (within : x.Within Memory.Registers)
    (same : x.Across fun s t => t.frame.callScoped = s.frame.callScoped) :
    x.Across Scratch.Registers := fun s =>
  ((within s).both (same s)).mono
    (fun _ _ step => ⟨step.1, fun _ listed => .inl (step.2 ▸ listed)⟩)
    fun _ _ step => ⟨step.1, fun _ listed => .inl (step.2 ▸ listed)⟩

theorem registers_onMemory {x : MemoryM CallError α} (within : x.Within Memory.Registers) :
    (onMemory x).Across Scratch.Registers :=
  registers_of_same (within_onMemory within) (across_onMemory fun _ _ => rfl)

theorem registers_touch (x : HeapM α) : (touch x).Across Scratch.Registers :=
  registers_onMemory (within_onHeap Memory.registering_registers _)

theorem registers_convert {x : ConversionM α} (within : x.Within Memory.Registers) :
    (convert x).Across Scratch.Registers := registers_onMemory within.mapError

theorem registers_modifyFrame {f : Frame → Frame}
    (same : ∀ g, (f g).callScoped = g.callScoped) :
    (modifyFrame f).Across Scratch.Registers :=
  registers_of_same (within_modifyFrame Memory.registering_registers f) fun s => same s.frame

theorem registers_setSlot (slot : Slot) : (setSlot position p slot).Across Scratch.Registers := by
  have c := Scratch.composes_registers
  unfold setSlot
  split
  · refine (registers_touch _).bind c fun cell => (registers_touch _).bind c fun _ => ?_
    exact registers_modifyFrame fun _ => rfl
  · exact registers_modifyFrame fun _ => rfl

theorem registers_setOutput : (setOutput position p).Across Scratch.Registers := by
  have c := Scratch.composes_registers
  have cell : (allocCell p).Across Scratch.Registers := by
    unfold allocCell
    split <;> exact (registers_touch _).bind c fun _ => across_pure c _
  exact cell.bind c fun _ => registers_modifyFrame fun _ => rfl

/-- A function pointer for a script function is the address of a new trampoline. -/
theorem lowerCallback_registers (d : Descriptor) (v : Value) (nullable : Bool) (release : Release)
    (m : Memory) :
    (lowerCallback env d v nullable release).Gives m
      (fun slot t => m.Registers t ∧ (slot.isNull = false →
        (∃ n, m.trampolines.next ≤ n ∧ slot.toNat = addressOf n) ∧
          t.trampolines.releaseAt slot.toNat = some release))
      (fun _ t => m.Registers t) fun _ => True := by
  have still := Memory.registering_registers.refl m
  unfold lowerCallback
  split
  · exact ⟨still, fun some => by cases some⟩
  · split
    · split
      · exact still
      · split
        · exact still
        · rename_i plan _
          rw [gives_bind]
          refine (gives_register fun room => ?_).partly
          have number : (Slot.ofNat (addressOf m.trampolines.next)).toNat =
              addressOf m.trampolines.next := Slot.toNat_ofNat room
          refine ⟨.registered m _ plan release, fun _ => ⟨⟨_, Nat.le_refl _, number⟩, ?_⟩⟩
          change TrampolineTable.releaseAt _ (Slot.ofNat (addressOf m.trampolines.next)).toNat = _
          rw [number, TrampolineTable.releaseAt, TrampolineTable.get?_register, if_pos rfl]
          rfl
    · exact still

theorem registers_lowerCallbackInput (closure destroy : Option Nat) (v : Value) :
    (lowerCallbackInput env p closure destroy v).Across Scratch.Registers := by
  intro s
  rw [lowerCallbackInput, gives_bind, gives_convert]
  refine (lowerCallback_registers _ _ _ _ s.memory).mono (fun slot m step => ?_) fun _ m step =>
    ⟨step, fun _ listed => .inl listed⟩
  rw [gives_bind, gives_modifyFrame, gives_pure]
  refine ⟨step.1, fun a listed => ?_⟩
  dsimp only at listed
  split at listed
  · rename_i ends
    simp only [Bool.and_eq_true, Bool.not_eq_true', beq_iff_eq] at ends
    rcases List.mem_append.1 listed with old | new
    · exact .inl old
    · rw [List.mem_singleton.1 new, ← ends.2]
      exact .inr (step.2 ends.1)
  · exact .inl listed

theorem registers_lowerInput (v : Value) : (lowerInput env p v).Across Scratch.Registers := by
  have c := Scratch.composes_registers
  have registering := Memory.registering_registers
  unfold lowerInput
  split
  · exact (registers_lowerCallbackInput _ _ v).bind c fun _ => across_pure c _
  · refine Across.bind c ?_ fun _ => across_pure c _
    refine (registers_convert (within_lowerArray registering _ _ _ _)).bind c fun packed => ?_
    dsimp only
    split
    · exact (registers_modifyFrame (by intro; rfl)).bind c fun _ => across_pure c _
    · exact (across_pure c _).bind c fun _ => across_pure c _
  · exact (registers_convert (within_lower registering _ _ _ _)).bind c fun _ => across_pure c _

theorem registers_takeInput (v : Value) : (takeInput env p position v).Across Scratch.Registers := by
  have c := Scratch.composes_registers
  refine (registers_lowerInput v).bind c fun lowered => ?_
  exact (registers_modifyFrame (by intro; rfl)).bind c fun _ => registers_setSlot _

theorem registers_putHidden : (putHidden env p position).Across Scratch.Registers := by
  have c := Scratch.composes_registers
  unfold putHidden
  split
  · exact registers_setOutput
  · refine Across.bind c ((across_get c).bind c fun f => ?_) fun slot => registers_setSlot slot
    split
    · exact registers_convert (within_lower Memory.registering_registers _ _ _ _)
    · exact across_pure c _

theorem registers_nativeSlots (plan : Plan) (receiver : Option Nat) (arguments : List Value) :
    (nativeSlots env plan receiver arguments).Across Scratch.Registers := by
  have c := Scratch.composes_registers
  have steps := sequential_across c
  refine Across.bind c (steps.fillVisible (fun _ _ _ => registers_setOutput)
    fun _ _ _ v => registers_takeInput v) fun _ => ?_
  refine Across.bind c (steps.fillHidden fun _ _ => registers_putHidden) fun _ => ?_
  have cell : (allocErrorCell plan).Across Scratch.Registers := by
    unfold allocErrorCell
    split
    · exact (registers_touch _).bind c fun _ => registers_modifyFrame fun _ => rfl
    · exact across_pure c _
  exact cell.bind c fun _ => (across_get c).bind c fun _ => across_pure c _

end FrameM

end ForeignCall
