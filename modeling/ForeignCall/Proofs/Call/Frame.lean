import ForeignCall.Call.Arguments
import ForeignCall.Proofs.Outcome

/-!
Outcomes of the steps of a call, which change a frame and the native state, and of those of a
session.
-/

set_option autoImplicit false

namespace ForeignCall

theorem Plan.getElem?_position (plan : Plan) :
    ∀ e ∈ plan.parameters.zipIdx, plan.parameters[e.2]? = some e.1 := fun _ listed =>
  List.mem_zipIdx_iff_getElem?.1 listed

theorem Plan.nodup_positions (plan : Plan) : (plan.parameters.zipIdx.map Prod.snd).Nodup := by
  rw [List.zipIdx_map_snd]
  exact List.nodup_range'

namespace FrameM

open ForeignCall.Action

variable {ε α : Type} {s : Scratch} {halted : Halt → Prop}

@[simp] theorem gives_onMemory {x : MemoryM ε α} {ok : α → Scratch → Prop}
    {failed : ε → Scratch → Prop} :
    (onMemory x).Gives s ok failed halted ↔
      x.Gives s.memory (fun a m => ok a { s with memory := m })
        (fun e m => failed e { s with memory := m }) halted := by
  simp only [Gives, onMemory]
  rcases x s.memory with _ | ⟨_ | _, _⟩ <;> rfl

variable {ok : α → Scratch → Prop} {failed : CallError → Scratch → Prop}

@[simp] theorem gives_convert {x : ConversionM α} :
    (convert x).Gives s ok failed halted ↔
      x.Gives s.memory (fun a m => ok a { s with memory := m })
        (fun e m => failed (.conversion e) { s with memory := m }) halted := by
  simp only [convert, gives_onMemory, gives_mapError]

@[simp] theorem gives_touch {x : HeapM α} :
    (touch x).Gives s ok failed halted ↔
      x.Gives s.memory.heap (fun a h => ok a { s with memory := { s.memory with heap := h } })
        (fun e h => failed (.heap e) { s with memory := { s.memory with heap := h } }) halted := by
  simp only [touch, gives_onMemory, Action.gives_touch]
  rfl

@[simp] theorem gives_frame {ok : Frame → Scratch → Prop} :
    frame.Gives s ok failed halted ↔ ok s.frame s := Iff.rfl

@[simp] theorem gives_modifyFrame {f : Frame → Frame} {ok : Unit → Scratch → Prop} :
    (modifyFrame f).Gives s ok failed halted ↔ ok () { s with frame := f s.frame } := Iff.rfl

/-! ### One parameter at a time -/

section Passes

variable {env : Environment} {p : Parameter} {position : Nat} {rest : List (Parameter × Nat)}
  {arguments : List Value}

theorem passes (p : Parameter) :
    (p.isVisible = false ∧ p.isInput = false) ∨
      (p.isVisible = true ∧ p.direction = .output ∧ p.isInput = false) ∨
      (p.isVisible = true ∧ p.direction ≠ .output ∧ p.isInput = true) := by
  unfold Parameter.isInput
  cases p.isVisible <;> cases p.direction <;> decide

theorem fillVisible_hidden (hidden : p.isVisible = false) :
    fillVisible env ((p, position) :: rest) arguments = fillVisible env rest arguments := by
  rw [fillVisible, hidden]
  rfl

theorem fillVisible_output (visible : p.isVisible = true) (out : p.direction = .output) :
    fillVisible env ((p, position) :: rest) arguments = (do
      setOutput position p
      fillVisible env rest arguments) := by
  rw [fillVisible, visible, if_pos out]
  rfl

/-- The step of the first pass that lowers an input and fills its slot. -/
def takeInput (env : Environment) (p : Parameter) (position : Nat) (v : Value) : FrameM Unit := do
  let (slot, count) ← lowerInput env p v
  modifyFrame fun f => { f with inputs := f.inputs ++ [⟨position, slot, count⟩] }
  setSlot position p slot

theorem fillVisible_input (visible : p.isVisible = true) (given : p.direction ≠ .output) :
    fillVisible env ((p, position) :: rest) arguments = (do
      takeInput env p position (arguments.headD .undefined)
      fillVisible env rest arguments.tail) := by
  rw [fillVisible, visible, if_neg given]
  simp only [takeInput, bind_assoc]
  rfl

/-- The step of the second pass that fills the slot of a hidden parameter. -/
def putHidden (env : Environment) (p : Parameter) (position : Nat) : FrameM Unit := do
  if p.direction = .output then setOutput position p
  else setSlot position p (← hiddenSlot env position p)

theorem fillHidden_hidden (hidden : p.isVisible = false) :
    fillHidden env ((p, position) :: rest) = (do
      putHidden env p position
      fillHidden env rest) := by
  rw [fillHidden, hidden]
  by_cases out : p.direction = .output
  · simp [putHidden, out]
  · simp [putHidden, out]

theorem fillHidden_visible (visible : p.isVisible = true) :
    fillHidden env ((p, position) :: rest) = fillHidden env rest := by
  rw [fillHidden, visible]
  rfl

/-- Properties that hold of steps one after another when they hold of each. -/
structure Sequential (P : FrameM Unit → Prop) : Prop where
  nothing : P (pure ())
  next : ∀ {x : FrameM Unit} {y : Unit → FrameM Unit}, P x → (∀ u, P (y u)) → P (x >>= y)

/-- The first pass consists of steps that allocate a result or take an input. -/
theorem Sequential.fillVisible {P : FrameM Unit → Prop} (sequential : Sequential P)
    {parameters : List (Parameter × Nat)}
    (output : ∀ e ∈ parameters, e.1.direction = .output → P (setOutput e.2 e.1))
    (input : ∀ e ∈ parameters, e.1.direction ≠ .output → ∀ v, P (takeInput env e.1 e.2 v)) :
    P (fillVisible env parameters arguments) := by
  induction parameters generalizing arguments with
  | nil => exact sequential.nothing
  | cons first rest ih =>
    obtain ⟨p, position⟩ := first
    obtain ⟨output, outputs⟩ := List.forall_mem_cons.1 output
    obtain ⟨input, inputs⟩ := List.forall_mem_cons.1 input
    rcases passes p with ⟨hidden, -⟩ | ⟨visible, out, -⟩ | ⟨visible, given, -⟩
    · rw [fillVisible_hidden hidden]
      exact ih outputs inputs
    · rw [fillVisible_output visible out]
      exact sequential.next (output out) fun _ => ih outputs inputs
    · rw [fillVisible_input visible given]
      exact sequential.next (input given _) fun _ => ih outputs inputs

/-- The second pass consists of steps that fill the slots of hidden parameters. -/
theorem Sequential.fillHidden {P : FrameM Unit → Prop} (sequential : Sequential P)
    {parameters : List (Parameter × Nat)}
    (hidden : ∀ e ∈ parameters, P (putHidden env e.1 e.2)) : P (fillHidden env parameters) := by
  induction parameters with
  | nil => exact sequential.nothing
  | cons first rest ih =>
    obtain ⟨p, position⟩ := first
    obtain ⟨here, later⟩ := List.forall_mem_cons.1 hidden
    by_cases unseen : p.isVisible = false
    · rw [fillHidden_hidden unseen]
      exact sequential.next here fun _ => ih later
    · rw [fillHidden_visible (by simpa using unseen)]
      exact ih later

theorem sequential_across {R : Scratch → Scratch → Prop} (c : Composes R) :
    Sequential fun x => x.Across R :=
  ⟨across_pure c (), fun first rest => first.bind c rest⟩

def inputsOf (parameters : List (Parameter × Nat)) : List Parameter :=
  (parameters.map Prod.fst).filter (·.isInput)

theorem inputsOf_skip (skipped : p.isInput = false) :
    inputsOf ((p, position) :: rest) = inputsOf rest := by
  rw [inputsOf, List.map_cons, List.filter_cons, skipped]
  rfl

theorem inputsOf_input (input : p.isInput = true) :
    inputsOf ((p, position) :: rest) = p :: inputsOf rest := by
  rw [inputsOf, List.map_cons, List.filter_cons, input]
  rfl

theorem inputsOf_zipIdx (plan : Plan) : inputsOf plan.parameters.zipIdx = plan.inputs := by
  rw [inputsOf, List.zipIdx_map_fst, Plan.inputs]

theorem firstMismatch_cons {r : Repository} {v : Value} {later : List (Parameter × Value)}
    (accepted : firstMismatch r ((p, v) :: later) = .ok ()) :
    canConvert r p.type v p.nullable = true ∧ firstMismatch r later = .ok () := by
  rw [firstMismatch] at accepted
  split at accepted
  · exact ⟨by assumption, accepted⟩
  · cases accepted

theorem firstMismatch_of_accepted {r : Repository} {plan : Plan} {arguments : List Value}
    (accepted : checkArguments r plan arguments = .ok ()) :
    firstMismatch r (pairInputs plan.inputs arguments) = .ok () := by
  unfold checkArguments at accepted
  split at accepted
  · cases accepted
  · exact accepted

end Passes

end FrameM

namespace Session

open ForeignCall.Action

variable {ε σ α : Type} {s : Session σ} {halted : Halt → Prop}

@[simp] theorem gives_onMemory {x : MemoryM ε α} {ok : α → Session σ → Prop}
    {failed : ε → Session σ → Prop} :
    (onMemory x).Gives s ok failed halted ↔
      x.Gives s.memory (fun a m => ok a { s with memory := m })
        (fun e m => failed e { s with memory := m }) halted := by
  simp only [Gives, onMemory]
  rcases x s.memory with _ | ⟨_ | _, _⟩ <;> rfl

@[simp] theorem gives_within {f : Frame} {x : FrameM α}
    {ok : Except CallError α × Frame → Session σ → Prop}
    {failed : CallError → Session σ → Prop} :
    (within f x).Gives s ok failed halted ↔
      x.Gives ⟨f, s.memory⟩ (fun a t => ok (.ok a, t.frame) { s with memory := t.memory })
        (fun e t => ok (.error e, t.frame) { s with memory := t.memory }) halted := by
  simp only [Gives, within]
  rcases x ⟨f, s.memory⟩ with _ | ⟨_ | _, _⟩ <;> rfl

end Session

end ForeignCall
