import ForeignCall.Proofs.Call.Frame
import ForeignCall.Proofs.Call.Plan
import ForeignCall.Proofs.Conversion.Agreement

/-!
Arguments that were checked are not refused when they are lowered.

The check pairs the inputs of a plan with the script arguments, and filling the slots takes the
script arguments one by one. Both come to the same pairs.
-/

set_option autoImplicit false

namespace ForeignCall

/-- An error that checked arguments can still lead to: a fault of the heap, or a conversion that
failed for a reason that the check does not foresee. -/
inductive UnforeseenInCall : CallError → Prop
  | heap (fault : HeapFault) : UnforeseenInCall (.heap fault)
  | conversion {fault : ConversionFault} (unforeseen : Unforeseen fault) :
      UnforeseenInCall (.conversion fault)

namespace FrameM

variable {env : Environment} {plan : Plan} {p : Parameter} {v : Value} {α β : Type}
  {position : Nat} {slot : Slot}

/-- Wherever the steps begin, they fail for unforeseen reasons only. -/
def OnlyUnforeseen (x : FrameM α) : Prop :=
  ∀ s, x.Gives s (fun _ _ => True) (fun e _ => UnforeseenInCall e) fun _ => True

theorem unforeseen_pure (a : α) : OnlyUnforeseen (pure a : FrameM α) := fun _ => trivial

theorem OnlyUnforeseen.bind {x : FrameM α} {f : α → FrameM β} (first : OnlyUnforeseen x)
    (second : ∀ a, OnlyUnforeseen (f a)) : OnlyUnforeseen (x >>= f) := by
  intro s
  rw [Action.gives_bind]
  exact (first s).mono (fun a t _ => second a t) fun _ _ unforeseen => unforeseen

theorem unforeseen_modifyFrame (f : Frame → Frame) : OnlyUnforeseen (modifyFrame f) := by
  intro s
  rw [gives_modifyFrame]
  trivial

theorem unforeseen_touch (x : HeapM α) : OnlyUnforeseen (touch x) := by
  intro s
  rw [gives_touch]
  exact (Action.gives_anyhow x _).mono (fun _ _ _ => trivial) fun e _ _ => .heap e

theorem unforeseen_convert {x : ConversionM α} {fits : Prop} (checked : Checked x fits)
    (holds : fits) : OnlyUnforeseen (convert x) := by
  intro s
  rw [gives_convert]
  exact (checked s.memory).mono (fun _ _ _ => trivial)
    fun _ _ unforeseen => .conversion (unforeseen holds)

theorem setSlot_unforeseen : OnlyUnforeseen (setSlot position p slot) := by
  unfold setSlot
  split
  · apply (unforeseen_touch _).bind
    intro cell
    exact (unforeseen_touch _).bind fun _ => unforeseen_modifyFrame _
  · exact unforeseen_modifyFrame _

theorem setOutput_unforeseen : OnlyUnforeseen (setOutput position p) := by
  unfold setOutput allocCell
  refine OnlyUnforeseen.bind ?_ fun cell => unforeseen_modifyFrame _
  split <;> exact (unforeseen_touch _).bind fun address => unforeseen_pure _

theorem lowerInput_unforeseen (wired : plan.Wired) (listed : p ∈ plan.parameters)
    (fits : canConvert env.repository p.type v p.nullable = true) :
    OnlyUnforeseen (lowerInput env p v) := by
  unfold lowerInput
  split
  · rename_i closure destroy role
    obtain ⟨⟨name, pointer, type⟩, _⟩ := wired.callback p listed closure destroy role
    rw [type] at fits
    unfold lowerCallbackInput
    rw [type]
    refine OnlyUnforeseen.bind ?_ fun slot => unforeseen_pure _
    apply (unforeseen_convert lowerCallback_checked fits).bind
    intro slot
    exact (unforeseen_modifyFrame _).bind fun _ => unforeseen_pure _
  · rename_i element mode form pointer type _
    rw [type] at fits
    unfold lowerArrayInput
    rw [type]
    refine OnlyUnforeseen.bind ?_ fun packed => unforeseen_pure _
    apply (unforeseen_convert lowerArray_checked fits).bind
    intro packed
    dsimp only
    split
    · exact (unforeseen_modifyFrame _).bind fun _ => unforeseen_pure _
    · exact unforeseen_pure _
  · exact (unforeseen_convert lower_checked fits).bind fun slot => unforeseen_pure _

theorem takeInput_unforeseen (wired : plan.Wired) (listed : p ∈ plan.parameters)
    (fits : canConvert env.repository p.type v p.nullable = true) :
    OnlyUnforeseen (takeInput env p position v) := by
  apply (lowerInput_unforeseen wired listed fits).bind
  intro lowered
  exact (unforeseen_modifyFrame _).bind fun _ => setSlot_unforeseen

theorem fillVisible_unforeseen (wired : plan.Wired) {parameters : List (Parameter × Nat)}
    {arguments : List Value} (within : ∀ q ∈ parameters, q.1 ∈ plan.parameters)
    (accepted : firstMismatch env.repository (pairInputs (inputsOf parameters) arguments) = .ok ()) :
    OnlyUnforeseen (fillVisible env parameters arguments) := by
  induction parameters generalizing arguments with
  | nil => exact unforeseen_pure _
  | cons first rest ih =>
    obtain ⟨p, position⟩ := first
    obtain ⟨listed, later⟩ := List.forall_mem_cons.1 within
    rcases passes p with ⟨hidden, skipped⟩ | ⟨visible, out, skipped⟩ | ⟨visible, given, input⟩
    · rw [inputsOf_skip skipped] at accepted
      rw [fillVisible_hidden hidden]
      exact ih later accepted
    · rw [inputsOf_skip skipped] at accepted
      rw [fillVisible_output visible out]
      exact setOutput_unforeseen.bind fun _ => ih later accepted
    · rw [inputsOf_input input, pairInputs] at accepted
      obtain ⟨fits, accepted'⟩ := firstMismatch_cons accepted
      rw [fillVisible_input visible given]
      exact (takeInput_unforeseen wired listed fits).bind fun _ => ih later accepted'

end FrameM

/-- The argument check and lowering agree. Lowering succeeds on accepted values only; a value that is
accepted fails for unforeseen reasons only, which a refusal of the value is not; and so does each
visible parameter of a call whose arguments were accepted. -/
theorem check_agrees_with_lowering (env : Environment) :
    (∀ d v nullable m slot t, lower env d v nullable m = .ok slot t →
      canConvert env.repository d v nullable = true) ∧
    (∀ d v nullable m fault t, canConvert env.repository d v nullable = true →
      lower env d v nullable m = .error (.error fault) t → Unforeseen fault) ∧
    (∀ c plan arguments s e t, Plan.derive env.repository c = .ok plan →
      checkArguments env.repository plan arguments = .ok () →
      FrameM.fillVisible env plan.parameters.zipIdx arguments s = .error (.error e) t →
      UnforeseenInCall e) := by
  refine ⟨fun d v nullable m slot t run => ?_, fun d v nullable m fault t fits run => ?_,
    fun c plan arguments s e t derived accepted run => ?_⟩
  · exact (lower_checked m).of_ok run
  · exact (lower_checked m).of_error run fits
  · have matched := FrameM.firstMismatch_of_accepted accepted
    rw [← FrameM.inputsOf_zipIdx] at matched
    have within : ∀ q ∈ plan.parameters.zipIdx, q.1 ∈ plan.parameters := fun q listed =>
      List.fst_mem_of_mem_zipIdx listed
    have wired := Plan.wired_of_derive derived
    exact (FrameM.fillVisible_unforeseen wired within matched s).of_error run

/-- A struct whose size is not known passes behind a pointer. By value it is accepted and then fails
for that reason, alone and in a call. -/
theorem check_agrees_with_lowering_unsized :
    let env : Environment :=
      ⟨.insertEntry .initial { namespaceName := "T", name := "P", kind := .struct }, .pin⟩
    let c : CallableRecord :=
      { namespaceName := "T", name := "f", arguments := [{ name := "p", type := .named "T.P" }] }
    let point : Descriptor := .named (.structured none true) "T.P" false
    let v : Value := .object ⟨0, 32, "T.P", false⟩
    (∃ slot t, lower env point.byReference v false .empty = .ok slot t ∧
      canConvert env.repository point.byReference v false = true) ∧
    (∃ fault t, canConvert env.repository point v false = true ∧
      lower env point v false .empty = .error (.error fault) t ∧ Unforeseen fault) ∧
    (∃ plan e t, Plan.derive env.repository c = .ok plan ∧
      checkArguments env.repository plan [v] = .ok () ∧
      FrameM.fillVisible env plan.parameters.zipIdx [v] ⟨.start 1, .empty⟩ = .error (.error e) t ∧
      UnforeseenInCall e) := by
  intro env c point v
  obtain ⟨passes, fails, calls⟩ := check_agrees_with_lowering env
  refine ⟨⟨_, _, rfl, ?_⟩, ⟨_, _, rfl, rfl, ?_⟩, ⟨_, _, _, rfl, rfl, rfl, ?_⟩⟩
  · exact passes point.byReference v false .empty _ _ rfl
  · exact fails point v false .empty _ _ rfl rfl
  · exact calls c _ [v] ⟨.start 1, .empty⟩ _ _ rfl rfl rfl

end ForeignCall
