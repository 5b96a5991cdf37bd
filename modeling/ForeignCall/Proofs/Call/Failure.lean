import ForeignCall.Proofs.Call.Progress
import ForeignCall.Proofs.Call.Refund
import Mathlib.Data.List.Infix

/-!
Calls that fail before their native function is entered.

Such a call releases what it made for itself, but it goes by the transfers and the scopes of its
parameters, as if the callee had taken its share. So what is left behind is what the inputs that were
already lowered would have handed over.
-/

set_option autoImplicit false

namespace ForeignCall

/-! ### What is handed over -/

/-- Whether blocks of a lowered value go to the callee. -/
def Parameter.handsOver (p : Parameter) (v : Value) : Bool :=
  p.transfer != .nothing && p.type.allocates v

/-- Whether trampolines of a lowered value outlive the call. -/
def Parameter.outlives (p : Parameter) (policy : UnscopedPolicy) (v : Value) : Bool :=
  !p.endsWithCall policy && p.type.registers v

namespace Entry

variable {e : Entry} {plan : Plan} {h : Heap}

theorem Holds.handed_eq_nil (holds : e.Holds plan h) :
    e.handed = [] ↔ e.parameter.handsOver e.value = false := by
  obtain ⟨count, owned, -⟩ := holds.owns
  have whole := owned.inner_eq_nil
  have bare : e.parameter.type.allocates e.value = false ↔ e.owned.outer = [] := by
    rw [← List.isEmpty_iff, holds.outer, Bool.not_eq_true']
  rw [handed, Parameter.handsOver, Bool.and_eq_false_iff, bare]
  cases e.parameter.transfer with
  | nothing => simp [Footprint.held, Holding.of]
  | container => simp [Footprint.held, Holding.of]
  | everything => simpa [Footprint.held, Holding.of] using whole

theorem Holds.lasting_eq_nil (holds : e.Holds plan h) (policy : UnscopedPolicy) :
    e.lasting policy = [] ↔ e.parameter.outlives policy e.value = false := by
  have bare : e.parameter.type.registers e.value = false ↔ e.registered = [] := by
    rw [← List.isEmpty_iff, holds.registered, Bool.not_eq_true']
  rw [lasting, Parameter.outlives, Bool.and_eq_false_iff, bare]
  cases e.parameter.endsWithCall policy <;> simp

end Entry

/-! ### Being entered -/

/-- Whether a native function was entered between two native states. -/
def Memory.Entered (m t : Memory) : Prop :=
  ∃ symbol slots, Event.native symbol slots ∈ t.journal.toList.drop m.journal.size

theorem Memory.Entered.mono {m t u : Memory} (entered : m.Entered t)
    (later : t.journal.toList <+: u.journal.toList) : m.Entered u := by
  obtain ⟨symbol, slots, listed⟩ := entered
  exact ⟨symbol, slots, (later.drop _).subset listed⟩

theorem Memory.entered_of_native {m t : Memory} {symbol : String} {slots : List Slot}
    (grown : m.journal.toList <+: t.journal.toList) :
    m.Entered { t with journal := t.journal.push (.native symbol slots) } := by
  refine ⟨symbol, slots, ?_⟩
  have short : m.journal.size ≤ t.journal.toList.length := grown.length_le
  rw [Array.toList_push, List.drop_append_of_le_length short]
  exact List.mem_append_right _ (List.mem_singleton_self _)

namespace Session

variable {σ α : Type} {w : World σ} {callback : Nat → List Slot → SessionM σ Slot}
  {held : List Value} {name symbol : String} {plan : Plan} {receiver : Option Value}
  {address : Option Nat} {arguments : List Value} {s u : Session σ}

theorem gives_later {x : SessionM σ α} (entered : s.memory.Entered u.memory)
    (within : x.Within fun m t => m.journal.toList <+: t.journal.toList) :
    x.Gives u (fun _ t => s.memory.Entered t.memory) (fun _ t => s.memory.Entered t.memory)
      fun _ => True :=
  (within u).mono (fun _ _ later => entered.mono later) fun _ _ later => entered.mono later

section

variable (calls : ∀ a slots, (callback a slots).Within
  fun m t => m.journal.toList <+: t.journal.toList)

include calls

theorem enter_enters {slots : List Slot}
    (grown : s.memory.journal.toList <+: u.memory.journal.toList) :
    (enter w callback symbol slots).Gives u (fun _ t => s.memory.Entered t.memory)
      (fun _ t => s.memory.Entered t.memory) fun _ => True := by
  rw [enter, Action.gives_bind, gives_onMemory]
  apply gives_later (Memory.entered_of_native grown)
  split
  · exact within_native progress_journal (fun m _ => progress_journal.pending m _) calls _
  · exact Action.within_fail progress_journal _

/-- A call either fails while its slots are filled, or enters its native function. -/
theorem execute_gives :
    (execute w callback held symbol plan receiver address arguments).Gives s
      (fun outcome t => s.memory.Entered t.memory ∨ ∃ e v,
        FrameM.nativeSlots w.environment plan address arguments
          ⟨.start plan.parameters.length, s.memory⟩ = .error (.error e) v ∧
        outcome = (.error e, v.frame) ∧ t = { s with memory := v.memory })
      (fun _ t => s.memory.Entered t.memory) fun _ => True := by
  rw [execute, Action.gives_bind, gives_within]
  have filled := FrameM.within_nativeSlots progress_journal.toRegistering w.environment plan
    address arguments ⟨.start plan.parameters.length, s.memory⟩
  refine ((Action.gives_self _ _).both filled).mono (fun slots v ⟨_, grown⟩ => ?_)
    fun e v ⟨run, _⟩ => .inr ⟨e, v, run, rfl, rfl⟩
  dsimp only
  rw [Action.gives_bind, Action.gives_attempt]
  refine (enter_enters calls grown).mono (fun ret t entered => ?_) fun e t entered => .inl entered
  refine (gives_later entered ?_).mono (fun _ _ entered => .inl entered) fun _ _ entered => entered
  refine (within_heldNow progress_journal w held).bind progress_journal fun around => ?_
  exact within_frame (FrameM.within_settle progress_journal progress_journal.pending _ _ _ _)

end

/-- The script arguments that a call has lowered when its slots are filled, or when that fails, by
their parameters. -/
def loweredInputs (w : World σ) (name : String) (receiver : Option Value) (arguments : List Value)
    (s : Session σ) : List (Parameter × Value) :=
  match planOf w name s with
  | .error _ _ => []
  | .ok plan u =>
    match checkArguments w.environment.repository plan arguments, receiverAddress plan receiver with
    | .ok (), .ok address =>
      match FrameM.nativeSlots w.environment plan address arguments
          ⟨.start plan.parameters.length, u.memory⟩ with
      | .ok _ v | .error _ v => (pairInputs plan.inputs arguments).take v.frame.inputs.length
    | _, _ => []

theorem loweredInputs_refused {e : CallError} (planned : planOf w name s = .ok plan u)
    (refused : checkArguments w.environment.repository plan arguments = .error e) :
    loweredInputs w name receiver arguments s = [] := by
  rw [loweredInputs, planned]
  simp only [refused]

theorem loweredInputs_astray {e : CallError} (planned : planOf w name s = .ok plan u)
    (astray : receiverAddress plan receiver = .error e) :
    loweredInputs w name receiver arguments s = [] := by
  rw [loweredInputs, planned]
  cases accepted : checkArguments w.environment.repository plan arguments <;>
    simp only [accepted, astray]

theorem loweredInputs_failed {e : Stop CallError} {v : Scratch}
    (planned : planOf w name s = .ok plan u)
    (accepted : checkArguments w.environment.repository plan arguments = .ok ())
    (located : receiverAddress plan receiver = .ok address)
    (run : FrameM.nativeSlots w.environment plan address arguments
      ⟨.start plan.parameters.length, u.memory⟩ = .error e v) :
    loweredInputs w name receiver arguments s =
      (pairInputs plan.inputs arguments).take v.frame.inputs.length := by
  rw [loweredInputs, planned]
  simp only [accepted, located, run]

end Session

structure LeavesHanded (policy : UnscopedPolicy) (inputs : List (Parameter × Value)) (m t : Memory) :
    Prop where
  blocks : t.heap.blockSize? = m.heap.blockSize? ↔ ∀ x ∈ inputs, x.1.handsOver x.2 = false
  trampolines : t.trampolines.get? = m.trampolines.get? ↔
    ∀ x ∈ inputs, x.1.outlives policy x.2 = false

theorem leavesHanded_nothing {policy : UnscopedPolicy} {m t : Memory} (same : t = m) :
    LeavesHanded policy [] m t := by
  rw [same]
  exact ⟨by simp, by simp⟩

theorem Ledger.leavesHanded {plan : Plan} {policy : UnscopedPolicy} {m : Memory}
    {entries : List Entry} {s : Scratch} (ledger : Ledger plan policy m entries s) :
    (FrameM.releaseAll plan).Gives s
      (fun _ t => LeavesHanded policy (entries.map Entry.given) m t.memory) fun _ _ => False := by
  refine (FrameM.releaseAll_gives ledger).mono (fun _ t ⟨grows, gains⟩ => ⟨?_, ?_⟩)
    fun _ _ never => never
  · rw [grows.blockSize?_eq_iff, List.flatMap_eq_nil_iff, List.forall_mem_map]
    exact forall₂_congr fun e listed => (ledger.holds e listed).handed_eq_nil
  · rw [gains.get?_eq_iff, List.flatMap_eq_nil_iff, List.forall_mem_map]
    exact forall₂_congr fun e listed => (ledger.holds e listed).lasting_eq_nil policy

namespace Session

variable {σ : Type} {w : World σ} {callback : Nat → List Slot → SessionM σ Slot}
  {held : List Value} {name : String} {receiver : Option Value} {arguments : List Value}
  {s : Session σ}

theorem bind_keeps : (bind w name).Gives s (fun _ t => t.memory = s.memory ∧ t.host = s.host)
    fun _ t => t.memory = s.memory ∧ t.host = s.host := by
  rw [bind, Action.gives_bind, Action.gives_get]
  split
  · exact ⟨rfl, rfl⟩
  · split
    · exact ⟨rfl, rfl⟩
    · rw [Action.gives_bind]
      exact ⟨rfl, rfl⟩

theorem prepare_keeps {b : Binding} :
    (prepare w name b).Gives s (fun _ t => t.memory = s.memory ∧ t.host = s.host)
      fun _ t => t.memory = s.memory ∧ t.host = s.host := by
  rw [prepare, Action.gives_bind, Action.gives_modify, Action.gives_ofExcept]
  split <;> exact ⟨rfl, rfl⟩

theorem abandon_gives {plan : Plan} {address : Option Nat} {e : CallError} {v : Scratch}
    (measured : ∀ p ∈ plan.inputs, p.type.isMeasuredWithin = true)
    (accepted : checkArguments w.environment.repository plan arguments = .ok ())
    (run : FrameM.nativeSlots w.environment plan address arguments
      ⟨.start plan.parameters.length, s.memory⟩ = .error (.error e) v) :
    (within v.frame (FrameM.releaseAll plan)).Gives { s with memory := v.memory }
      (fun _ t => LeavesHanded w.environment.policy
        ((pairInputs plan.inputs arguments).take v.frame.inputs.length) s.memory t.memory)
      fun _ _ => False := by
  obtain ⟨entries, given, ledger⟩ :=
    (FrameM.nativeSlots_accounts measured (FrameM.firstMismatch_of_accepted accepted)).of_error run
  have lowered : (pairInputs plan.inputs arguments).take v.frame.inputs.length =
      entries.map Entry.given := by
    rw [ledger.inputs, List.length_map, ← List.length_map Entry.given]
    exact (List.prefix_iff_eq_take.1 given).symm
  rw [gives_within, lowered]
  exact ledger.leavesHanded.mono (fun _ _ leaves => leaves) fun _ _ never => never.elim

/-- What a call does once its arguments and its receiver were accepted. -/
def carryOut (w : World σ) (callback : Nat → List Slot → SessionM σ Slot) (held : List Value)
    (symbol : String) (plan : Plan) (receiver : Option Value) (address : Option Nat)
    (arguments : List Value) : SessionM σ Value := do
  let (outcome, frame) ← execute w callback held symbol plan receiver address arguments
  let (released, _) ← within frame (FrameM.releaseAll plan)
  let v ← Action.ofExcept outcome
  Action.ofExcept released
  return v

/-- A call that got past its arguments and its receiver is carried out. -/
theorem callNested_eq {depth : Nat} {plan : Plan} {address : Option Nat} {b : Binding}
    {s₁ u : Session σ}
    (bound : bind w name s = .ok b s₁) (prepared : prepare w name b s₁ = .ok plan u)
    (accepted : checkArguments w.environment.repository plan arguments = .ok ())
    (located : receiverAddress plan receiver = .ok address) :
    callNested w (depth + 1) held name receiver arguments s =
      carryOut w (Session.callback w depth held) held b.callable.symbolName plan receiver address
        arguments u := by
  rw [callNested, invoke, Action.bind_of_ok bound, Action.bind_of_ok prepared, accepted, located]
  rfl

theorem carryOut_gives {symbol : String} {plan : Plan} {address : Option Nat}
    (calls : ∀ a slots, (callback a slots).Within fun m t => m.journal.toList <+: t.journal.toList)
    (measured : ∀ p ∈ plan.inputs, p.type.isMeasuredWithin = true)
    (accepted : checkArguments w.environment.repository plan arguments = .ok ()) :
    (carryOut w callback held symbol plan receiver address arguments).Gives s (fun _ _ => True)
      (fun _ t => s.memory.Entered t.memory ∨ ∃ e v,
        FrameM.nativeSlots w.environment plan address arguments
          ⟨.start plan.parameters.length, s.memory⟩ = .error (.error e) v ∧
        LeavesHanded w.environment.policy
          ((pairInputs plan.inputs arguments).take v.frame.inputs.length) s.memory t.memory)
      fun _ => True := by
  rw [carryOut, Action.gives_bind]
  refine (execute_gives calls).mono (fun outcome t reached => ?_) fun e t entered => .inl entered
  rcases reached with entered | ⟨e, v, run, rfl, rfl⟩
  · refine (gives_later entered ?_).mono (fun _ _ _ => trivial) fun _ _ later => .inl later
    refine (within_frame (FrameM.within_releaseAll progress_journal plan)).bind
      progress_journal fun released => ?_
    refine (Action.within_ofExcept progress_journal _).bind progress_journal fun v => ?_
    refine (Action.within_ofExcept progress_journal _).bind progress_journal fun _ => ?_
    exact Action.within_pure progress_journal v
  · dsimp only
    rw [Action.gives_bind]
    refine (abandon_gives measured accepted run).partly.mono (fun released t leaves => ?_)
      fun _ _ never => never.elim
    rw [Action.gives_bind, Action.gives_ofExcept]
    exact .inr ⟨e, v, run, leaves⟩

theorem invoke_gives (calls : ∀ a slots, (callback a slots).Within
      fun m t => m.journal.toList <+: t.journal.toList)
    (measured : ∀ plan u, planOf w name s = .ok plan u →
      ∀ p ∈ plan.inputs, p.type.isMeasuredWithin = true) :
    (invoke w callback held name receiver arguments).Gives s (fun _ _ => True)
      (fun _ t => s.memory.Entered t.memory ∨
        LeavesHanded w.environment.policy (loweredInputs w name receiver arguments s) s.memory
          t.memory)
      fun _ => True := by
  rw [invoke, Action.gives_bind]
  refine ((Action.gives_self _ _).both bind_keeps).mono (fun b s₁ ⟨bound, same, _⟩ => ?_)
    fun e t ⟨bound, same, _⟩ => .inr ?_
  · rw [Action.gives_bind]
    refine ((Action.gives_self _ _).both prepare_keeps).mono (fun plan u ⟨prepared, same', _⟩ => ?_)
      fun e t ⟨prepared, same', _⟩ => .inr ?_
    · have planned : planOf w name s = .ok plan u := by
        rw [planOf, Action.bind_of_ok bound, prepared]
      have memory := same'.trans same
      rw [Action.gives_bind, Action.gives_ofExcept]
      cases accepted : checkArguments w.environment.repository plan arguments with
      | error e =>
        refine .inr ?_
        rw [loweredInputs_refused planned accepted]
        exact leavesHanded_nothing memory
      | ok checked =>
        dsimp only
        rw [Action.gives_bind, Action.gives_ofExcept]
        cases located : receiverAddress plan receiver with
        | error e =>
          refine .inr ?_
          rw [loweredInputs_astray planned located]
          exact leavesHanded_nothing memory
        | ok address =>
          rw [← memory]
          refine (carryOut_gives calls (measured plan u planned) accepted).mono
            (fun _ _ _ => trivial) fun e t reached => ?_
          rcases reached with entered | ⟨e, v, run, leaves⟩
          · exact .inl entered
          · rw [loweredInputs_failed planned accepted located run]
            exact .inr leaves
    · rw [loweredInputs, planOf, Action.bind_of_ok bound, prepared]
      exact leavesHanded_nothing (same'.trans same)
  · rw [loweredInputs, planOf, Action.bind_of_error bound]
    exact leavesHanded_nothing same

end Session

/-- A call that fails before its native function is entered leaves behind what the inputs that were
already lowered hand over, and nothing else. The live blocks are those of before exactly when no block
was to go to the callee, and the trampolines are those of before exactly when none was to outlive the
call. -/
theorem failed_call_leaves_handed_over {σ : Type} {w : World σ} {depth : Nat} {held : List Value}
    {name : String} {receiver : Option Value} {arguments : List Value} {s t : Session σ}
    {e : CallError}
    (failed : Session.callNested w depth held name receiver arguments s = .error (.error e) t)
    (outside : ¬ s.memory.Entered t.memory)
    (measured : ∀ plan u, Session.planOf w name s = .ok plan u →
      ∀ p ∈ plan.inputs, p.type.isMeasuredWithin = true) :
    (t.memory.heap.blockSize? = s.memory.heap.blockSize? ↔
      ∀ x ∈ Session.loweredInputs w name receiver arguments s, x.1.handsOver x.2 = false) ∧
    (t.memory.trampolines.get? = s.memory.trampolines.get? ↔
      ∀ x ∈ Session.loweredInputs w name receiver arguments s,
        x.1.outlives w.environment.policy x.2 = false) := by
  cases depth with
  | zero => cases failed
  | succ depth =>
    have calls : ∀ a slots, (enterCallback w (fun held script =>
        script.run (Session.callNested w depth) held) held a slots).Within
          fun m t => m.journal.toList <+: t.journal.toList := fun a slots =>
      within_enterCallback progress_journal (fun held script =>
        within_script progress_journal (Session.within_callNested progress_journal w depth) held
          script) held a slots
    rcases (Session.invoke_gives calls measured).of_error failed with entered | leaves
    · exact (outside entered).elim
    · exact ⟨leaves.blocks, leaves.trampolines⟩

/-! ### One such call -/

def Event.isNative : Event → Bool
  | .native .. => true
  | _ => false

def Event.enters (symbol : String) : Event → Bool
  | .native entered _ => entered == symbol
  | _ => false

theorem Event.exists_of_enters {symbol : String} {event : Event}
    (enters : event.enters symbol = true) : ∃ slots, event = .native symbol slots := by
  cases event with
  | native entered slots =>
    obtain rfl := beq_iff_eq.1 enters
    exact ⟨slots, rfl⟩
  | _ => cases enters

theorem not_entered_since {m t : Memory}
    (none : (t.journal.toList.drop m.journal.size).any Event.isNative = false) : ¬ m.Entered t := by
  rintro ⟨symbol, slots, listed⟩
  have absurd := List.any_eq_false.1 none _ listed
  exact absurd rfl

theorem not_entered {m t : Memory} (none : t.journal.toList.any Event.isNative = false) :
    ¬ m.Entered t := by
  apply not_entered_since
  rw [List.any_eq_false] at none ⊢
  exact fun event listed => none event (List.mem_of_mem_drop listed)

/-- A function of a string, a callback and a struct by value. The size of the struct is not known, so
that every call fails at its last argument. -/
def unsizedWorld (transfer : Transfer) (scope : Option Scope) : World Unit where
  environment :=
    let run : CallableRecord := { namespaceName := "T", name := "Run" }
    let f : CallableRecord :=
      { namespaceName := "T", name := "f"
        arguments := [
          { name := "name", type := .utf8, transfer := transfer },
          { name := "run", type := .named "T.Run", scope := scope },
          { name := "p", type := .named "T.P" }] }
    let types := Repository.initial
      |>.insertEntry { namespaceName := "T", name := "P", kind := .struct }
      |>.insertEntry { namespaceName := "T", name := "Run", kind := .callback, signature := some run }
    ⟨types.insertFunction f, .pin⟩
  library _ := some fun _ => .ret .null
  script _ _ := .ret .undefined
  kept _ := []

def unsizedArguments : List Value := [.string "abc", .function ⟨0⟩, .object ⟨0, 16, "T.P", false⟩]

theorem failed_call_leaves_handed_over_nothing :
    ∃ e t, Session.callNested (unsizedWorld .nothing (some .call)) 1 unsizedArguments "T.f" none
        unsizedArguments (.start ()) = .error (.error e) t ∧
      t.memory.heap.blockSize? = Memory.empty.heap.blockSize? ∧
      t.memory.trampolines.get? = Memory.empty.trampolines.get? := by
  let w := unsizedWorld .nothing (some .call)
  let s : Session Unit := .start ()
  obtain ⟨e, t, failed, outside⟩ :=
    Action.exists_error_such (x := Session.callNested w 1 unsizedArguments "T.f" none unsizedArguments)
      (s := s) (fun _ t => !t.memory.journal.toList.any Event.isNative) (by decide +kernel)
  obtain ⟨plan, u, planned, measured⟩ :=
    Action.exists_ok_such (x := Session.planOf w "T.f") (s := s)
      (fun plan _ => plan.inputs.all (·.type.isMeasuredWithin)) (by decide +kernel)
  have kept : (Session.loweredInputs w "T.f" none unsizedArguments s).all (fun x =>
      !x.1.handsOver x.2 && !x.1.outlives w.environment.policy x.2) = true := by decide +kernel
  have each : ∀ x ∈ Session.loweredInputs w "T.f" none unsizedArguments s,
      x.1.handsOver x.2 = false ∧ x.1.outlives w.environment.policy x.2 = false := by
    simpa using kept
  obtain ⟨blocks, trampolines⟩ :=
    failed_call_leaves_handed_over failed (not_entered (by simpa using outside))
      fun plan' u' planned' => by
        cases planned.symm.trans planned'
        exact List.all_eq_true.1 measured
  exact ⟨e, t, failed, blocks.2 fun x listed => (each x listed).1,
    trampolines.2 fun x listed => (each x listed).2⟩

/-- The string was to go to the callee and the callback has no scope, so both are left behind although
the callee never ran. -/
theorem failed_call_leaks :
    ∃ e t, Session.callNested (unsizedWorld .everything none) 1 unsizedArguments "T.f" none
        unsizedArguments (.start ()) = .error (.error e) t ∧
      ¬ Memory.empty.Entered t.memory ∧
      t.memory.heap.blockSize? ≠ Memory.empty.heap.blockSize? ∧
      t.memory.trampolines.get? ≠ Memory.empty.trampolines.get? := by
  obtain ⟨e, t, failed, left⟩ :=
    Action.exists_error_such
      (x := Session.callNested (unsizedWorld .everything none) 1 unsizedArguments "T.f" none
        unsizedArguments)
      (s := .start ())
      (fun _ t => !t.memory.journal.toList.any Event.isNative && t.memory.heap.isLive 16 &&
        (t.memory.trampolines.get? TrampolineTable.base).isSome) (by decide +kernel)
  simp only [Bool.and_eq_true, Bool.not_eq_true'] at left
  obtain ⟨⟨outside, live⟩, registered⟩ := left
  refine ⟨e, t, failed, not_entered outside, fun same => ?_, fun same => ?_⟩
  · obtain ⟨n, live⟩ := Heap.isLive_iff.1 live
    rw [Heap.Live, same] at live
    cases live
  · rw [same] at registered
    cases registered

end ForeignCall
