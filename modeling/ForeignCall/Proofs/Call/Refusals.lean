import ForeignCall.Proofs.Call.Exceptions
import ForeignCall.Proofs.Call.Leftovers

/-!
Whose arguments a call refused.

Filling the slots, running native code, lifting the results and releasing what was made fail for reasons
of conversions and of native memory. None of these is an argument error. So a call reports one either
because its own arguments were refused, which happens before anything is done, or because it is the
exception of a callback that was waiting when the native function returned.
-/

set_option autoImplicit false

namespace ForeignCall

open ForeignCall.Action

/-- Wherever the action begins, it does not fail with an argument error. -/
def NeverRefuses {τ α : Type} (x : Action CallError τ α) : Prop :=
  ∀ s, x.Gives s (fun _ _ => True) (fun e _ => e.isArgumentError = false) fun _ => True

section

variable {τ α β : Type} {x : Action CallError τ α}

theorem neverRefuses_pure (a : α) : NeverRefuses (pure a : Action CallError τ α) := fun _ => trivial

theorem neverRefuses_fail {e : CallError} (other : e.isArgumentError = false) :
    NeverRefuses (Action.fail e : Action CallError τ α) := fun _ => other

theorem NeverRefuses.bind {f : α → Action CallError τ β} (first : NeverRefuses x)
    (rest : ∀ a, NeverRefuses (f a)) : NeverRefuses (x >>= f) := by
  intro s
  rw [gives_bind]
  exact (first s).mono (fun a t _ => rest a t) fun _ _ other => other

/-- What follows does not depend on how the first action ends. -/
theorem NeverRefuses.after_attempt {f : Except CallError α → Action CallError τ β}
    (rest : ∀ r, NeverRefuses (f r)) : NeverRefuses (Action.attempt x >>= f) := by
  intro s
  rw [gives_bind, gives_attempt]
  exact (gives_anyhow x s).mono (fun a t _ => rest (.ok a) t) fun e t _ => rest (.error e) t

end

/-- The errors of conversions and of native memory are no argument errors. -/
theorem admits_others : Admits fun e => e.isArgumentError = false := ⟨fun _ => rfl, fun _ => rfl⟩

theorem Action.Stays.neverRefuses {α : Type} {R : Memory → Memory → Prop} {x : FrameM α}
    (stays : x.Stays R fun e => e.isArgumentError = false) : NeverRefuses x := fun s =>
  (stays s).mono (fun _ _ _ => trivial) fun _ _ failed => failed.2

namespace FrameM

/-- An argument error that settling a call fails with was waiting. -/
theorem settle_refuses (around : List Value) (plan : Plan) (ret : Slot) (receiver : Option Value)
    (s : Scratch) :
    (settle around plan ret receiver).Gives s (fun _ _ => True)
      (fun e _ => e.isArgumentError = true → s.memory.pending = some e) fun _ => True := by
  have otherwise {x : FrameM Value} (never : NeverRefuses x) (t : Scratch) :
      x.Gives t (fun _ _ => True)
        (fun e _ => e.isArgumentError = true → s.memory.pending = some e) fun _ => True :=
    (never t).mono (fun _ _ _ => trivial) fun _ _ other refuses => by simp [other] at refuses
  rw [settle, gives_bind]
  refine (stays_drainErrorCell steady_pending.toQuiet admits_others s).mono ?_ ?_
  · intro record t same
    rw [gives_bind, gives_onMemory, Memory.takePending, gives_bind, gives_get, gives_bind,
      gives_modify, gives_pure]
    have discards :=
      (stays_discardOutputs steady_pending.toQuiet admits_others plan ret 0).neverRefuses
    split
    · rename_i e waits
      rw [gives_bind]
      refine (discards _).mono (fun _ u _ => ?_) fun _ _ other refuses => by simp [other] at refuses
      exact fun _ => same ▸ waits
    · split
      · exact otherwise (discards.bind fun _ => neverRefuses_fail rfl) _
      · exact otherwise (stays_assemble steady_pending.toQuiet admits_others _ _ _ _).neverRefuses _
  · rintro e t ⟨-, other⟩ refuses
    simp [other] at refuses

end FrameM

/-! ### The call -/

theorem neverRefuses_native {σ : Type} (callback : Nat → List Slot → SessionM σ Slot)
    (n : Native σ) : NeverRefuses (n.run callback) := by
  have marks {x : MemoryM CallError Unit} (f : Memory → Memory) (step : x = modify f) :
      NeverRefuses (Session.onMemory x : SessionM σ Unit) := by
    subst step
    exact fun _ => trivial
  induction n with
  | ret slot => exact neverRefuses_pure _
  | fault f => exact neverRefuses_fail rfl
  | heap op next ih =>
    intro s
    rw [Native.run, gives_bind, Session.gives_onMemory, gives_onHeap, gives_attempt]
    exact (gives_anyhow _ _).mono (fun a h _ => ih (.ok a) _) fun e h _ => ih (.error e) _
  | callback function slots next ih =>
    rw [Native.run]
    refine NeverRefuses.after_attempt fun answer => ?_
    split
    · exact ih _
    · exact (marks _ rfl).bind fun _ => ih _
  | raise e next ih => exact (marks _ rfl).bind fun _ => ih
  | note n next ih => exact NeverRefuses.bind (fun _ => trivial) fun _ => ih
  | read next ih => exact NeverRefuses.bind (fun _ => trivial) fun s => ih s.host
  | write state next ih => exact NeverRefuses.bind (fun _ => trivial) fun _ => ih

namespace Session

variable {σ : Type} {w : World σ} {callback : Nat → List Slot → SessionM σ Slot}
  {held arguments : List Value} {name symbol : String} {plan : Plan} {receiver : Option Value}
  {address : Option Nat} {s : Session σ}

theorem neverRefuses_enter (symbol : String) (slots : List Slot) :
    NeverRefuses (enter w callback symbol slots) := by
  refine NeverRefuses.bind (fun _ => trivial) fun _ => ?_
  split
  · exact neverRefuses_native callback _
  · exact neverRefuses_fail rfl

theorem neverRefuses_bind (w : World σ) (name : String) : NeverRefuses (bind w name) := by
  refine NeverRefuses.bind (fun _ => trivial) fun s => ?_
  split
  · exact neverRefuses_pure _
  · split
    · exact neverRefuses_fail rfl
    · exact NeverRefuses.bind (fun _ => trivial) fun _ => neverRefuses_pure _

theorem neverRefuses_prepare (w : World σ) (name : String) (b : Binding) :
    NeverRefuses (prepare w name b) := by
  refine NeverRefuses.bind (fun _ => trivial) fun _ => ?_
  cases b.prepared.getD (prepareCallable w b.callable) with
  | ok plan => exact neverRefuses_pure plan
  | error fault => exact neverRefuses_fail rfl

/-- The end of a call fails with an argument error only if that is its outcome. -/
theorem carryOut_end_refuses (outcome : Except CallError Value) (f : Frame) (plan : Plan) :
    (do
      let (released, _) ← within f (FrameM.releaseAll plan)
      let v ← Action.ofExcept outcome
      Action.ofExcept released
      return v : SessionM σ Value).Gives s (fun _ _ => True)
        (fun e _ => e.isArgumentError = true → outcome = .error e) fun _ => True := by
  rw [gives_bind, gives_within]
  have releases := (FrameM.stays_releaseAll steady_pending.toReleasing admits_others plan).neverRefuses
  refine (releases _).mono (fun _ t _ => ?_) fun e t other => ?_
  · cases outcome with
    | ok v => trivial
    | error e => exact fun _ => rfl
  · cases outcome with
    | ok v => exact fun refuses => by simp [other] at refuses
    | error e => exact fun _ => rfl

/-- A call that is carried out fails with an argument error only if that was waiting when its native
function returned. -/
theorem carryOut_refuses :
    (carryOut w callback held symbol plan receiver address arguments).Gives s (fun _ _ => True)
      (fun e _ => e.isArgumentError = true → ∃ f ret v,
        enterFilled w callback symbol plan address arguments s = .ok (f, .ok ret) v ∧
          v.memory.pending = some e)
      fun _ => True := by
  have ends {outcome : Except CallError Value} (f : Frame) {t : Session σ} {P : CallError → Prop}
      (waited : ∀ e, outcome = .error e → e.isArgumentError = true → P e) :=
    (carryOut_end_refuses outcome f plan (s := t)).mono (fun _ _ holds => holds)
      fun e _ same refuses => waited e (same refuses) refuses
  rw [carryOut, gives_bind, execute, gives_bind, gives_within]
  have fills :=
    (FrameM.stays_nativeSlots steady_pending.toRegistering admits_others w.environment plan address
      arguments).neverRefuses
  refine ((gives_self _ _).both (fills ⟨.start plan.parameters.length, s.memory⟩)).mono ?_ ?_
  · rintro slots ⟨f, m⟩ ⟨filled, -⟩
    rw [gives_bind, gives_attempt]
    refine ((gives_self _ _).both (neverRefuses_enter symbol slots _)).mono ?_ ?_
    · rintro ret v ⟨ran, -⟩
      rw [gives_bind, heldNow, gives_bind, gives_get, gives_pure, gives_within]
      refine (FrameM.settle_refuses _ plan ret receiver ⟨f, v.memory⟩).mono ?_ ?_
      · exact fun value x _ => ends x.frame (by simp)
      · intro e x waits
        refine ends x.frame ?_
        rintro _ ⟨⟩ refuses
        exact ⟨f, ret, v, enterFilled_eq filled (attempt_of_ok ran), waits refuses⟩
    · rintro e v ⟨-, other⟩
      refine ends f ?_
      rintro _ ⟨⟩ refuses
      simp [other] at refuses
  · rintro e ⟨f, m⟩ ⟨-, other⟩
    refine ends f ?_
    rintro _ ⟨⟩ refuses
    simp [other] at refuses

theorem carryOut_enters
    (calls : ∀ a slots, (callback a slots).Within fun m t => m.journal.toList <+: t.journal.toList) :
    (carryOut w callback held symbol plan receiver address arguments).Gives s (fun _ _ => True)
      (fun _ t => ∀ ran v, enterFilled w callback symbol plan address arguments s = .ok ran v →
        s.memory.Entered t.memory)
      fun _ => True := by
  rw [carryOut, gives_bind]
  refine (execute_gives calls).mono (fun outcome t reached => ?_) fun e t entered _ _ _ => entered
  rcases reached with entered | ⟨e, v, run, rfl, rfl⟩
  · refine (gives_later entered ?_).mono (fun _ _ _ => trivial) fun _ _ later _ _ _ => later
    refine (within_frame (FrameM.within_releaseAll progress_journal plan)).bind
      progress_journal fun released => ?_
    refine (within_ofExcept progress_journal _).bind progress_journal fun v => ?_
    exact (within_ofExcept progress_journal _).bind progress_journal fun _ =>
      within_pure progress_journal v
  · have fails : within (.start plan.parameters.length)
        (FrameM.nativeSlots w.environment plan address arguments) s =
          .ok (.error e, v.frame) { s with memory := v.memory } := by simp only [within, run]
    refine (gives_anyhow _ _).mono (fun _ _ _ => trivial) fun _ _ _ ran x entered => ?_
    rw [enterFilled, bind_of_ok fails] at entered
    cases entered

/-- The arguments of a call were refused, and nothing was done. -/
def Refused (w : World σ) (name : String) (arguments : List Value) (e : CallError)
    (s t : Session σ) : Prop :=
  t.memory = s.memory ∧ ∃ plan u, planOf w name s = .ok plan u ∧
    checkArguments w.environment.repository plan arguments = .error e

/-- The native function of a call returned, and the error was waiting then. -/
def Awaited (w : World σ) (callback : Nat → List Slot → SessionM σ Slot) (name : String)
    (receiver : Option Value) (arguments : List Value) (e : CallError) (s : Session σ) : Prop :=
  ∃ f ret v, entry w callback name receiver arguments s = .ok (f, .ok ret) v ∧
    v.memory.pending = some e

theorem not_entered_of_eq {m t : Memory} (same : t = m) : ¬ m.Entered t := by
  subst same
  rintro ⟨symbol, slots, listed⟩
  rw [← Array.length_toList, List.drop_length] at listed
  cases listed

theorem isArgumentError_of_receiverAddress {e : CallError}
    (lost : receiverAddress plan receiver = .error e) : e.isArgumentError = false := by
  unfold receiverAddress at lost
  split at lost
  · split at lost <;> cases lost
    rfl
  · cases lost

section

variable {b : Binding} {s₁ u : Session σ} (bound : bind w name s = .ok b s₁)
  (prepared : prepare w name b s₁ = .ok plan u)

include bound prepared

theorem entry_eq (accepted : checkArguments w.environment.repository plan arguments = .ok ())
    (located : receiverAddress plan receiver = .ok address) :
    entry w callback name receiver arguments s =
      enterFilled w callback b.callable.symbolName plan address arguments u := by
  rw [entry, bind_of_ok bound, bind_of_ok prepared, accepted, located]
  rfl

theorem not_awaited_of_refused {e e' : CallError}
    (refused : checkArguments w.environment.repository plan arguments = .error e) :
    ¬ Awaited w callback name receiver arguments e' s := by
  rintro ⟨f, ret, v, entered, -⟩
  rw [entry, bind_of_ok bound, bind_of_ok prepared, refused] at entered
  cases entered

end

theorem invoke_refuses
    (calls : ∀ a slots, (callback a slots).Within fun m t => m.journal.toList <+: t.journal.toList) :
    (invoke w callback held name receiver arguments).Gives s (fun _ _ => True)
      (fun e t => e.isArgumentError = true →
        Refused w name arguments e s t ∧ ¬ Awaited w callback name receiver arguments e s ∨
          s.memory.Entered t.memory ∧ Awaited w callback name receiver arguments e s)
      fun _ => True := by
  have binds := (gives_self (bind w name) s).both bind_keeps
  rw [invoke, gives_bind]
  refine (binds.both (neverRefuses_bind w name s)).mono ?_ fun _ _ failed refuses => ?_
  · rintro b s₁ ⟨⟨bound, same, -⟩, -⟩
    have prepares := (gives_self (prepare w name b) s₁).both prepare_keeps
    rw [gives_bind]
    refine (prepares.both (neverRefuses_prepare w name b s₁)).mono ?_ fun _ _ failed refuses => ?_
    · rintro plan u ⟨⟨prepared, same', -⟩, -⟩
      have memory := same'.trans same
      rw [gives_bind, gives_ofExcept]
      cases accepted : checkArguments w.environment.repository plan arguments with
      | error e =>
        have planned : planOf w name s = .ok plan u := (bind_of_ok bound).trans prepared
        exact fun _ => .inl ⟨⟨memory, plan, u, planned, accepted⟩,
          not_awaited_of_refused bound prepared accepted⟩
      | ok checked =>
        dsimp only
        rw [gives_bind, gives_ofExcept]
        cases located : receiverAddress plan receiver with
        | error e => exact fun refuses => by simp [isArgumentError_of_receiverAddress located] at refuses
        | ok address =>
          refine (carryOut_refuses.both (carryOut_enters calls)).mono (fun _ _ _ => trivial) ?_
          rintro e t ⟨waits, enters⟩ refuses
          obtain ⟨f, ret, v, ran, pending⟩ := waits refuses
          have entered : entry w callback name receiver arguments s = _ :=
            entry_eq bound prepared accepted located
          exact .inr ⟨memory ▸ enters _ v ran, f, ret, v, entered.trans ran, pending⟩
    · simp [failed.2] at refuses
  · simp [failed.2] at refuses

end Session

/-- A call that fails with an argument error entered a native function if, and only if, the error was
waiting when the native function of the call returned: it is the exception of a callback then, and the
call passes it on. If no native function was entered, then the arguments of the call were refused, and
the native state is what it was. -/
theorem argument_error_origin {σ : Type} {w : World σ} {depth : Nat} {held : List Value}
    {name : String} {receiver : Option Value} {arguments : List Value} {s t : Session σ}
    {e : CallError} (refuses : e.isArgumentError = true)
    (failed : Session.callNested w (depth + 1) held name receiver arguments s =
      .error (.error e) t) :
    (s.memory.Entered t.memory ↔
      ∃ f ret v, Session.entry w (Session.callback w depth held) name receiver arguments s =
        .ok (f, .ok ret) v ∧ v.memory.pending = some e) ∧
    (¬ s.memory.Entered t.memory → t.memory = s.memory ∧ ∃ plan u,
      Session.planOf w name s = .ok plan u ∧
        checkArguments w.environment.repository plan arguments = .error e) := by
  have calls := Session.within_callback progress_journal w depth held
  have origin : (Session.Refused w name arguments e s t ∧
      ¬ Session.Awaited w (Session.callback w depth held) name receiver arguments e s) ∨
      (s.memory.Entered t.memory ∧
        Session.Awaited w (Session.callback w depth held) name receiver arguments e s) :=
    (Session.invoke_refuses calls).of_error failed refuses
  rcases origin with ⟨refused, unawaited⟩ | ⟨entered, awaited⟩
  · have outside := Session.not_entered_of_eq refused.1
    exact ⟨⟨fun entered => absurd entered outside, fun awaited => absurd awaited unawaited⟩,
      fun _ => refused⟩
  · exact ⟨⟨fun _ => awaited, fun _ => entered⟩, fun outside => absurd entered outside⟩

/-- The function `outer` runs a callback, which calls `inner` without the argument it needs. -/
def refusingWorld : World Unit where
  environment :=
    let run : CallableRecord := { namespaceName := "T", name := "Run" }
    let outer : CallableRecord :=
      { namespaceName := "T", name := "outer"
        arguments := [{ name := "run", type := .named "T.Run", scope := some .call }] }
    let inner : CallableRecord :=
      { namespaceName := "T", name := "inner"
        arguments := [{ name := "x", type := { tag := .integer ⟨.w32, true⟩ } }] }
    let types := Repository.initial.insertEntry
      { namespaceName := "T", name := "Run", kind := .callback, signature := some run }
    ⟨(types.insertFunction outer).insertFunction inner, .pin⟩
  library
    | "outer" => some fun slots => .callback (slots.getD 0 .null) [] fun _ => .ret .null
    | _ => some fun _ => .ret .null
  script _ _ := .call "T.inner" none [] fun
    | .ok v => .ret v
    | .error e => .throw e
  kept _ := []

/-- Without its callback `outer` is refused and not entered. -/
theorem argument_error_origin_refused :
    ∃ t, Session.callNested refusingWorld 2 [] "T.outer" none [] (.start ()) =
        .error (.error (.arity 1 0)) t ∧ t.memory = .empty := by
  obtain ⟨e, t, failed, told⟩ :=
    Action.exists_error_such (x := Session.callNested refusingWorld 2 [] "T.outer" none [])
      (s := .start ())
      (fun e t => e == .arity 1 0 && !t.memory.journal.toList.any Event.isNative)
      (by decide +kernel)
  simp only [Bool.and_eq_true, beq_iff_eq, Bool.not_eq_true'] at told
  obtain ⟨rfl, silent⟩ := told
  exact ⟨t, failed, ((argument_error_origin rfl failed).2 (not_entered silent)).1⟩

/-- With its callback `outer` is entered, and then fails with the argument error of `inner`. -/
theorem argument_error_after_entry :
    ∃ e t slots, Session.call refusingWorld 2 "T.outer" none [.function ⟨0⟩] (.start ()) =
        .error (.error e) t ∧ e.isArgumentError = true ∧
      Event.native "outer" slots ∈ t.memory.journal.toList := by
  obtain ⟨e, t, failed, told⟩ :=
    Action.exists_error_such (x := Session.call refusingWorld 2 "T.outer" none [.function ⟨0⟩])
      (s := .start ())
      (fun e t => e == .arity 1 0 && t.memory.journal.toList.any (Event.enters "outer"))
      (by decide +kernel)
  simp only [Bool.and_eq_true, beq_iff_eq, List.any_eq_true] at told
  obtain ⟨rfl, event, listed, enters⟩ := told
  obtain ⟨slots, rfl⟩ := Event.exists_of_enters enters
  exact ⟨_, t, slots, failed, rfl, listed⟩

end ForeignCall
