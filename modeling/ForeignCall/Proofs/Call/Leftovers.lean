import ForeignCall.Proofs.Call.Failure

/-!
What is pending between calls.

An exception of a callback is for the call it was raised in, which takes it after its native function
returned and its error cell was emptied. If the function ends with a fault, or if the cell holds what
cannot be read and freed as an error, then the call fails before it gets there. The exception stays,
and the next call that gets there takes it.
-/

set_option autoImplicit false

namespace ForeignCall

open ForeignCall.Action

namespace FrameM

variable {plan : Plan} {around : List Value} {ret : Slot} {receiver : Option Value}

/-- What is pending once the results of a native function are settled. -/
def leftover (s : Scratch) : Option CallError :=
  match drainErrorCell s with
  | .ok _ _ => none
  | .error _ _ => s.memory.pending

theorem settle_leaves (s : Scratch) :
    (settle around plan ret receiver).Gives s (fun _ t => t.memory.pending = leftover s)
      (fun _ t => t.memory.pending = leftover s) fun _ => True := by
  have drains := within_drainErrorCell steady_pending.toQuiet s
  rw [settle, gives_bind]
  refine ((gives_self _ s).both drains).mono ?_ ?_
  · rintro record t ⟨run, -⟩
    have taken : leftover s = none := by rw [leftover, run]
    have stays {α : Type} {x : FrameM α} (kept : x.Within fun m t => t.pending = m.pending) :
        x.Gives { t with memory := { t.memory with pending := none } }
          (fun _ u => u.memory.pending = leftover s) (fun _ u => u.memory.pending = leftover s)
          fun _ => True :=
      (kept _).mono (fun _ _ same => same.trans taken.symm) fun _ _ same => same.trans taken.symm
    have discards := within_discardOutputs steady_pending.toQuiet plan ret 0
    rw [gives_bind, gives_onMemory, Memory.takePending, gives_bind, gives_get, gives_bind,
      gives_modify, gives_pure]
    split
    · exact stays (discards.bind steady_pending fun _ => within_fail steady_pending _)
    · split
      · exact stays (discards.bind steady_pending fun _ => within_fail steady_pending _)
      · exact stays (within_assemble steady_pending around plan ret receiver)
  · rintro e t ⟨run, same⟩
    rw [leftover, run]
    exact same

end FrameM

namespace Session

variable {σ : Type} {w : World σ} {callback : Nat → List Slot → SessionM σ Slot}
  {held arguments : List Value} {name symbol : String} {plan : Plan} {receiver : Option Value}
  {address : Option Nat} {s : Session σ}

/-- Enters the native function of a call, with the frame that its arguments give. -/
def enterFilled (w : World σ) (callback : Nat → List Slot → SessionM σ Slot) (symbol : String)
    (plan : Plan) (address : Option Nat) (arguments : List Value) :
    SessionM σ (Frame × Except CallError Slot) := do
  let (slots, frame) ← within (.start plan.parameters.length)
    (FrameM.nativeSlots w.environment plan address arguments)
  let slots ← Action.ofExcept slots
  let ended ← Action.attempt (enter w callback symbol slots)
  return (frame, ended)

/-- The part of a call up to the end of its native function. It fails if the function is not entered. -/
def entry (w : World σ) (callback : Nat → List Slot → SessionM σ Slot) (name : String)
    (receiver : Option Value) (arguments : List Value) :
    SessionM σ (Frame × Except CallError Slot) := do
  let b ← bind w name
  let plan ← prepare w name b
  Action.ofExcept (checkArguments w.environment.repository plan arguments)
  let address ← Action.ofExcept (receiverAddress plan receiver)
  enterFilled w callback b.callable.symbolName plan address arguments

/-- What is pending once a call is over, by what was pending before and how its native function
ended. -/
def leftover (before : Option CallError) :
    EStateM.Result (Stop CallError) (Session σ) (Frame × Except CallError Slot) → Option CallError
  | .ok (f, .ok _) v => FrameM.leftover ⟨f, v.memory⟩
  | .ok (_, .error _) v => v.memory.pending
  | .error _ _ => before

section

variable {slots : List Slot} {f : Frame} {m : Memory} {v : Session σ}
  (filled : FrameM.nativeSlots w.environment plan address arguments
    ⟨.start plan.parameters.length, s.memory⟩ = .ok slots ⟨f, m⟩)

include filled

theorem enterFilled_eq {ended : Except CallError Slot}
    (ran : (Action.attempt (enter w callback symbol slots) : SessionM σ (Except CallError Slot))
      { s with memory := m } = .ok ended v) :
    enterFilled w callback symbol plan address arguments s = .ok (f, ended) v := by
  have fills : within (.start plan.parameters.length)
      (FrameM.nativeSlots w.environment plan address arguments) s =
        .ok (.ok slots, f) { s with memory := m } := by simp only [within, filled]
  rw [enterFilled, bind_of_ok fills]
  exact bind_of_ok ran

end

/-- The end of a call does not change what is pending. -/
theorem carryOut_end_keeps (outcome : Except CallError Value) (f : Frame) (plan : Plan) :
    (do
      let (released, _) ← within f (FrameM.releaseAll plan)
      let v ← Action.ofExcept outcome
      Action.ofExcept released
      return v : SessionM σ Value).Within fun m t => t.pending = m.pending := by
  refine (within_frame (FrameM.within_releaseAll steady_pending plan)).bind steady_pending
    fun released => ?_
  refine (within_ofExcept steady_pending outcome).bind steady_pending fun v => ?_
  exact (within_ofExcept steady_pending released.1).bind steady_pending fun _ =>
    within_pure steady_pending v

theorem carryOut_leaves :
    (carryOut w callback held symbol plan receiver address arguments).Gives s
      (fun _ t => t.memory.pending =
        leftover s.memory.pending (enterFilled w callback symbol plan address arguments s))
      (fun _ t => t.memory.pending =
        leftover s.memory.pending (enterFilled w callback symbol plan address arguments s))
      fun _ => True := by
  have ends (outcome : Except CallError Value) (f : Frame) {t : Session σ}
      {pending : Option CallError} (same : t.memory.pending = pending) :=
    (carryOut_end_keeps outcome f plan t).mono (fun _ _ kept => kept.trans same)
      fun _ _ kept => kept.trans same
  have kept := FrameM.within_nativeSlots steady_pending.toRegistering w.environment plan
    address arguments ⟨.start plan.parameters.length, s.memory⟩
  rw [carryOut, gives_bind, execute, gives_bind, gives_within]
  refine ((gives_self _ _).both kept).mono ?_ ?_
  · rintro slots ⟨f, m⟩ ⟨filled, -⟩
    rw [gives_bind, gives_attempt]
    refine (gives_self _ _).mono ?_ ?_
    · intro ret v ran
      rw [enterFilled_eq filled (attempt_of_ok ran), gives_bind, heldNow, gives_bind, gives_get,
        gives_pure, gives_within]
      exact (FrameM.settle_leaves ⟨f, v.memory⟩).mono (fun _ x left => ends _ x.frame left)
        fun _ x left => ends _ x.frame left
    · intro e v ran
      rw [enterFilled_eq filled (attempt_of_error ran)]
      exact ends _ f rfl
  · rintro e ⟨f, m⟩ ⟨failed, same⟩
    have fails : within (.start plan.parameters.length)
        (FrameM.nativeSlots w.environment plan address arguments) s =
          .ok (.error e, f) { s with memory := m } := by simp only [within, failed]
    rw [enterFilled, bind_of_ok fails]
    exact ends _ f same

theorem invoke_leaves :
    (invoke w callback held name receiver arguments).Gives s
      (fun _ t => t.memory.pending = leftover s.memory.pending (entry w callback name receiver arguments s))
      (fun _ t => t.memory.pending = leftover s.memory.pending (entry w callback name receiver arguments s))
      fun _ => True := by
  rw [invoke, gives_bind]
  refine ((gives_self _ _).both bind_keeps).mono ?_ ?_
  · rintro b s₁ ⟨bound, same, -⟩
    rw [gives_bind, entry, bind_of_ok bound]
    refine ((gives_self _ _).both prepare_keeps).mono ?_ ?_
    · rintro plan u ⟨prepared, same', -⟩
      have memory := same'.trans same
      rw [gives_bind, gives_ofExcept, bind_of_ok prepared]
      cases accepted : checkArguments w.environment.repository plan arguments with
      | error e => exact congrArg Memory.pending memory
      | ok checked =>
        dsimp only
        rw [gives_bind, gives_ofExcept]
        cases located : receiverAddress plan receiver with
        | error e => exact congrArg Memory.pending memory
        | ok address =>
          rw [← memory]
          exact carryOut_leaves
    · rintro e t ⟨unprepared, same', -⟩
      rw [bind_of_error unprepared]
      exact congrArg Memory.pending (same'.trans same)
  · rintro e t ⟨unbound, same, -⟩
    rw [entry, bind_of_error unbound]
    exact congrArg Memory.pending same

end Session

/-! ### Histories -/

/-- A call that a host makes. Calls nested in it may go as deep as `depth`. -/
structure Request where
  depth : Nat
  name : String
  receiver : Option Value
  arguments : List Value

/-- A call of a host that is over, between the sessions before and after it. -/
structure Turn (σ : Type) where
  before : Session σ
  request : Request
  after : Session σ

namespace Turn

variable {σ : Type} {w : World σ} {t : Turn σ} {e : CallError}

/-- The call was made before and left what is after, whether it failed or not. -/
def Ended (w : World σ) (t : Turn σ) : Prop :=
  ∃ outcome : Except CallError Value,
    (Action.attempt (Session.call w (t.request.depth + 1) t.request.name t.request.receiver
      t.request.arguments) : SessionM σ (Except CallError Value)) t.before = .ok outcome t.after

def entry (w : World σ) (t : Turn σ) :
    EStateM.Result (Stop CallError) (Session σ) (Frame × Except CallError Slot) :=
  Session.entry w
    (Session.callback w t.request.depth (t.request.receiver.toList ++ t.request.arguments))
    t.request.name t.request.receiver t.request.arguments t.before

/-- The native function of the call was entered, and it returned or ended with a fault. -/
def Enters (w : World σ) (t : Turn σ) : Prop := ∃ f ended v, t.entry w = .ok (f, ended) v

/-- An exception was pending when the native function ended, and the call failed then: the function
ended with a fault, or its error cell holds what cannot be read and freed. -/
def Strands (w : World σ) (t : Turn σ) (e : CallError) : Prop :=
  ∃ f ended v, t.entry w = .ok (f, ended) v ∧ v.memory.pending = some e ∧
    ∀ ret, ended = .ok ret → ∃ stop x, FrameM.drainErrorCell ⟨f, v.memory⟩ = .error stop x

theorem pending_after (ended : t.Ended w) :
    t.after.memory.pending = some e ↔
      t.Strands w e ∨ ¬ t.Enters w ∧ t.before.memory.pending = some e := by
  have left : t.after.memory.pending =
      Session.leftover t.before.memory.pending (t.entry w) := by
    obtain ⟨outcome, ran⟩ := ended
    have leaves : (Action.attempt (Session.call w (t.request.depth + 1) t.request.name
        t.request.receiver t.request.arguments) : SessionM σ (Except CallError Value)).Gives t.before
          (fun _ u => u.memory.pending = Session.leftover t.before.memory.pending (t.entry w))
          (fun _ _ => False) fun _ => True := by
      rw [gives_attempt]
      exact Session.invoke_leaves
    exact leaves.of_ok ran
  rw [left]
  cases entered : t.entry w with
  | error stop u =>
    have outside : ¬ t.Enters w := by
      rintro ⟨f, ended, v, entered'⟩
      cases entered.symm.trans entered'
    have kept : ¬ t.Strands w e := fun ⟨f, ended, v, entered', _⟩ =>
      outside ⟨f, ended, v, entered'⟩
    simp only [Session.leftover, kept, outside, not_false_eq_true, true_and, false_or]
  | ok ran v =>
    obtain ⟨f, ended⟩ := ran
    have enters : t.Enters w := ⟨f, ended, v, entered⟩
    simp only [enters, not_true_eq_false, false_and, or_false]
    constructor
    · intro pending
      refine ⟨f, ended, v, entered, ?_⟩
      cases ended with
      | error e' => exact ⟨pending, nofun⟩
      | ok ret =>
        rw [Session.leftover, FrameM.leftover] at pending
        split at pending
        · cases pending
        · rename_i stop x drains
          exact ⟨pending, fun _ _ => ⟨stop, x, drains⟩⟩
    · rintro ⟨f', ended', v', entered', pending, stuck⟩
      cases entered.symm.trans entered'
      cases ended with
      | error e' => exact pending
      | ok ret =>
        obtain ⟨stop, x, drains⟩ := stuck ret rfl
        rw [Session.leftover, FrameM.leftover, drains]
        exact pending

end Turn

/-- The calls of a host from a fresh session on, the latest one first. Between calls the host may
change its own state. -/
inductive History {σ : Type} (w : World σ) : List (Turn σ) → Session σ → Prop where
  | start (host : σ) : History w [] (.start host)
  | turn {turns : List (Turn σ)} {s : Session σ} {now : Turn σ} (earlier : History w turns s)
      (begins : ∃ host, now.before = { s with host := host }) (ended : now.Ended w) :
      History w (now :: turns) now.after

/-- What is pending between calls is what the last call that entered its native function left behind,
by failing when that function had ended. Nothing is ever pending before or after a call if, and only
if, no call fails there with an exception pending. -/
theorem pending_between_calls {σ : Type} {w : World σ} {turns : List (Turn σ)} {s : Session σ}
    (history : History w turns s) :
    (∀ e, s.memory.pending = some e ↔ ∃ later last earlier, turns = later ++ last :: earlier ∧
      last.Strands w e ∧ ∀ t ∈ later, ¬ t.Enters w) ∧
    ((∀ t ∈ turns, t.before.memory.pending = none ∧ t.after.memory.pending = none) ↔
      ∀ t ∈ turns, ∀ e, ¬ t.Strands w e) := by
  induction history with
  | start host =>
    refine ⟨fun e => ⟨nofun, ?_⟩, by simp⟩
    rintro ⟨later, last, earlier, none, -⟩
    simp at none
  | @turn turns s now _ begins ended ih =>
    obtain ⟨pending, clean⟩ := ih
    have same : now.before.memory.pending = s.memory.pending := by
      obtain ⟨host, begins⟩ := begins
      rw [begins]
    constructor
    · intro e
      rw [Turn.pending_after ended, same, pending]
      constructor
      · rintro (strands | ⟨outside, later, last, earlier, rfl, strands, quiet⟩)
        · exact ⟨[], now, turns, rfl, strands, List.forall_mem_nil _⟩
        · exact ⟨now :: later, last, earlier, rfl, strands, List.forall_mem_cons.2 ⟨outside, quiet⟩⟩
      · rintro ⟨later, last, earlier, split, strands, quiet⟩
        cases later with
        | nil =>
          cases split
          exact .inl strands
        | cons first later =>
          cases split
          obtain ⟨outside, quiet⟩ := List.forall_mem_cons.1 quiet
          exact .inr ⟨outside, later, last, earlier, rfl, strands, quiet⟩
    · rw [List.forall_mem_cons, List.forall_mem_cons, clean, and_comm, and_comm (b := ∀ t ∈ turns, _)]
      refine and_congr_right fun kept => ?_
      have calm : s.memory.pending = none := by
        refine Option.eq_none_iff_forall_ne_some.2 fun e waits => ?_
        obtain ⟨later, last, earlier, rfl, strands, -⟩ := (pending e).1 waits
        exact kept last (by simp) e strands
      rw [same, calm]
      constructor
      · rintro ⟨-, free⟩ e strands
        have waits := (Turn.pending_after ended).2 (.inl strands)
        rw [free] at waits
        cases waits
      · refine fun free => ⟨rfl, Option.eq_none_iff_forall_ne_some.2 fun e waits => ?_⟩
        rcases (Turn.pending_after ended).1 waits with strands | ⟨-, waits⟩
        · exact free e strands
        · rw [same, calm] at waits
          cases waits

/-! ### Two calls -/

/-- The function `boom` runs a callback and frees what is no block. The function `quiet` does
nothing. -/
def strandingWorld : World Unit where
  environment :=
    let run : CallableRecord := { namespaceName := "T", name := "Run" }
    let boom : CallableRecord :=
      { namespaceName := "T", name := "boom"
        arguments := [{ name := "run", type := .named "T.Run", scope := some .call }] }
    let types := Repository.initial.insertEntry
      { namespaceName := "T", name := "Run", kind := .callback, signature := some run }
    ⟨(types.insertFunction boom).insertFunction { namespaceName := "T", name := "quiet" }, .pin⟩
  library
    | "boom" => some fun slots =>
      .callback (slots.getD 0 .null) [] fun _ => .request (.free 0x9999) fun _ => .ret .null
    | _ => some fun _ => .ret .null
  script _ _ := .throw (.script "stale")
  kept _ := []

def boomRequest : Request := ⟨1, "T.boom", none, [.function ⟨0⟩]⟩

def unknownRequest : Request := ⟨1, "T.unknown", none, []⟩

/-- A call that strands the exception of its callback, and then one of a function that does not exist.
The exception is pending after both. -/
theorem pending_between_calls_unknown :
    ∃ now first s, History strandingWorld [now, first] s ∧ first.request = boomRequest ∧
      now.request = unknownRequest ∧ s.memory.pending = some (.script "stale") := by
  let w := strandingWorld
  obtain ⟨_, s₁, boomed, refuses⟩ :=
    Action.exists_error_such (x := Session.call w 2 "T.boom" none [.function ⟨0⟩]) (s := .start ())
      (fun _ s => (Session.call w 2 "T.unknown" none []).fails s fun _ _ =>
        (Session.entry w (Session.callback w 1 []) "T.unknown" none []).fails s fun _ _ => true)
      (by decide +kernel)
  obtain ⟨_, s₂, refused, outside⟩ := Action.exists_error_such _ refuses
  obtain ⟨_, u, failed, -⟩ := Action.exists_error_such _ outside
  obtain ⟨⟨f, ended⟩, v, entered, left⟩ :=
    Action.exists_ok_such (s := .start ())
      (x := Session.entry w (Session.callback w 1 [.function ⟨0⟩]) "T.boom" none [.function ⟨0⟩])
      (fun ran v => v.memory.pending == some (.script "stale") && !ran.2.isOk) (by decide +kernel)
  simp only [Bool.and_eq_true, beq_iff_eq, Bool.not_eq_true'] at left
  obtain ⟨pending, fault⟩ := left
  let first : Turn Unit := ⟨.start (), boomRequest, s₁⟩
  let now : Turn Unit := ⟨s₁, unknownRequest, s₂⟩
  have history : History w [now, first] s₂ :=
    .turn (.turn (.start ()) ⟨(), rfl⟩ ⟨_, attempt_of_error boomed⟩) ⟨(), rfl⟩
      ⟨_, attempt_of_error refused⟩
  have strands : first.Strands w (.script "stale") := by
    refine ⟨f, ended, v, entered, pending, ?_⟩
    rintro ret rfl
    cases fault
  have unentered : ∀ t ∈ [now], ¬ t.Enters w := by
    rw [List.forall_mem_singleton]
    rintro ⟨f', ended', v', entered'⟩
    cases failed.symm.trans entered'
  refine ⟨now, first, s₂, history, rfl, rfl, ?_⟩
  exact ((pending_between_calls history).1 _).2 ⟨[now], first, [], rfl, strands, unentered⟩

/-- The exception of a callback is pending after the call it was raised in, and a later call throws
it. -/
theorem pending_left_over :
    ∃ s t, Session.call strandingWorld 2 "T.boom" none [.function ⟨0⟩] (.start ()) =
        .error (.error (.heap (.notAllocated 0x9999))) s ∧
      s.memory.pending = some (.script "stale") ∧
      Session.call strandingWorld 2 "T.quiet" none [] s = .error (.error (.script "stale")) t := by
  obtain ⟨e, s, boomed, left⟩ :=
    Action.exists_error_such (x := Session.call strandingWorld 2 "T.boom" none [.function ⟨0⟩])
      (s := .start ()) (fun e s => e == .heap (.notAllocated 0x9999) &&
        s.memory.pending == some (.script "stale") &&
        (Session.call strandingWorld 2 "T.quiet" none []).fails s fun e _ => e == .script "stale")
      (by decide +kernel)
  simp only [Bool.and_eq_true, beq_iff_eq] at left
  obtain ⟨⟨rfl, pending⟩, thrown⟩ := left
  obtain ⟨e, t, quiet, stale⟩ := Action.exists_error_such _ thrown
  obtain rfl := beq_iff_eq.1 stale
  exact ⟨s, t, boomed, pending, quiet⟩

end ForeignCall
