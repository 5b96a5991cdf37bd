import ForeignCall.Proofs.Call.Exceptions

/-!
Calls that are made while an exception of the call around them waits.

All calls share one place for an exception that waits. A script function may make a call after a
callback before it failed, and when the native function of that call returns, what waits is taken as
if it were an exception of its own. So a nested call reports the exception of the call around it, and
for the latter nothing is left to report.
-/

set_option autoImplicit false

namespace ForeignCall

open ForeignCall.Action

namespace FrameM

variable {s : Scratch}

/-- The error cell of a call is null, if it has one. -/
def NoError (s : Scratch) : Prop :=
  ∀ cell ∈ s.frame.errorCell, Heap.loadPointer cell s.memory.heap = .ok 0 s.memory.heap

theorem NoError.drain (empty : NoError s) : drainErrorCell s = .ok none s := by
  have reads : drainErrorCell.Gives s (fun record t => record = none ∧ t = s) (fun _ _ => False)
      fun _ => False := by
    rw [drainErrorCell, gives_bind, gives_frame]
    split
    · exact ⟨rfl, rfl⟩
    · rename_i cell listed
      rw [gives_bind, gives_touch]
      exact gives_of_ok (empty cell listed) ⟨rfl, rfl⟩
  obtain ⟨_, _, ran, rfl, rfl⟩ := reads.exists_ok
  exact ran

/-- Where a call with an empty error cell is once it took what was pending. -/
def taken (s : Scratch) : Scratch := { s with memory := { s.memory with pending := none } }

theorem within_finish {R : Memory → Memory → Prop} (p : Steady R) (plan : Plan)
    {x : FrameM Value} (within : x.Within R) : (finish plan x).Within R := by
  refine within.attempt.bind p fun outcome => ?_
  refine (within_releaseAll p plan).attempt.bind p fun released => ?_
  refine (within_ofExcept p outcome).bind p fun v => ?_
  exact (within_ofExcept p released).bind p fun _ => within_pure p v

end FrameM

/-- A call that is made while an exception waits takes what is pending when its native function has
returned without an error of its own: this exception, unless the run of the function entered another
native function. It reports what it took. Only if a call within it took the exception before does it
give its own outputs. In no case is the exception of the call around it pending afterwards. -/
theorem nested_call_takes_exception {σ : Type} {w : World σ} {depth : Nat} {held : List Value}
    {name : String} {receiver : Option Value} {arguments : List Value} {s s₁ u v : Session σ}
    {b : Binding} {plan : Plan} {address : Option Nat} {function : List Slot → Native σ}
    {slots : List Slot} {f : Frame} {m : Memory} {ret : Slot} {e : CallError}
    (bound : Session.bind w name s = .ok b s₁) (prepared : Session.prepare w name b s₁ = .ok plan u)
    (accepted : checkArguments w.environment.repository plan arguments = .ok ())
    (located : Session.receiverAddress plan receiver = .ok address)
    (waits : s.memory.pending = some e)
    (filled : FrameM.nativeSlots w.environment plan address arguments
      ⟨.start plan.parameters.length, u.memory⟩ = .ok slots ⟨f, m⟩)
    (defined : w.library b.callable.symbolName = some function)
    (ran : (function slots).run (Session.callback w depth held)
      (u.entering m b.callable.symbolName slots) = .ok ret v)
    (empty : FrameM.NoError ⟨f, v.memory⟩) :
    let finish := FrameM.finish plan
      (FrameM.assemble (held ++ w.kept v.host) plan ret receiver) (FrameM.taken ⟨f, v.memory⟩)
    let unwind := FrameM.unwind plan ret (FrameM.taken ⟨f, v.memory⟩)
    (¬ (u.entering m b.callable.symbolName slots).memory.Entered v.memory →
      v.memory.pending = some e) ∧
    (Session.callNested w (depth + 1) held name receiver arguments).Gives s
      (fun value t => t.memory.pending = none ∧ v.memory.pending = none ∧
        ∃ x, finish = .ok value x ∧ t.memory = x.memory)
      (fun error t => t.memory.pending = none ∧
        match v.memory.pending with
        | some e' => ∃ discarded x, unwind = .ok discarded x ∧
            error = FrameM.reported e' discarded ∧ t.memory = x.memory
        | none => ∃ x, finish = .error (.error error) x ∧ t.memory = x.memory)
      (fun h => match v.memory.pending with
        | some _ => ∃ x, unwind = .error (.halt h) x
        | none => ∃ x, finish = .error (.halt h) x) := by
  intro finish unwind
  have memory : u.memory = s.memory :=
    (Session.prepare_keeps.of_ok prepared).1.trans (Session.bind_keeps.of_ok bound).1
  have kept := (FrameM.within_nativeSlots steady_pending.toRegistering w.environment plan
    address arguments ⟨.start plan.parameters.length, u.memory⟩).of_ok filled
  have still := (Native.run_stillPending (function slots)
    (Session.within_callback_unentered steady_pending depth held) _).of_ok ran
  refine ⟨fun apart => ?_, ?_⟩
  · have before : (u.entering m b.callable.symbolName slots).memory.pending = some e :=
      kept.trans ((congrArg Memory.pending memory).trans waits)
    exact still.holds.elim (absurd · apart) fun holds => holds e before
  rw [Action.Gives, Session.callNested_eq bound prepared accepted located, ← Action.Gives]
  refine Session.carryOut_finishes filled defined ran empty.drain ?_
  dsimp only
  cases found : v.memory.pending with
  | some e' =>
    refine FrameM.finish_unwinds ?_
    have same := FrameM.within_unwind steady_pending plan ret (FrameM.taken ⟨f, v.memory⟩)
    have ends := FrameM.unwind_ends plan ret (FrameM.taken ⟨f, v.memory⟩)
    refine (((gives_outcome _ _).both ends).both same).mono ?_ fun _ _ never => never.1.2
    rintro discarded x ⟨⟨run, -⟩, calm⟩
    exact ⟨calm, discarded, x, run, rfl, rfl⟩
  | none =>
    have same := FrameM.within_finish steady_pending plan
      (FrameM.within_assemble steady_pending (held ++ w.kept v.host) plan ret receiver)
      (FrameM.taken ⟨f, v.memory⟩)
    refine ((gives_outcome _ _).both same).mono ?_ ?_
    · rintro value x ⟨run, calm⟩
      exact ⟨calm, rfl, x, run, rfl⟩
    · rintro error x ⟨run, calm⟩
      exact ⟨calm, x, run, rfl⟩

/-! ### Two such calls -/

/-- The function `outer` runs two callbacks and `inner` does nothing. The first callback fails. The
second one calls `inner` and leaves the error of that with the host, if there is one. -/
def nestingWorld : World (Option CallError) where
  environment :=
    let run : CallableRecord := { namespaceName := "T", name := "Run" }
    let callback (name : String) : ArgumentRecord :=
      { name := name, type := .named "T.Run", scope := some .call }
    let outer : CallableRecord :=
      { namespaceName := "T", name := "outer", arguments := [callback "first", callback "second"] }
    let types := Repository.initial.insertEntry
      { namespaceName := "T", name := "Run", kind := .callback, signature := some run }
    ⟨(types.insertFunction outer).insertFunction { namespaceName := "T", name := "inner" }, .pin⟩
  library
    | "outer" => some fun slots =>
      .callback (slots.getD 0 .null) [] fun _ => .callback (slots.getD 1 .null) [] fun _ => .ret .null
    | _ => some fun _ => .ret .null
  script
    | ⟨0⟩, _ => .throw (.script "outer")
    | _, _ => .call "T.inner" none [] fun
      | .ok _ => .ret .undefined
      | .error e => .write (some e) (.ret .undefined)
  kept _ := []

/-- A session in which an exception waits. -/
def waitingSession : Session (Option CallError) :=
  { Session.start none with memory := { Memory.empty with pending := some (.script "outer") } }

/-- The exception is what a call of `inner` fails with then. -/
theorem nested_call_takes_exception_inner :
    ∃ t, Session.callNested nestingWorld 2 [] "T.inner" none [] waitingSession =
        .error (.error (.script "outer")) t ∧ t.memory.pending = none := by
  obtain ⟨b, s₁, bound, binding⟩ :=
    Action.exists_ok_such (x := Session.bind nestingWorld "T.inner") (s := waitingSession)
      (fun b s₁ => b.callable.symbolName == "inner" &&
        (Session.prepare nestingWorld "T.inner" b).succeeds s₁ fun plan u =>
          checkArguments nestingWorld.environment.repository plan [] == .ok () && !plan.isMethod &&
          (FrameM.nativeSlots nestingWorld.environment plan none []).succeeds
            ⟨.start plan.parameters.length, u.memory⟩ fun _ x => x.frame.errorCell == none)
      (by decide +kernel)
  simp only [Bool.and_eq_true, beq_iff_eq] at binding
  obtain ⟨symbol, prepares⟩ := binding
  obtain ⟨plan, u, prepared, facts⟩ := Action.exists_ok_such _ prepares
  simp only [Bool.and_eq_true, beq_iff_eq, Bool.not_eq_true'] at facts
  obtain ⟨⟨accepted, plain⟩, fills⟩ := facts
  obtain ⟨slots, ⟨f, m⟩, filled, noCell⟩ := Action.exists_ok_such _ fills
  have located : Session.receiverAddress plan none = .ok none := by
    simp [Session.receiverAddress, plain]
  have defined : nestingWorld.library b.callable.symbolName = some fun _ => .ret .null := by
    rw [symbol]
    rfl
  have empty : FrameM.NoError ⟨f, (u.entering m b.callable.symbolName slots).memory⟩ := by
    intro cell listed
    rw [beq_iff_eq.1 noCell] at listed
    cases listed
  obtain ⟨e, t, failed, script⟩ :=
    Action.exists_error_such (x := Session.callNested nestingWorld 2 [] "T.inner" none [])
      (s := waitingSession) (fun e _ => e == .script "outer") (by decide +kernel)
  obtain rfl := beq_iff_eq.1 script
  refine ⟨t, failed, ?_⟩
  generalize nestingWorld = w at *
  exact ((nested_call_takes_exception bound prepared accepted located rfl filled defined rfl
    empty).2.of_error failed).1

/-- Two callbacks of `outer` run. The first one fails, and its exception is what the call of `inner`
in the second one fails with. Nothing is pending when `outer` returns, and its call succeeds. -/
theorem nested_call_hides_exception :
    ∃ v t, Session.call nestingWorld 3 "T.outer" none [.function ⟨0⟩, .function ⟨1⟩] (.start none) =
      .ok v t ∧ t.host = some (.script "outer") := by
  obtain ⟨v, t, ran, answered⟩ :=
    Action.exists_ok_such
      (x := Session.call nestingWorld 3 "T.outer" none [.function ⟨0⟩, .function ⟨1⟩])
      (s := .start none) (fun _ t => t.host == some (.script "outer")) (by decide +kernel)
  exact ⟨v, t, ran, beq_iff_eq.1 answered⟩

end ForeignCall
