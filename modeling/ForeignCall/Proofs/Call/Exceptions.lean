import ForeignCall.Proofs.Call.Cleanup

/-!
The exception that a call reports.

An exception of a callback waits in the native state until the native function returns. Nothing but
another native function touches it meanwhile, so that of several exceptions the first one waits. The
call empties the error cell, takes the exception and releases the outputs. It reports the exception,
unless the outputs cannot be released: then it reports the error of that.
-/

set_option autoImplicit false

namespace ForeignCall

open ForeignCall.Action

variable {σ : Type}

/-! ### Waiting -/

theorem Memory.Entered.earlier {m t u : Memory} (entered : t.Entered u)
    (grown : m.journal.toList <+: t.journal.toList) : m.Entered u := by
  obtain ⟨symbol, slots, listed⟩ := entered
  exact ⟨symbol, slots, (List.drop_sublist_drop_left _ grown.length_le).subset listed⟩

/-- `R` holds, unless a native function was entered. -/
structure Memory.Unentered (R : Memory → Memory → Prop) (m t : Memory) : Prop where
  grown : m.journal.toList <+: t.journal.toList
  holds : m.Entered t ∨ R m t

theorem Steady.unentered {R : Memory → Memory → Prop} (p : Steady R) :
    Steady (Memory.Unentered R) where
  refl m := ⟨progress_journal.refl m, .inr (p.refl m)⟩
  trans first second := by
    refine ⟨first.grown.trans second.grown, ?_⟩
    rcases first.holds with entered | holds
    · exact .inl (entered.mono second.grown)
    · exact second.holds.imp (fun entered => entered.earlier first.grown) (p.trans holds)
  heap m h := ⟨progress_journal.heap m h, .inr (p.heap m h)⟩
  registered m f plan r := ⟨progress_journal.registered m f plan r, .inr (p.registered m f plan r)⟩
  released m a := ⟨progress_journal.released m a, .inr (p.released m a)⟩
  counted m a := ⟨progress_journal.counted m a, .inr (p.counted m a)⟩
  retained m a slot := ⟨progress_journal.retained m a slot, .inr (p.retained m a slot)⟩
  wrappers m w wraps := ⟨progress_journal.wrappers m w wraps, .inr (p.wrappers m w wraps)⟩
  native m symbol slots := ⟨progress_journal.native m symbol slots, .inr (p.native m symbol slots)⟩
  script m f v := ⟨progress_journal.script m f v, .inr (p.script m f v)⟩
  note m n := ⟨progress_journal.note m n, .inr (p.note m n)⟩

def Memory.SamePending (m t : Memory) : Prop := t.pending = m.pending

/-- An exception that waits is not replaced. -/
def Memory.StillPending (m t : Memory) : Prop := ∀ e, m.pending = some e → t.pending = some e

theorem steady_stillPending : Steady Memory.StillPending where
  refl _ _ waits := waits
  trans first second e waits := second e (first e waits)
  heap _ _ _ waits := waits
  registered _ _ _ _ _ waits := waits
  released _ _ _ waits := waits
  counted _ _ _ waits := waits
  retained _ _ _ _ waits := waits
  wrappers _ _ _ _ waits := waits
  native _ _ _ _ waits := waits
  script _ _ _ _ waits := waits
  note _ _ _ waits := waits

namespace Session

variable {R : Memory → Memory → Prop}

theorem within_execute_unentered (p : Steady R) {w : World σ}
    {callback : Nat → List Slot → SessionM σ Slot}
    (calls : ∀ a slots, (callback a slots).Within
      fun m t => m.journal.toList <+: t.journal.toList)
    (held : List Value) (symbol : String) (plan : Plan) (receiver : Option Value)
    (address : Option Nat) (arguments : List Value) :
    (execute w callback held symbol plan receiver address arguments).Within (Memory.Unentered R) := by
  intro s
  have grows := within_execute (w := w) progress_journal calls held symbol plan receiver address
    arguments s
  have filled := FrameM.within_nativeSlots p.toRegistering w.environment plan
    address arguments ⟨.start plan.parameters.length, s.memory⟩
  refine (grows.both (execute_gives calls)).mono ?_ ?_
  · rintro outcome t ⟨grown, entered | ⟨e, v, run, -, rfl⟩⟩
    · exact ⟨grown, .inl entered⟩
    · exact ⟨grown, .inr (filled.of_error run)⟩
  · rintro e t ⟨grown, entered⟩
    exact ⟨grown, .inl entered⟩

variable {w : World σ}

theorem within_callNested_unentered (p : Steady R) (depth : Nat) (held : List Value) (name : String)
    (receiver : Option Value) (arguments : List Value) :
    (callNested w depth held name receiver arguments).Within (Memory.Unentered R) := by
  cases depth with
  | zero => exact within_endless
  | succ depth =>
    have calls := within_callback progress_journal w depth held
    refine within_invoke p.unentered (fun symbol plan address => ?_) name
    exact within_execute_unentered p calls held symbol plan receiver address arguments

theorem within_callback_unentered (p : Steady R) (depth : Nat) (held : List Value) (address : Nat)
    (slots : List Slot) : (callback w depth held address slots).Within (Memory.Unentered R) :=
  within_enterCallback p.unentered (within_script p.unentered (within_callNested_unentered p depth))
    held address slots

end Session

/-! ### The first exception -/

/-- The first exception of a run: a callback failed with it, or the native code raised it itself. What
the run does afterwards is left open. -/
inductive Native.FirstException (callback : Nat → List Slot → SessionM σ Slot) :
    Native σ → Session σ → CallError → Prop where
  | heap {op : HeapOperation} {next : Except HeapFault op.Answer → Native σ}
      {answer : Except HeapFault op.Answer} {s t : Session σ} {e : CallError}
      (ran : (Session.onMemory (Memory.onHeap (attempt op.run)) : SessionM σ _) s = .ok answer t)
      (later : FirstException callback (next answer) t e) :
      FirstException callback (.heap op next) s e
  | returned {function : Slot} {slots : List Slot} {next : Slot → Native σ} {slot : Slot}
      {s t : Session σ} {e : CallError} (ran : callback function.toNat slots s = .ok slot t)
      (later : FirstException callback (next slot) t e) :
      FirstException callback (.callback function slots next) s e
  | failed {function : Slot} {slots : List Slot} {next : Slot → Native σ} {s t : Session σ}
      {e : CallError} (ran : callback function.toNat slots s = .error (.error e) t) :
      FirstException callback (.callback function slots next) s e
  | raised {next : Native σ} (s : Session σ) (e : CallError) :
      FirstException callback (.raise e next) s e
  | note {n : Note} {next : Native σ} {s : Session σ} {e : CallError}
      (later : FirstException callback next
        { s with memory := { s.memory with journal := s.memory.journal.push (.note n) } } e) :
      FirstException callback (.note n next) s e
  | read {next : σ → Native σ} {s : Session σ} {e : CallError}
      (later : FirstException callback (next s.host) s e) : FirstException callback (.read next) s e
  | write {state : σ} {next : Native σ} {s : Session σ} {e : CallError}
      (later : FirstException callback next { s with host := state } e) :
      FirstException callback (.write state next) s e

section

variable {callback : Nat → List Slot → SessionM σ Slot} {n : Native σ} {s t v : Session σ}
  {e : CallError} {ret : Slot}

theorem Session.onMemory_raise (e : CallError) (s : Session σ) :
    (Session.onMemory (Memory.raise e) : SessionM σ Unit) s =
      .ok () { s with memory := { s.memory with pending := some (s.memory.pending.getD e) } } := rfl

theorem Native.run_stillPending (n : Native σ)
    (calls : ∀ a slots, (callback a slots).Within (Memory.Unentered Memory.SamePending)) :
    (n.run callback).Within (Memory.Unentered Memory.StillPending) := by
  have p := steady_stillPending.unentered
  refine within_native p (fun m e => ?_) (fun a slots => ?_) n
  · exact ⟨List.prefix_rfl, .inr fun e' waits => by simp [waits]⟩
  · refine (calls a slots).weaken fun m t kept => ⟨kept.grown, kept.holds.imp_right ?_⟩
    exact fun same e waits => same.trans waits

/-- A step before which nothing waits leaves it so, if the rest of the run enters no native function. -/
theorem Memory.Unentered.calm {m t v : Memory} (step : m.Unentered Memory.SamePending t)
    (grown : t.journal.toList <+: v.journal.toList) (apart : ¬ m.Entered v)
    (calm : m.pending = none) : t.pending = none ∧ ¬ t.Entered v := by
  refine ⟨?_, fun entered => apart (entered.earlier step.grown)⟩
  rcases step.holds with entered | same
  · exact (apart (entered.mono grown)).elim
  · exact same.trans calm

/-- When native code returns, the exception that waits is the first one of its run. -/
theorem Native.pending_iff_first
    (calls : ∀ a slots, (callback a slots).Within (Memory.Unentered Memory.SamePending))
    (calm : s.memory.pending = none) (ran : n.run callback s = .ok ret v)
    (apart : ¬ s.memory.Entered v.memory) :
    v.memory.pending = some e ↔ n.FirstException callback s e := by
  have grows {m : Native σ} {x : Session σ} (rest : m.run callback x = .ok ret v) :
      x.memory.Unentered Memory.StillPending v.memory :=
    (Native.run_stillPending m calls x).of_ok rest
  have stays {m : Native σ} {x : Session σ} {e : CallError} (rest : m.run callback x = .ok ret v)
      (pending : x.memory.pending = some e) (apart : ¬ x.memory.Entered v.memory) :
      v.memory.pending = some e :=
    (grows rest).holds.elim (absurd · apart) fun still => still e pending
  induction n generalizing s with
  | ret slot =>
    cases ran
    refine ⟨fun pending => by simp [calm] at pending, fun first => ?_⟩
    cases first
  | fault fault => cases ran
  | heap op next ih =>
    obtain ⟨answer, t, answered, rest⟩ := exists_of_bind ran
    have steps : (Memory.onHeap (attempt op.run) : MemoryM CallError _).Within
      (Memory.Unentered Memory.SamePending) := within_onHeap steady_pending.unentered.toQuiet _
    have step : s.memory.Unentered Memory.SamePending t.memory :=
      (Session.within_onMemory steps s).of_ok answered
    obtain ⟨calm, apart⟩ := step.calm (grows rest).grown apart calm
    refine (ih answer calm rest apart).trans ⟨.heap answered, ?_⟩
    rintro (⟨answered', later⟩)
    cases answered.symm.trans answered'
    exact later
  | callback address slots next ih =>
    cases called : callback address.toNat slots s with
    | ok slot t =>
      rw [Native.run, bind_of_ok (attempt_of_ok called)] at ran
      have step : s.memory.Unentered Memory.SamePending t.memory := (calls _ _ _).of_ok called
      obtain ⟨calm, apart⟩ := step.calm (grows ran).grown apart calm
      refine (ih slot calm ran apart).trans ⟨.returned called, ?_⟩
      rintro (_ | ⟨called', later⟩ | called') <;> cases called.symm.trans called'
      exact later
    | error stop t =>
      cases stop with
      | error e' =>
        rw [Native.run, bind_of_ok (attempt_of_error called)] at ran
        dsimp only at ran
        rw [bind_of_ok (Session.onMemory_raise e' t)] at ran
        have step : s.memory.Unentered Memory.SamePending t.memory := (calls _ _ _).of_error called
        obtain ⟨calm, apart⟩ := step.calm (grows ran).grown apart calm
        rw [calm] at ran
        rw [stays ran rfl apart, Option.getD_none, Option.some_inj]
        refine ⟨fun same => same ▸ .failed called, ?_⟩
        rintro (_ | ⟨called', later⟩ | called') <;> cases called.symm.trans called'
        rfl
      | halt h => simp [Native.run, bind, EStateM.bind, attempt, called] at ran
  | raise e' next ih =>
    rw [Native.run, bind_of_ok (Session.onMemory_raise e' s)] at ran
    rw [calm] at ran
    rw [stays ran rfl apart, Option.getD_none, Option.some_inj]
    exact ⟨fun same => same ▸ .raised s e', fun first => by cases first; rfl⟩
  | note n next ih =>
    let t : Session σ :=
      { s with memory := { s.memory with journal := s.memory.journal.push (.note n) } }
    have ran : next.run callback t = .ok ret v := ran
    have step : s.memory.Unentered Memory.SamePending t.memory := steady_pending.unentered.note _ n
    obtain ⟨calm, apart⟩ := step.calm (grows ran).grown apart calm
    refine (ih calm ran apart).trans ⟨.note, fun first => ?_⟩
    cases first
    assumption
  | read next ih =>
    refine (ih s.host calm ran apart).trans ⟨.read, fun first => ?_⟩
    cases first
    assumption
  | write state next ih =>
    refine (ih (s := { s with host := state }) calm ran apart).trans ⟨.write, fun first => ?_⟩
    cases first
    assumption

end

/-! ### The error cell -/

/-- Whether a cell is null or holds an error that can be read and freed. -/
def Heap.holdsError (h : Heap) (cell : Nat) : Bool :=
  (Heap.loadPointer cell).succeeds h fun address _ =>
    address == 0 || (Heap.readError address).succeeds h (fun _ _ => true) &&
      (Heap.freeError address).succeeds h fun _ _ => true

/-- The error that a cell held is not live any more, nor is its message. -/
def Heap.ErrorGone (h g : Heap) (cell : Nat) : Prop :=
  ∀ address, Heap.loadPointer cell h = .ok address h → address ≠ 0 →
    g.isLive address = false ∧
      ∀ message, Heap.loadPointer (address + 8) h = .ok message h → g.isLive message = false

theorem Heap.ErrorGone.mono {h g g' : Heap} {cell : Nat} (gone : h.ErrorGone g cell)
    (clears : g.Clears g') : h.ErrorGone g' cell := by
  intro address loaded nonnull
  obtain ⟨block, message⟩ := gone address loaded nonnull
  exact ⟨clears.not_live block, fun a found => clears.not_live (message a found)⟩

theorem Heap.gives_freeError {address : Nat} (nonnull : address ≠ 0) (h : Heap) :
    (freeError address).Gives h
      (fun _ g => g.isLive address = false ∧
        ∀ message, loadPointer (address + 8) h = .ok message h → g.isLive message = false)
      (fun _ _ => True) fun _ => True := by
  have loads := across_loadPointer Heap.composes_same (address + 8) h
  rw [freeError, if_neg nonnull, gives_bind]
  refine ((gives_self _ _).both loads).mono ?_ fun _ _ _ => trivial
  rintro text _ ⟨loaded, rfl⟩
  rw [gives_bind]
  refine (gives_free text _).partly.mono ?_ fun _ _ _ => trivial
  rintro _ g ⟨-, gone⟩
  refine (gives_free address g).partly.mono ?_ fun _ _ _ => trivial
  rintro _ g' ⟨clears, freed⟩
  refine ⟨freed, fun message found => ?_⟩
  rw [loaded] at found
  cases found
  exact clears.not_live gone

namespace FrameM

variable {plan : Plan} {ret : Slot} {receiver : Option Value} {around : List Value} {s : Scratch}
  {e : CallError}

theorem drainErrorCell_frees (valid : s.frame.errorCell.all s.memory.heap.holdsError = true) :
    ∃ record g, drainErrorCell s = .ok record { s with memory := { s.memory with heap := g } } ∧
      ∀ cell ∈ s.frame.errorCell, s.memory.heap.ErrorGone g cell := by
  have drains : drainErrorCell.Gives s
      (fun _ t => ∃ g, t = { s with memory := { s.memory with heap := g } } ∧
        ∀ cell ∈ s.frame.errorCell, s.memory.heap.ErrorGone g cell)
      (fun _ _ => False) fun _ => False := by
    rw [drainErrorCell, gives_bind, gives_frame]
    cases found : s.frame.errorCell with
    | none => exact ⟨s.memory.heap, rfl, fun _ absurd => by cases absurd⟩
    | some cell =>
      rw [found, Option.all_some] at valid
      obtain ⟨address, _, loaded, usable⟩ := exists_ok_such _ valid
      obtain rfl := (across_loadPointer Heap.composes_same cell s.memory.heap).of_ok loaded
      rw [gives_bind, gives_touch]
      apply gives_of_ok loaded
      by_cases null : address = 0
      · rw [if_pos null]
        refine ⟨s.memory.heap, rfl, ?_⟩
        rintro _ ⟨⟩ address' loaded' nonnull
        cases loaded.symm.trans loaded'
        exact absurd null nonnull
      · simp only [null, beq_iff_eq, Bool.or_eq_true, Bool.and_eq_true, false_or] at usable
        obtain ⟨record, _, read, -⟩ := exists_ok_such _ usable.1
        obtain ⟨_, g, freed, -⟩ := exists_ok_such _ usable.2
        obtain rfl := (across_readError Heap.composes_same address _).of_ok read
        rw [if_neg null, gives_bind, gives_touch]
        apply gives_of_ok read
        rw [gives_bind, gives_touch]
        apply gives_of_ok freed
        refine ⟨g, rfl, ?_⟩
        rintro _ ⟨⟩ address' loaded' nonnull
        cases loaded.symm.trans loaded'
        exact (Heap.gives_freeError null s.memory.heap).of_ok freed
  obtain ⟨record, _, ran, g, rfl, gone⟩ := drains.exists_ok
  exact ⟨record, g, ran, gone⟩

/-- Where a call is once it emptied the error cell and took the exception. -/
def drained (s : Scratch) : Scratch :=
  match drainErrorCell s with
  | .ok _ t | .error _ t => { t with memory := { t.memory with pending := none } }

/-- What is left to do for a call that reports an exception. The error of releasing the outputs is
passed on, that of the rest is not. -/
def unwind (plan : Plan) (ret : Slot) : FrameM (Except CallError Unit) := do
  let discarded ← Action.attempt (discardOutputs plan ret 0)
  let _ : Except CallError Unit ← Action.attempt (releaseAll plan)
  return discarded

/-- The error that a call reports for an exception. -/
def reported (e : CallError) (discarded : Except CallError Unit) : CallError :=
  match discarded with
  | .ok () => e
  | .error e' => e'

/-- What a call goes on with, by the exception it took and the error its cell held. -/
def answer (around : List Value) (plan : Plan) (ret : Slot) (receiver : Option Value)
    (waiting : Option CallError) (record : Option ErrorRecord) : FrameM Value :=
  match waiting with
  | some e => do
    discardOutputs plan ret 0
    Action.fail e
  | none =>
    match record with
    | some record => do
      discardOutputs plan ret 0
      Action.fail (.native record)
    | none => assemble around plan ret receiver

theorem settle_of_drained {record : Option ErrorRecord} {t : Scratch}
    (drains : drainErrorCell s = .ok record t) :
    settle around plan ret receiver s = answer around plan ret receiver t.memory.pending record
      { t with memory := { t.memory with pending := none } } := by
  have taken : (onMemory Memory.takePending : FrameM (Option CallError)) t =
      .ok t.memory.pending { t with memory := { t.memory with pending := none } } := rfl
  rw [settle, bind_of_ok drains, bind_of_ok taken]
  rfl

/-- Carries an answer out, and releases after it what the call made for itself. -/
def finish (plan : Plan) (x : FrameM Value) : FrameM Value := do
  let outcome : Except CallError Value ← Action.attempt x
  let released : Except CallError Unit ← Action.attempt (releaseAll plan)
  let v ← Action.ofExcept outcome
  Action.ofExcept released
  return v

theorem finish_unwinds {ok : Value → Scratch → Prop} {failed : CallError → Scratch → Prop}
    {halted : Halt → Prop}
    (unwinds : (unwind plan ret).Gives s (fun discarded x => failed (reported e discarded) x)
      (fun _ _ => False) halted) :
    (finish plan (do discardOutputs plan ret 0; Action.fail e)).Gives s ok failed halted := by
  have released (discarded : Except CallError Unit) (t : Scratch)
      (rest : (releaseAll plan).Gives t (fun _ x => failed (reported e discarded) x)
        (fun _ x => failed (reported e discarded) x) halted) :
      (do
        let released : Except CallError Unit ← Action.attempt (releaseAll plan)
        let v ← Action.ofExcept (.error (reported e discarded))
        Action.ofExcept released
        return v : FrameM Value).Gives t ok failed halted := by
    rw [gives_bind, gives_attempt]
    exact rest
  rw [unwind, gives_bind, gives_attempt] at unwinds
  rw [finish, gives_bind, gives_attempt, gives_bind]
  refine unwinds.mono (fun _ t rest => ?_) fun e' t rest => ?_
  · rw [gives_bind, gives_attempt] at rest
    exact released (.ok ()) t rest
  · rw [gives_bind, gives_attempt] at rest
    exact released (.error e') t rest

theorem unwind_ends (plan : Plan) (ret : Slot) (s : Scratch) :
    (unwind plan ret).Gives s (fun _ _ => True) (fun _ _ => False) fun _ => True := by
  have releases (discarded : Except CallError Unit) (t : Scratch) : (do
      let _ : Except CallError Unit ← Action.attempt (releaseAll plan)
      return discarded : FrameM (Except CallError Unit)).Gives t (fun _ _ => True)
        (fun _ _ => False) fun _ => True := by
    rw [gives_bind, gives_attempt]
    exact gives_anyhow _ t
  rw [unwind, gives_bind, gives_attempt]
  exact (gives_anyhow _ s).mono (fun _ t _ => releases _ t) fun _ t _ => releases _ t

theorem unwind_clears (plan : Plan) (ret : Slot) :
    (unwind plan ret).Across fun s t => s.memory.Clears t.memory := by
  have comp : Composes fun s t : Scratch => s.memory.Clears t.memory :=
    ⟨fun _ => Memory.composes_clears.refl _, Memory.composes_clears.trans⟩
  have discards : (discardOutputs plan ret 0).Across fun s t => s.memory.Clears t.memory :=
    (discardOutputs_discards ret 0).weaken fun _ _ d => d.memory
  have releases : (releaseAll plan).Across fun s t => s.memory.Clears t.memory := fun s =>
    (releaseAll_gone s).mono (fun _ _ gone => gone.1.memory) fun _ _ gone => gone.1.memory
  refine discards.attempt.bind comp fun discarded => ?_
  exact releases.attempt.bind comp fun _ => across_pure comp discarded

theorem within_unwind {R : Memory → Memory → Prop} (p : Steady R) (plan : Plan) (ret : Slot) :
    (unwind plan ret).Within R :=
  (within_discardOutputs p plan ret 0).attempt.bind p fun _ =>
    (within_releaseAll p plan).attempt.bind p fun _ => within_pure p _

end FrameM

/-! ### The call -/

namespace Session

variable {w : World σ} {held : List Value} {name symbol : String} {plan : Plan}
  {receiver : Option Value} {address : Option Nat} {arguments : List Value} {slots : List Slot}
  {function : List Slot → Native σ} {s v : Session σ} {f : Frame} {m : Memory} {ret : Slot}
  {e : CallError}

/-- A session in which a native function is entered, with the native state that its slots left. -/
def entering (s : Session σ) (m : Memory) (symbol : String) (slots : List Slot) : Session σ :=
  { s with memory := { m with journal := m.journal.push (.native symbol slots) } }

theorem enter_eq {callback : Nat → List Slot → SessionM σ Slot}
    (defined : w.library symbol = some function) :
    enter w callback symbol slots { s with memory := m } =
      (function slots).run callback (s.entering m symbol slots) := by
  have noted : (onMemory (Memory.record (.native symbol slots)) : SessionM σ Unit)
      { s with memory := m } = .ok () (s.entering m symbol slots) := rfl
  rw [enter, bind_of_ok noted, defined]

/-- A call whose native function returned and whose error cell is emptied goes on with its answer. -/
theorem carryOut_finishes {callback : Nat → List Slot → SessionM σ Slot}
    {ok : Value → Session σ → Prop} {failed : CallError → Session σ → Prop} {halted : Halt → Prop}
    {record : Option ErrorRecord} {t : Scratch}
    (filled : FrameM.nativeSlots w.environment plan address arguments
      ⟨.start plan.parameters.length, s.memory⟩ = .ok slots ⟨f, m⟩)
    (defined : w.library symbol = some function)
    (ran : (function slots).run callback (s.entering m symbol slots) = .ok ret v)
    (drains : FrameM.drainErrorCell ⟨f, v.memory⟩ = .ok record t)
    (finishes : (FrameM.finish plan
        (FrameM.answer (held ++ w.kept v.host) plan ret receiver t.memory.pending record)).Gives
      { t with memory := { t.memory with pending := none } }
      (fun value x => ok value { v with memory := x.memory })
      (fun e x => failed e { v with memory := x.memory }) halted) :
    (carryOut w callback held symbol plan receiver address arguments).Gives s ok failed halted := by
  have entered : enter w callback symbol slots { s with memory := m } = .ok ret v :=
    (enter_eq defined).trans ran
  rw [FrameM.finish, gives_bind, gives_attempt] at finishes
  rw [carryOut, gives_bind, execute, gives_bind, gives_within]
  apply gives_of_ok filled
  rw [gives_bind, gives_attempt]
  apply gives_of_ok entered
  dsimp only
  rw [gives_bind, heldNow, gives_bind, gives_get, gives_pure, gives_within, Action.Gives,
    FrameM.settle_of_drained drains, ← Action.Gives]
  have released (outcome : Except CallError Value) (y : Scratch)
      (rest : (do
        let released : Except CallError Unit ← Action.attempt (FrameM.releaseAll plan)
        let value ← Action.ofExcept outcome
        Action.ofExcept released
        return value : FrameM Value).Gives y
          (fun value x => ok value { v with memory := x.memory })
          (fun e x => failed e { v with memory := x.memory }) halted) :
      (do
        let ended ← within y.frame (FrameM.releaseAll plan)
        let value ← Action.ofExcept outcome
        Action.ofExcept ended.1
        return value : SessionM σ Value).Gives { v with memory := y.memory } ok failed halted := by
    have ends (released : Except CallError Unit) (x : Scratch)
        (rest : (do
          let value ← Action.ofExcept outcome
          Action.ofExcept released
          return value : FrameM Value).Gives x
            (fun value x => ok value { v with memory := x.memory })
            (fun e x => failed e { v with memory := x.memory }) halted) :
        (do
          let value ← Action.ofExcept outcome
          Action.ofExcept released
          return value : SessionM σ Value).Gives { v with memory := x.memory } ok failed halted := by
      cases outcome with
      | error e => exact rest
      | ok value => cases released <;> exact rest
    rw [gives_bind, gives_attempt] at rest
    rw [gives_bind, gives_within]
    exact rest.mono (fun _ x => ends (.ok ()) x) fun e x => ends (.error e) x
  exact finishes.mono (fun value y => released (.ok value) y) fun e y => released (.error e) y

theorem carryOut_unwinds {callback : Nat → List Slot → SessionM σ Slot}
    {ok : Value → Session σ → Prop} {failed : CallError → Session σ → Prop} {halted : Halt → Prop}
    (filled : FrameM.nativeSlots w.environment plan address arguments
      ⟨.start plan.parameters.length, s.memory⟩ = .ok slots ⟨f, m⟩)
    (defined : w.library symbol = some function)
    (ran : (function slots).run callback (s.entering m symbol slots) = .ok ret v)
    (waits : v.memory.pending = some e)
    (valid : f.errorCell.all v.memory.heap.holdsError = true)
    (unwinds : (FrameM.unwind plan ret).Gives (FrameM.drained ⟨f, v.memory⟩)
      (fun discarded x => failed (FrameM.reported e discarded) { v with memory := x.memory })
      (fun _ _ => False) halted) :
    (carryOut w callback held symbol plan receiver address arguments).Gives s ok failed halted := by
  obtain ⟨record, g, drains, -⟩ := FrameM.drainErrorCell_frees (s := ⟨f, v.memory⟩) valid
  rw [FrameM.drained, drains] at unwinds
  refine carryOut_finishes filled defined ran drains ?_
  simp only [FrameM.answer, waits]
  exact FrameM.finish_unwinds unwinds

end Session

/-- A call whose native function returned after an exception reports that exception, the first one if
there were several, and not what the function itself reported. The error of the function is freed and
no exception is left pending. Only an error of releasing the outputs goes before the exception. -/
theorem first_exception_reported {w : World σ} {depth : Nat} {held : List Value} {name : String}
    {receiver : Option Value} {arguments : List Value} {s s₁ u v : Session σ} {b : Binding}
    {plan : Plan} {address : Option Nat} {function : List Slot → Native σ} {slots : List Slot}
    {f : Frame} {m : Memory} {ret : Slot} {e : CallError}
    (bound : Session.bind w name s = .ok b s₁) (prepared : Session.prepare w name b s₁ = .ok plan u)
    (accepted : checkArguments w.environment.repository plan arguments = .ok ())
    (located : Session.receiverAddress plan receiver = .ok address)
    (calm : s.memory.pending = none)
    (filled : FrameM.nativeSlots w.environment plan address arguments
      ⟨.start plan.parameters.length, u.memory⟩ = .ok slots ⟨f, m⟩)
    (defined : w.library b.callable.symbolName = some function)
    (ran : (function slots).run (Session.callback w depth held)
      (u.entering m b.callable.symbolName slots) = .ok ret v)
    (apart : ¬ (u.entering m b.callable.symbolName slots).memory.Entered v.memory)
    (first : (function slots).FirstException (Session.callback w depth held)
      (u.entering m b.callable.symbolName slots) e)
    (valid : f.errorCell.all v.memory.heap.holdsError = true) :
    (Session.callNested w (depth + 1) held name receiver arguments).Gives s (fun _ _ => False)
      (fun reported t =>
        (∃ discarded x, FrameM.unwind plan ret (FrameM.drained ⟨f, v.memory⟩) = .ok discarded x ∧
          reported = FrameM.reported e discarded ∧ t.memory = x.memory) ∧
        t.memory.pending = none ∧
        ∀ cell ∈ f.errorCell, v.memory.heap.ErrorGone t.memory.heap cell)
      fun h => ∃ x, FrameM.unwind plan ret (FrameM.drained ⟨f, v.memory⟩) = .error (.halt h) x := by
  have memory : u.memory = s.memory :=
    (Session.prepare_keeps.of_ok prepared).1.trans (Session.bind_keeps.of_ok bound).1
  have pending := (FrameM.within_nativeSlots steady_pending.toRegistering w.environment plan
    address arguments ⟨.start plan.parameters.length, u.memory⟩).of_ok filled
  have waits : v.memory.pending = some e := by
    refine (Native.pending_iff_first ?_ ?_ ran apart).2 first
    · exact Session.within_callback_unentered steady_pending depth held
    · exact pending.trans (memory ▸ calm)
  rw [Action.Gives, Session.callNested_eq bound prepared accepted located, ← Action.Gives]
  refine Session.carryOut_unwinds filled defined ran waits valid ?_
  obtain ⟨record, g, drains, gone⟩ := FrameM.drainErrorCell_frees (s := ⟨f, v.memory⟩) valid
  have drained : FrameM.drained ⟨f, v.memory⟩ =
      ⟨f, { v.memory with heap := g, pending := none }⟩ := by rw [FrameM.drained, drains]
  have kept := FrameM.within_unwind steady_pending plan ret (FrameM.drained ⟨f, v.memory⟩)
  have clears := FrameM.unwind_clears plan ret (FrameM.drained ⟨f, v.memory⟩)
  have ends := FrameM.unwind_ends plan ret (FrameM.drained ⟨f, v.memory⟩)
  refine (((gives_outcome _ _).both ends).both (kept.both clears)).mono ?_ fun _ _ never => never.1.2
  rintro discarded x ⟨⟨run, -⟩, same, clears⟩
  rw [drained] at same clears
  exact ⟨⟨discarded, x, run, rfl, rfl⟩, same, fun cell listed => (gone cell listed).mono clears.blocks⟩

/-! ### Two such calls -/

/-- Runs two callbacks, then leaves a text behind and an error in the error cell. -/
def throwingFunction (slots : List Slot) : Native Unit :=
  .callback (slots.getD 0 .null) [] fun _ => .callback (slots.getD 1 .null) [] fun _ =>
    .request (.duplicate "text") fun text =>
      .request (.store (slots.getD 2 .null).toNat 8 (.ofNat text)) fun () =>
        .setError (slots.getD 3 .null) ⟨1, 1, "failed"⟩ (.ret .null)

/-- The function `g` runs a callback and returns as a text of the caller what is none. Callbacks
fail. -/
def throwingWorld : World Unit where
  environment :=
    let run : CallableRecord := { namespaceName := "T", name := "Run" }
    let callback (name : String) : ArgumentRecord :=
      { name := name, type := .named "T.Run", scope := some .call }
    let f : CallableRecord :=
      { namespaceName := "T", name := "f", throws := true
        arguments := [callback "first", callback "second",
          { name := "text", type := .utf8, direction := .output, transfer := .everything }] }
    let g : CallableRecord :=
      { namespaceName := "T", name := "g", arguments := [callback "run"], returnType := .utf8
        returnTransfer := .everything }
    let types := Repository.initial.insertEntry
      { namespaceName := "T", name := "Run", kind := .callback, signature := some run }
    ⟨(types.insertFunction f).insertFunction g, .pin⟩
  library
    | "f" => some throwingFunction
    | _ => some fun slots =>
      .callback (slots.getD 0 .null) [] fun _ => .ret (.ofNat 0x10000)
  script
    | ⟨0⟩, _ => .throw (.script "first")
    | _, _ => .throw (.script "second")
  kept _ := []

def throwingArguments : List Value := [.function ⟨0⟩, .function ⟨1⟩]

/-- Both callbacks of a call fail and its function reports an error. The first exception is what the
call fails with. -/
theorem first_exception_reported_of_two :
    ∃ t, Session.callNested throwingWorld 3 throwingArguments "T.f" none throwingArguments
        (.start ()) = .error (.error (.script "first")) t ∧ t.memory.pending = none := by
  obtain ⟨b, s₁, bound, binding⟩ :=
    Action.exists_ok_such (x := Session.bind throwingWorld "T.f") (s := .start ())
      (fun b s₁ => b.callable.symbolName == "f" &&
        (Session.prepare throwingWorld "T.f" b).succeeds s₁ fun plan u =>
          checkArguments throwingWorld.environment.repository plan throwingArguments == .ok () &&
          !plan.isMethod &&
          (FrameM.nativeSlots throwingWorld.environment plan none throwingArguments).succeeds
            ⟨.start plan.parameters.length, u.memory⟩ fun slots x =>
              let entered := u.entering x.memory "f" slots
              (Session.callback throwingWorld 2 throwingArguments (slots.getD 0 .null).toNat []).fails
                entered (fun e _ => e == .script "first") &&
              ((throwingFunction slots).run
                (Session.callback throwingWorld 2 throwingArguments)).succeeds entered fun _ v =>
                  !(v.memory.journal.toList.drop entered.memory.journal.size).any Event.isNative &&
                  x.frame.errorCell.all v.memory.heap.holdsError) (by decide +kernel)
  simp only [Bool.and_eq_true, beq_iff_eq] at binding
  obtain ⟨symbol, prepares⟩ := binding
  obtain ⟨plan, u, prepared, facts⟩ := Action.exists_ok_such _ prepares
  simp only [Bool.and_eq_true, beq_iff_eq, Bool.not_eq_true'] at facts
  obtain ⟨⟨accepted, plain⟩, fills⟩ := facts
  obtain ⟨slots, ⟨f, m⟩, filled, runs⟩ := Action.exists_ok_such _ fills
  simp only [Bool.and_eq_true] at runs
  obtain ⟨throws, returns⟩ := runs
  obtain ⟨e, t, thrown, first⟩ := Action.exists_error_such _ throws
  obtain ⟨ret, v, ran, after⟩ := Action.exists_ok_such _ returns
  simp only [Bool.and_eq_true, beq_iff_eq, Bool.not_eq_true'] at after first
  obtain ⟨alone, valid⟩ := after
  subst first
  have located : Session.receiverAddress plan none = .ok none := by
    simp [Session.receiverAddress, plain]
  have defined : throwingWorld.library b.callable.symbolName = some throwingFunction := by
    rw [symbol]
    rfl
  obtain ⟨e', t', failed, script⟩ :=
    Action.exists_error_such (x := Session.callNested throwingWorld 3 throwingArguments "T.f" none
      throwingArguments) (s := .start ()) (fun e _ => e == .script "first") (by decide +kernel)
  obtain rfl := beq_iff_eq.1 script
  refine ⟨t', failed, ?_⟩
  generalize throwingWorld = w at *
  rw [← symbol] at ran thrown alone
  exact ((first_exception_reported bound prepared accepted located rfl filled defined ran
    (not_entered_since alone) (.failed thrown) valid).of_error failed).2.1

/-- The callback of a call fails and the text that the call returns is none. What the call fails with
is the error of releasing that text. -/
theorem first_exception_hidden :
    ∃ t, Session.callNested throwingWorld 3 [.function ⟨0⟩] "T.g" none [.function ⟨0⟩] (.start ()) =
      .error (.error (.conversion (.heap (.notAllocated 0x10000)))) t := by
  obtain ⟨e, t, failed, fault⟩ :=
    Action.exists_error_such (x := Session.callNested throwingWorld 3 [.function ⟨0⟩] "T.g" none
      [.function ⟨0⟩]) (s := .start ()) (fun e _ => e == .conversion (.heap (.notAllocated 0x10000)))
      (by decide +kernel)
  exact ⟨t, beq_iff_eq.1 fault ▸ failed⟩

end ForeignCall
