import ForeignCall.Proofs.Call.Registration
import ForeignCall.Proofs.Call.Watching

/-!
What is seen of a run, moment by moment.

Between two moments the table of trampolines stays as it is, and each moment does to it what its mark
says. A script function returns after it was entered, and a call ends after its arguments were
lowered. That is shown of each action of the interpreter, and by induction on programs and on the
depth of nesting of everything that is run.
-/

set_option autoImplicit false

namespace ForeignCall

open ForeignCall.Action
open TrampolineTable (addressOf)

variable {σ α β : Type}

namespace Moment

/-- What a moment does to the table, by its mark. -/
def Fair (m : Moment σ) : Prop :=
  match m.mark with
  | .lowered own => m.before.memory.Registers m.after.memory ∧ ∀ a ∈ own,
      (∃ n, m.before.memory.trampolines.next ≤ n ∧ a = addressOf n) ∧
        m.after.memory.trampolines.releaseAt a = some .afterCall
  | .ended own => m.before.memory.Loses own m.after.memory
  | .invoked _ => m.before.memory.Still m.after.memory
  | .entered a => m.before.memory.Still m.after.memory ∧
      (m.before.memory.trampolines.releaseAt a).isSome
  | .returned a => m.before.memory.Loses (m.before.memory.trampolines.spent a) m.after.memory
  | .answered _ => m.before.memory.Registers m.after.memory
  | .destroyed token => m.before.memory.Loses [token] m.after.memory

theorem Fair.advances {m : Moment σ} (fair : m.Fair) :
    m.before.memory.Advances m.after.memory := by
  unfold Fair at fair
  split at fair
  · exact fair.1.advances
  · exact fair.advances
  · exact fair.advances
  · exact fair.1.advances
  · exact fair.advances
  · exact fair.advances
  · exact fair.advances

end Moment

/-- What has to have happened before a moment: a script function returns after it was entered, and a
call ends after its arguments were lowered. -/
def Mark.Follows (known : List Mark) : Mark → Prop
  | .returned a => .entered a ∈ known
  | .ended own => .lowered own ∈ known
  | _ => True

theorem Mark.Follows.weaken {known more : List Mark} {mark : Mark} (follows : mark.Follows known)
    (subset : known ⊆ more) : mark.Follows more := by
  unfold Follows at *
  split at follows
  · exact subset follows
  · exact subset follows
  · trivial

/-- The moments lead from one state to another, and between them the table stays as it is. -/
inductive Leads : List Mark → Session σ → List (Moment σ) → Session σ → Prop
  | done {known : List Mark} {s t : Session σ} (still : s.memory.Still t.memory) : Leads known s [] t
  | step {known : List Mark} {s t : Session σ} {m : Moment σ} {rest : List (Moment σ)}
      (still : s.memory.Still m.before.memory) (fair : m.Fair) (follows : m.mark.Follows known)
      (later : Leads (m.mark :: known) m.after rest t) : Leads known s (m :: rest) t

namespace Leads

variable {known more : List Mark} {s t u : Session σ} {ms rest : List (Moment σ)}

theorem weaken (leads : Leads known s ms t) (subset : known ⊆ more) : Leads more s ms t := by
  induction leads generalizing more with
  | done still => exact .done still
  | step still fair follows _ ih =>
    exact .step still fair (follows.weaken subset) (ih (List.cons_subset_cons _ subset))

theorem trans (first : Leads known s ms t) (second : Leads (ms.map Moment.mark ++ known) t rest u) :
    Leads known s (ms ++ rest) u := by
  induction first with
  | done still =>
    cases second with
    | done still' => exact .done (Memory.quiet_still.trans still still')
    | step still' fair follows later =>
      exact .step (Memory.quiet_still.trans still still') fair follows later
  | @step known s t m ms still fair follows _ ih =>
    refine .step still fair follows (ih (second.weaken ?_))
    simp only [List.map_cons, List.cons_append]
    intro mark listed
    simp only [List.mem_cons, List.mem_append] at *
    tauto

/-- What happened up to a moment, the moment itself, and what happened after it. -/
theorem split {pre post : List (Moment σ)} {m : Moment σ}
    (leads : Leads known s (pre ++ m :: post) t) :
    Leads known s pre m.before ∧ m.Fair ∧ m.mark.Follows (pre.map Moment.mark ++ known) ∧
      Leads (m.mark :: (pre.map Moment.mark ++ known)) m.after post t := by
  induction pre generalizing known s with
  | nil =>
    cases leads with
    | step still fair follows later => exact ⟨.done still, fair, follows, later⟩
  | cons first pre ih =>
    cases leads with
    | step still fair follows later =>
      obtain ⟨before, fair', follows', after⟩ := ih later
      have same : (pre.map Moment.mark ++ first.mark :: known) ⊆
          (first :: pre).map Moment.mark ++ known := by
        intro mark listed
        simp only [List.map_cons, List.cons_append, List.mem_cons, List.mem_append] at *
        tauto
      exact ⟨.step still fair follows before, fair', follows'.weaken same,
        after.weaken (List.cons_subset_cons _ same)⟩

theorem advances (leads : Leads known s ms t) : s.memory.Advances t.memory := by
  induction leads with
  | done still => exact still.advances
  | step still fair _ _ ih => exact still.advances.trans (fair.advances.trans ih)

end Leads

namespace Watched

/-- However the action ends, what is seen of it leads to where it ended. -/
def Sound (known : List Mark) (x : Watched σ α) (s : Session σ) : Prop :=
  x.run.Gives s (fun _ t => Leads known s (x.seen s) t) (fun _ t => Leads known s (x.seen s) t)
    fun _ => ∃ t, Leads known s (x.seen s) t

variable {known : List Mark} {s : Session σ}

theorem sound_silent {x : SessionM σ α} (still : x.Within Memory.Still) : (silent x).Sound known s :=
  ((still s).mono (fun _ _ step => .done step) fun _ _ step => .done step).mono_halted
    fun _ _ => ⟨s, .done (Memory.quiet_still.refl _)⟩

theorem Sound.bind {x : Watched σ α} {f : α → Watched σ β} (first : x.Sound known s)
    (rest : ∀ a t, x.run s = .ok a t → (f a).Sound ((x.seen s).map Moment.mark ++ known) t) :
    (x >>= f).Sound known s := by
  rw [Sound, run_bind, gives_bind]
  have ended := first
  rw [Sound] at first
  refine ((gives_outcome x.run s).both first).mono ?_ ?_ |>.mono_halted ?_
  · rintro a t ⟨run, leads⟩
    have later := rest a t run
    rw [seen_bind_of_ok run]
    refine (later.mono (fun _ _ => leads.trans) fun _ _ => leads.trans).mono_halted ?_
    rintro _ ⟨u, onward⟩
    exact ⟨u, leads.trans onward⟩
  · rintro e t ⟨run, leads⟩
    rwa [seen_bind_of_error run]
  · rintro h ⟨t, run⟩
    rw [seen_bind_of_error run]
    unfold Sound Gives at ended
    rwa [run] at ended

theorem Sound.attempt {x : Watched σ α} (sound : x.Sound known s) : (attempt x).Sound known s := by
  rw [Sound, run_attempt, gives_attempt]
  exact sound

theorem sound_pure (a : α) : (pure a : Watched σ α).Sound known s :=
  .done (Memory.quiet_still.refl s.memory)

theorem sound_marked {x : SessionM σ α} {mark : Mark} (follows : mark.Follows known)
    (fair : x.Gives s (fun _ t => Moment.Fair ⟨mark, s, t⟩) (fun _ t => Moment.Fair ⟨mark, s, t⟩)
      fun _ => True) : (marked mark x).Sound known s := by
  have quiet := Memory.quiet_still
  have seen (t : Session σ) (fair : Moment.Fair ⟨mark, s, t⟩) : Leads known s [⟨mark, s, t⟩] t :=
    .step (quiet.refl _) fair follows (.done (quiet.refl _))
  unfold Sound Gives
  unfold Gives at fair
  rcases run : x s with ⟨a, t⟩ | ⟨_ | _, t⟩ <;> simp only [run, marked] at fair ⊢
  · exact seen t fair
  · exact seen t fair
  · exact ⟨s, .done (quiet.refl _)⟩

/-! ### Programs -/

/-- The action is sound from every state and whatever was seen before. -/
def Safe (x : Watched σ α) : Prop := ∀ known s, x.Sound known s

theorem Safe.bind {x : Watched σ α} {f : α → Watched σ β} (first : x.Safe)
    (rest : ∀ a, (f a).Safe) : (x >>= f).Safe := fun known s =>
  (first known s).bind fun a t _ => rest a _ t

theorem Safe.attempt {x : Watched σ α} (safe : x.Safe) : (attempt x).Safe := fun known s =>
  (safe known s).attempt

theorem safe_pure (a : α) : (pure a : Watched σ α).Safe := fun _ _ => sound_pure a

theorem safe_silent {x : SessionM σ α} (still : x.Within Memory.Still) : (silent x).Safe :=
  fun _ _ => sound_silent still

section Programs

theorem closed_safe : Closed Memory.Still fun α x => Safe (σ := σ) (α := α) x where
  quiet := Memory.quiet_still
  pending m _ := ⟨.refl m.trampolines, rfl⟩
  entered m _ _ := .record m (by rintro _ ⟨⟩)
  noted m _ := .record m (by rintro _ ⟨⟩)
  silent := safe_silent
  attempt := Safe.attempt
  bind := Safe.bind

variable {w : World σ}

theorem sound_callTrampoline {runScript : List Value → Script σ → Watched σ Value}
    (runs : ∀ held s, (runScript held s).Safe) (held : List Value) {address : Nat}
    (slots : List Slot) {known : List Mark} {s : Session σ} {t : Trampoline}
    (found : s.memory.trampolines.get? address = some t) :
    (callTrampoline w runScript held address t slots).Sound known s := by
  have quiet := Memory.quiet_still
  have heldNow := Session.within_heldNow quiet w held
  refine (sound_silent heldNow).bind fun around u looked => ?_
  have lifting := Session.within_convert (σ := σ)
    (within_liftArguments quiet t.plan slots around t.plan.parameters.zipIdx)
  refine (sound_silent lifting).bind fun arguments v lifted => ?_
  have still : s.memory.Still v.memory :=
    quiet.trans ((heldNow s).of_ok looked) ((lifting u).of_ok lifted)
  have present : (v.memory.trampolines.releaseAt address).isSome := by
    rw [still.table.releaseAt_eq, TrampolineTable.releaseAt_of_get? found]
    rfl
  refine (sound_marked (by trivial) ?_).bind fun _ x entered => ?_
  · exact ⟨.record v.memory (by rintro _ ⟨⟩), present⟩
  have seen : .entered address ∈ (((marked (.entered address) (Session.onMemory (Memory.record
      (.script t.function arguments)))).seen v).map Moment.mark : List Mark) := by
    rw [run_marked] at entered
    simp [marked, entered]
  refine (runs _ _).attempt _ _ |>.bind fun result y _ => ?_
  refine (sound_marked ?_ ?_).bind fun _ z _ => ?_
  · exact List.mem_append_right _ (List.mem_append_left _ seen)
  · exact Session.within_convert (endInvocation_loses address) y
  refine (sound_silent (within_ofExcept quiet result)).bind fun value z _ => ?_
  have retained (m : Memory) (address : Nat) (slot : Slot) :
      m.Registers { m with trampolines := m.trampolines.retain address slot } :=
    Memory.Still.registers ⟨.update (by intro; rfl), rfl⟩
  exact sound_marked (by trivial) (Session.within_convert
    (within_lowerResult Memory.registering_registers retained _ _ _ _) z)

theorem safe_enterCallback {runScript : List Value → Script σ → Watched σ Value}
    (runs : ∀ held s, (runScript held s).Safe) (held : List Value) (address : Nat)
    (slots : List Slot) : (enterCallback w runScript held address slots).Safe := by
  have quiet := Memory.quiet_still
  refine Safe.bind (fun _ s => sound_marked (by trivial) (quiet.refl s.memory)) fun _ => ?_
  split
  · refine Safe.bind (fun _ s => sound_marked (by trivial) ?_) fun _ => safe_pure _
    exact Session.within_convert (releaseTrampoline_loses _) s
  · intro known s
    refine (sound_silent (within_get quiet)).bind fun u v read => ?_
    cases read
    split
    · exact sound_silent (within_fail quiet _)
    · rename_i t found
      exact sound_callTrampoline runs held slots found

/-! ### Calls -/

theorem seen_lowering (plan : Plan) (address : Option Nat) (arguments : List Value)
    (s : Session σ) : (lowering w plan address arguments).seen s =
      match (lowering w plan address arguments).run s with
      | .ok lowered t => [⟨.lowered lowered.2.callScoped, s, t⟩]
      | .error _ _ => [] := rfl

theorem safe_lowering (plan : Plan) (address : Option Nat) (arguments : List Value) :
    (lowering w plan address arguments).Safe := by
  intro known s
  have quiet := Memory.quiet_still
  have lowers : (lowering w plan address arguments).run.Gives s
      (fun lowered t => Moment.Fair ⟨.lowered lowered.2.callScoped, s, t⟩) (fun _ _ => False)
      fun _ => True := by
    rw [lowering, Session.gives_within]
    have fresh (t : Scratch) (step : Scratch.Registers ⟨.start plan.parameters.length, s.memory⟩ t) :
        Moment.Fair ⟨.lowered t.frame.callScoped, s, { s with memory := t.memory }⟩ :=
      ⟨step.memory, fun a listed => (step.own a listed).resolve_left List.not_mem_nil⟩
    exact (FrameM.registers_nativeSlots plan address arguments _).mono
      (fun _ t step => fresh t step) fun _ t step => fresh t step
  refine ((gives_outcome _ s).both lowers).mono ?_ (fun _ _ never => never.2.elim) |>.mono_halted ?_
  · rintro lowered t ⟨run, fair⟩
    rw [seen_lowering, run]
    exact .step (quiet.refl _) fair trivial (.done (quiet.refl _))
  · rintro h ⟨t, run⟩
    rw [seen_lowering, run]
    exact ⟨s, .done (quiet.refl _)⟩

/-- Until a call ends its frame lists the same trampolines. -/
theorem carry_callScoped {callback : Nat → List Slot → Watched σ Slot} {held : List Value}
    {symbol : String} {plan : Plan} {receiver : Option Value} {frame : Frame}
    (typed : frame.Typed plan) (lowered : Except CallError (List Slot)) (s : Session σ) :
    (carry w callback held symbol plan receiver frame lowered).run.Gives s
      (fun outcome _ => outcome.2.callScoped = frame.callScoped) (fun _ _ => True)
      fun _ => True := by
  cases lowered with
  | error e => rfl
  | ok slots =>
    rw [carry, run_bind, gives_bind, run_attempt, gives_attempt]
    refine (gives_anyhow _ s).mono (fun ret t _ => ?_) fun _ _ _ => rfl
    rw [run_bind, gives_bind, run_silent]
    refine (gives_anyhow _ t).mono (fun around u _ => ?_) fun _ _ _ => trivial
    rw [run_silent, Session.gives_within]
    exact (FrameM.settle_settles (s := ⟨frame, u.memory⟩) typed).mono
      (fun _ _ settles => settles.2.callScoped) fun _ _ settles => settles.callScoped

theorem safe_invoke {callback : Nat → List Slot → Watched σ Slot}
    (calls : ∀ address slots, (callback address slots).Safe) (held : List Value) (name : String)
    (receiver : Option Value) (arguments : List Value) :
    (invoke w callback held name receiver arguments).Safe := by
  have quiet := Memory.quiet_still
  refine (safe_silent (Session.within_bind quiet w name)).bind fun b => ?_
  refine (safe_silent (Session.within_prepare quiet w name b)).bind fun plan => ?_
  refine (safe_silent (within_ofExcept quiet _)).bind fun _ => ?_
  refine (safe_silent (within_ofExcept quiet _)).bind fun address known s => ?_
  refine (safe_lowering plan address arguments known s).bind fun lowered t run => ?_
  have formed : lowered.2.Formed plan := by
    have gives : (lowering w plan address arguments).run.Gives s
        (fun lowered _ => lowered.2.Formed plan) (fun _ _ => True) fun _ => True := by
      rw [lowering, Session.gives_within]
      exact FrameM.nativeSlots_formed w.environment plan address arguments s.memory
    exact gives.of_ok run
  refine (closed_safe.carry calls held _ plan receiver lowered.2 lowered.1 _ t).bind fun outcome u ran => ?_
  have own : outcome.2.callScoped = lowered.2.callScoped :=
    (carry_callScoped formed.typed lowered.1 t).of_ok ran
  refine (sound_marked ?_ ?_).bind fun released x _ => ?_
  · rw [seen_lowering, run]
    exact List.mem_append_right _ List.mem_cons_self
  · rw [Session.gives_within]
    have loses := FrameM.releaseAll_loses plan ⟨outcome.2, u.memory⟩
    rw [own] at loses
    exact loses
  exact (safe_silent (within_ofExcept quiet outcome.1)).bind
    (fun v => (safe_silent (within_ofExcept quiet released.1)).bind fun _ => safe_pure v) _ x

theorem safe_play (depth : Nat) (activities : List (Activity σ)) : (play w depth activities).Safe :=
  closed_safe.play (fun _ runs => safe_enterCallback runs) (fun _ calls => safe_invoke calls) depth
    activities

end Programs

end Watched

end ForeignCall
