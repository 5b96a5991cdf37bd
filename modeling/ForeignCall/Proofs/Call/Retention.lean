import ForeignCall.Proofs.Call.Registration
import ForeignCall.Proofs.Call.Watching

/-!
What trampolines retain.

A trampoline retains what it gave back to native code, to free it when it is released. One that is for
one invocation has left the table by the time its result is lowered, so that it never retains
anything, and the end of its invocation frees nothing. This is so at every moment of a run, since no
address is given out twice.
-/

set_option autoImplicit false

namespace ForeignCall

open ForeignCall.Action
open TrampolineTable (addressOf)

namespace TrampolineTable

variable {t : TrampolineTable} {a : Nat}

/-- The trampolines for one invocation retain nothing. -/
def Frugal (t : TrampolineTable) : Prop :=
  ∀ a trampoline, t.get? a = some trampoline → trampoline.release = .afterFirstInvocation →
    trampoline.retained = []

theorem frugal_empty : empty.Frugal := by
  intro a trampoline found
  simp [get?, empty] at found

theorem Frugal.register (frugal : t.Frugal) (function : FunctionId) (plan : Plan)
    (release : Release) : (t.register function plan release).2.Frugal := by
  intro a trampoline found once
  rw [get?_register] at found
  split at found
  · cases found
    rfl
  · exact frugal a trampoline found once

theorem Frugal.remove (frugal : t.Frugal) (a : Nat) : (t.remove a).Frugal := by
  intro b trampoline found once
  rw [get?_remove] at found
  split at found
  · cases found
  · exact frugal b trampoline found once

theorem Frugal.recordInvocation (frugal : t.Frugal) (a : Nat) : (t.recordInvocation a).Frugal := by
  intro b trampoline found once
  rw [TrampolineTable.recordInvocation, get?_update] at found
  split at found
  · obtain ⟨old, present, rfl⟩ := Option.map_eq_some_iff.1 found
    exact frugal a old present once
  · exact frugal b trampoline found once

theorem Frugal.retain (frugal : t.Frugal) (unspent : t.isSpent a = false) (slot : Slot) :
    (t.retain a slot).Frugal := by
  intro b trampoline found once
  rw [TrampolineTable.retain, get?_update] at found
  split at found
  · obtain ⟨old, present, rfl⟩ := Option.map_eq_some_iff.1 found
    have spent : t.isSpent a = true := isSpent_iff.2 (by rw [releaseAt_of_get? present, ← once])
    cases unspent.symm.trans spent
  · exact frugal b trampoline found once

end TrampolineTable

/-- However `t` came from `m`, no address will be given out again, and if trampolines for one invocation
retained nothing, they still do not. -/
structure Memory.Spares (m t : Memory) : Prop where
  next_le : m.trampolines.next ≤ t.trampolines.next
  frugal : m.trampolines.Frugal → t.trampolines.Frugal

theorem Memory.Spares.of_same {m t : Memory} (same : t.trampolines = m.trampolines) : m.Spares t :=
  ⟨Nat.le_of_eq (by rw [same]), fun frugal => same ▸ frugal⟩

theorem Memory.releasing_spares : Releasing Memory.Spares where
  refl _ := .of_same rfl
  trans first second :=
    ⟨Nat.le_trans first.next_le second.next_le, second.frugal ∘ first.frugal⟩
  heap _ _ := .of_same rfl
  wrappers _ _ _ := .of_same rfl
  registered _ function plan release := ⟨Nat.le_succ _, fun frugal => frugal.register function plan release⟩
  released _ address := ⟨Nat.le_refl _, fun frugal => frugal.remove address⟩
  counted _ address :=
    ⟨Nat.le_of_eq (TrampolineTable.next_update _).symm, fun frugal => frugal.recordInvocation address⟩
  native _ _ _ := .of_same rfl
  script _ _ _ := .of_same rfl
  note _ _ := .of_same rfl

section Invocation

variable {address : Nat} {m : Memory}

/-- Once an invocation ended, its address has no trampoline for one invocation. -/
theorem endInvocation_unspent (address : Nat) (m : Memory) :
    (endInvocation address).Gives m (fun _ t => t.trampolines.isSpent address = false)
      (fun _ _ => True) fun _ => True := by
  refine (endInvocation_loses address m).mono (fun _ t loses => ?_) fun _ _ _ => trivial
  have left : t.trampolines.releaseAt address =
      if address ∈ m.trampolines.spent address then none else m.trampolines.releaseAt address :=
    loses.table.releaseAt_eq address
  rw [Bool.eq_false_iff, Ne, TrampolineTable.isSpent_iff]
  intro once
  rw [once] at left
  split at left
  · cases left
  · rename_i other
    exact other (by rw [TrampolineTable.spent, if_pos left.symm]; exact List.mem_singleton_self _)

/-- What was lowered as the result of an invocation is retained by no trampoline for one invocation. -/
theorem lowerResult_spares (env : Environment) (plan : Plan) {n : Nat} (v : Value)
    (given : n < m.trampolines.next) (unspent : m.trampolines.isSpent (addressOf n) = false) :
    (lowerResult env plan (addressOf n) v).Gives m (fun _ t => m.Spares t) (fun _ t => m.Spares t)
      fun _ => True := by
  have releasing := Memory.releasing_spares
  unfold lowerResult
  split
  · exact releasing.refl m
  · rw [gives_bind]
    refine ((within_lower releasing.toRegistering env plan.returnType v plan.mayReturnNull m).both
      (within_lower Memory.registering_registers env plan.returnType v plan.mayReturnNull m)).mono
      (fun slot t step => ?_) fun _ _ step => step.1
    obtain ⟨spares, registers⟩ := step
    have still : t.trampolines.isSpent (addressOf n) = false := by
      rw [Bool.eq_false_iff, Ne, TrampolineTable.isSpent_iff] at unspent ⊢
      exact fun spent => unspent ((registers.table.releaseAt_eq n given).symm.trans spent)
    split
    · rw [gives_bind, gives_modify]
      have retained : t.Spares { t with trampolines := t.trampolines.retain (addressOf n) slot } :=
        ⟨Nat.le_of_eq (TrampolineTable.next_update _).symm, fun frugal => frugal.retain still slot⟩
      exact releasing.trans spares retained
    · exact spares

end Invocation

namespace Watched

variable {σ α β : Type} {s : Session σ}

/-- However the action ends, trampolines for one invocation retain nothing if they did not when it began,
then and at every moment that is seen of it. -/
structure Thrifty (x : Watched σ α) (s : Session σ) : Prop where
  ends : x.run.Gives s (fun _ t => s.memory.Spares t.memory) (fun _ t => s.memory.Spares t.memory)
    fun _ => True
  seen : s.memory.trampolines.Frugal → ∀ m ∈ x.seen s, m.before.memory.trampolines.Frugal

theorem thrifty_silent {x : SessionM σ α} (spares : x.Within Memory.Spares) (s : Session σ) :
    (silent x).Thrifty s := ⟨spares s, fun _ => List.forall_mem_nil _⟩

theorem Thrifty.bind {x : Watched σ α} {f : α → Watched σ β} (first : x.Thrifty s)
    (rest : ∀ a t, x.run s = .ok a t → (f a).Thrifty t) : (x >>= f).Thrifty s := by
  have trans {m t u : Memory} (before : m.Spares t) (after : t.Spares u) : m.Spares u :=
    Memory.releasing_spares.trans before after
  refine ⟨?_, fun frugal m listed => ?_⟩
  · rw [run_bind, gives_bind]
    refine (first.ends.both (gives_outcome x.run s)).mono (fun a t step => ?_) fun _ _ step => step.1
    exact (rest a t step.2).ends.mono (fun _ _ => trans step.1) fun _ _ => trans step.1
  · cases run : x.run s with
    | error e t =>
      rw [seen_bind_of_error run] at listed
      exact first.seen frugal m listed
    | ok a t =>
      rw [seen_bind_of_ok run, List.mem_append] at listed
      rcases listed with earlier | later
      · exact first.seen frugal m earlier
      · exact (rest a t run).seen ((first.ends.of_ok run).frugal frugal) m later

theorem Thrifty.attempt {x : Watched σ α} (thrifty : x.Thrifty s) : (attempt x).Thrifty s := by
  refine ⟨?_, thrifty.seen⟩
  rw [run_attempt, gives_attempt]
  exact thrifty.ends

theorem thrifty_marked {x : SessionM σ α} {mark : Mark}
    (ends : x.Gives s (fun _ t => s.memory.Spares t.memory) (fun _ t => s.memory.Spares t.memory)
      fun _ => True) : (marked mark x).Thrifty s := by
  refine ⟨ends, fun frugal m listed => ?_⟩
  unfold marked at listed
  dsimp only at listed
  split at listed
  · cases listed
  · rw [List.mem_singleton.1 listed]
    exact frugal
  · rw [List.mem_singleton.1 listed]
    exact frugal

/-- The action is thrifty from every state. -/
def Spares (x : Watched σ α) : Prop := ∀ s, x.Thrifty s

theorem closed_spares : Closed Memory.Spares fun α x => Spares (σ := σ) (α := α) x where
  quiet := Memory.releasing_spares.toQuiet
  pending _ _ := .of_same rfl
  entered _ _ _ := .of_same rfl
  noted _ _ := .of_same rfl
  silent spares := thrifty_silent spares
  attempt spares s := (spares s).attempt
  bind first rest s := (first s).bind fun a t _ => rest a t

variable {w : World σ}

theorem thrifty_callTrampoline {runScript : List Value → Script σ → Watched σ Value}
    (runs : ∀ held s, (runScript held s).Spares) (held : List Value) {address : Nat}
    (slots : List Slot) {t : Trampoline} (found : s.memory.trampolines.get? address = some t) :
    (callTrampoline w runScript held address t slots).Thrifty s := by
  have releasing := Memory.releasing_spares
  have quiet := releasing.toQuiet
  obtain ⟨n, given, rfl⟩ := TrampolineTable.exists_number found
  have heldNow := thrifty_silent (Session.within_heldNow quiet w held) s
  refine heldNow.bind fun around u looked => ?_
  have lifting := thrifty_silent (σ := σ) (Session.within_convert
    (within_liftArguments quiet t.plan slots around t.plan.parameters.zipIdx)) u
  refine lifting.bind fun arguments v lifted => ?_
  have entering : (marked (.entered (addressOf n)) (Session.onMemory
      (Memory.record (.script t.function arguments))) : Watched σ Unit).Thrifty v :=
    thrifty_marked (Session.within_onMemory (within_record fun m => releasing.script m _ _) v)
  refine entering.bind fun _ x entered => ?_
  have running := ((runs (arguments ++ held) (w.script t.function arguments)) x).attempt
  refine running.bind fun result y ran => ?_
  have ends := Session.within_convert (σ := σ) (within_endInvocation releasing (addressOf n))
  refine (thrifty_marked (ends y)).bind fun _ z ended => ?_
  have unspent : z.memory.trampolines.isSpent (addressOf n) = false := by
    have gives : (Session.convert (endInvocation (addressOf n)) : SessionM σ Unit).Gives y
        (fun _ t => t.memory.trampolines.isSpent (addressOf n) = false) (fun _ _ => True)
        fun _ => True := by
      rw [Session.convert, Session.gives_onMemory, gives_mapError]
      exact endInvocation_unspent (addressOf n) y.memory
    exact gives.of_ok ended
  have later : s.memory.Spares z.memory :=
    quiet.trans (heldNow.ends.of_ok looked) (quiet.trans (lifting.ends.of_ok lifted)
      (quiet.trans (entering.ends.of_ok entered) (quiet.trans (running.ends.of_ok ran)
        ((ends y).of_ok ended))))
  refine (thrifty_silent (within_ofExcept quiet result) z).bind fun value z' taken => ?_
  obtain rfl : z = z' := by
    cases result <;> cases taken
    rfl
  refine thrifty_marked ?_
  rw [Session.convert, Session.gives_onMemory, gives_mapError]
  exact lowerResult_spares w.environment t.plan value (Nat.lt_of_lt_of_le given later.next_le) unspent

theorem spares_enterCallback {runScript : List Value → Script σ → Watched σ Value}
    (runs : ∀ held s, (runScript held s).Spares) (held : List Value) (address : Nat)
    (slots : List Slot) : (enterCallback w runScript held address slots).Spares := by
  have releasing := Memory.releasing_spares
  have quiet := releasing.toQuiet
  refine closed_spares.bind (fun s => thrifty_marked (quiet.refl s.memory)) fun _ => ?_
  split
  · refine closed_spares.bind (fun s => thrifty_marked ?_) fun _ => closed_spares.pure _
    exact Session.within_convert (within_releaseTrampoline releasing _) s
  · intro s
    refine (thrifty_silent (within_get quiet) s).bind fun u v read => ?_
    cases read
    split
    · exact closed_spares.fail _ s
    · rename_i t found
      exact thrifty_callTrampoline runs held slots found

theorem spares_lowering (plan : Plan) (address : Option Nat) (arguments : List Value) :
    (lowering w plan address arguments).Spares := by
  intro s
  refine ⟨?_, fun frugal m listed => ?_⟩
  · exact Session.within_frame
      (FrameM.within_nativeSlots Memory.releasing_spares.toRegistering _ _ _ _) s
  · unfold lowering at listed
    dsimp only at listed
    split at listed
    · rw [List.mem_singleton.1 listed]
      exact frugal
    · cases listed

theorem spares_invoke {callback : Nat → List Slot → Watched σ Slot}
    (calls : ∀ address slots, (callback address slots).Spares) (held : List Value) (name : String)
    (receiver : Option Value) (arguments : List Value) :
    (invoke w callback held name receiver arguments).Spares := by
  have closed := closed_spares (σ := σ)
  have releasing := Memory.releasing_spares
  have quiet := releasing.toQuiet
  refine closed.bind (closed.silent (Session.within_bind quiet w name)) fun b => ?_
  refine closed.bind (closed.silent (Session.within_prepare quiet w name b)) fun plan => ?_
  refine closed.bind (closed.silent (within_ofExcept quiet _)) fun _ => ?_
  refine closed.bind (closed.silent (within_ofExcept quiet _)) fun address => ?_
  refine closed.bind (spares_lowering plan address arguments) fun lowered => ?_
  refine closed.bind (closed.carry calls held _ plan receiver lowered.2 lowered.1) fun outcome => ?_
  refine closed.bind (fun s => thrifty_marked ?_) fun released => ?_
  · exact Session.within_frame (FrameM.within_releaseAll releasing plan) s
  refine closed.bind (closed.silent (within_ofExcept quiet _)) fun v => ?_
  exact closed.bind (closed.silent (within_ofExcept quiet _)) fun _ => closed.pure v

theorem spares_play (depth : Nat) (activities : List (Activity σ)) : (play w depth activities).Spares :=
  closed_spares.play (fun _ runs => spares_enterCallback runs) (fun _ calls => spares_invoke calls)
    depth activities

end Watched

namespace Session

variable {σ : Type} {w : World σ} {s : Session σ}

/-- A session as it is at a moment of some run that began with nothing. -/
def Reached (w : World σ) (s : Session σ) : Prop :=
  ∃ (host : σ) (depth : Nat) (activities : List (Activity σ)),
    ∃ m ∈ (Watched.play w depth activities).seen (.start host), m.before = s

theorem Reached.frugal (reached : s.Reached w) : s.memory.trampolines.Frugal := by
  obtain ⟨host, depth, activities, m, listed, rfl⟩ := reached
  exact (Watched.spares_play depth activities (.start host)).seen TrampolineTable.frugal_empty m listed

/-- Whatever a script function does, trampolines for one invocation retain nothing after it. -/
theorem runScript_spares (w : World σ) (depth : Nat) (held : List Value) (script : Script σ) :
    (runScript w depth held script).Within Memory.Spares := by
  have closed := Watched.closed_spares (σ := σ)
  have calls := closed.callNested (w := w) (fun _ runs => Watched.spares_enterCallback runs)
    (fun _ calls => Watched.spares_invoke calls) depth
  have same : (Watched.script (Watched.callNested w depth) held script).run =
      runScript w depth held script := by
    simp only [Watched.run_script, Watched.run_callNested, runScript]
  exact same ▸ fun s => (closed.script calls held script s).ends

end Session

end ForeignCall
