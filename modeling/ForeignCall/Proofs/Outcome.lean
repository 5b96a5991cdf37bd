import ForeignCall.Memory
import Mathlib.Tactic.Common

/-!
Outcomes of actions.

`x.Gives s ok failed` says how `x` ends when it starts in `s`: with a value and a state in `ok`, with
an error and a state in `failed`, or halted because no address was left. It is never endless, unless
`halted` lets it be. The lemmas take it apart along the way an action is built, so that an outcome is
computed step by step. `x.Across R` says that a relation holds between the first state and the last
one, however `x` ends.
-/

set_option autoImplicit false

namespace ForeignCall

namespace Action

variable {ε ε' σ α β : Type}

def Gives (x : Action ε σ α) (s : σ) (ok : α → σ → Prop) (failed : ε → σ → Prop)
    (halted : Halt → Prop := fun h => h = .exhausted) : Prop :=
  match x s with
  | .ok a t => ok a t
  | .error (.error e) t => failed e t
  | .error (.halt h) _ => halted h

variable {s t : σ} {x : Action ε σ α} {ok ok' : α → σ → Prop} {failed failed' : ε → σ → Prop}
  {halted : Halt → Prop}

theorem Gives.of_ok {a : α} (h : x.Gives s ok failed halted) (run : x s = .ok a t) : ok a t := by
  simpa only [Gives, run] using h

theorem Gives.of_error {e : ε} (h : x.Gives s ok failed halted) (run : x s = .error (.error e) t) :
    failed e t := by
  simpa only [Gives, run] using h

theorem Gives.mono (h : x.Gives s ok failed halted) (weaker : ∀ a t, ok a t → ok' a t)
    (weaker' : ∀ e t, failed e t → failed' e t) : x.Gives s ok' failed' halted := by
  unfold Gives at *
  split <;> simp_all

theorem Gives.both {halted' : Halt → Prop} (h : x.Gives s ok failed halted)
    (h' : x.Gives s ok' failed' halted') :
    x.Gives s (fun a t => ok a t ∧ ok' a t) (fun e t => failed e t ∧ failed' e t) halted := by
  unfold Gives at *
  split <;> simp_all

theorem Gives.mono_halted {halted' : Halt → Prop} (h : x.Gives s ok failed halted)
    (weaker : ∀ a, halted a → halted' a) : x.Gives s ok failed halted' := by
  unfold Gives at *
  split <;> simp_all

theorem Gives.partly (h : x.Gives s ok failed) : x.Gives s ok failed fun _ => True :=
  h.mono_halted fun _ _ => trivial

theorem gives_anyhow (x : Action ε σ α) (s : σ) :
    x.Gives s (fun _ _ => True) (fun _ _ => True) fun _ => True := by
  unfold Gives
  split <;> trivial

theorem gives_self (x : Action ε σ α) (s : σ) :
    x.Gives s (fun a t => x s = .ok a t) (fun e t => x s = .error (.error e) t) fun _ => True := by
  unfold Gives
  split <;> trivial

theorem Gives.exists_ok (h : x.Gives s ok (fun _ _ => False) fun _ => False) :
    ∃ a t, x s = .ok a t ∧ ok a t := by
  unfold Gives at h
  split at h
  · exact ⟨_, _, by assumption, h⟩
  · exact h.elim
  · exact h.elim

/-- The ways in which an action can end, as its outcome says. -/
theorem gives_outcome (x : Action ε σ α) (s : σ) :
    x.Gives s (fun a t => x s = .ok a t) (fun e t => x s = .error (.error e) t)
      fun h => ∃ t, x s = .error (.halt h) t := by
  unfold Gives
  split
  · assumption
  · assumption
  · exact ⟨_, by assumption⟩

theorem gives_of_ok {a : α} (run : x s = .ok a t) (h : ok a t) :
    x.Gives s ok failed halted := by
  simpa only [Gives, run] using h

@[simp] theorem gives_pure (a : α) : (pure a : Action ε σ α).Gives s ok failed halted ↔ ok a s :=
  Iff.rfl

@[simp] theorem gives_fail (e : ε) : (fail e : Action ε σ α).Gives s ok failed halted ↔ failed e s :=
  Iff.rfl

@[simp] theorem gives_bind {f : α → Action ε σ β} {ok : β → σ → Prop} :
    (x >>= f).Gives s ok failed halted ↔
      x.Gives s (fun a t => (f a).Gives t ok failed halted) failed halted := by
  simp only [Gives, bind, EStateM.bind]
  rcases x s with _ | ⟨_ | _, _⟩ <;> rfl

@[simp] theorem gives_map {f : α → β} {ok : β → σ → Prop} :
    (f <$> x).Gives s ok failed halted ↔ x.Gives s (fun a t => ok (f a) t) failed halted := by
  simp only [Gives, Functor.map, EStateM.map]
  rcases x s with _ | ⟨_ | _, _⟩ <;> rfl

@[simp] theorem gives_attempt {ok : Except ε α → σ → Prop} {failed : ε' → σ → Prop} :
    (attempt x : Action ε' σ (Except ε α)).Gives s ok failed halted ↔
      x.Gives s (fun a t => ok (.ok a) t) (fun e t => ok (.error e) t) halted := by
  simp only [Gives, attempt]
  rcases x s with _ | ⟨_ | _, _⟩ <;> rfl

@[simp] theorem gives_mapError {f : ε → ε'} {failed : ε' → σ → Prop} :
    (mapError f x).Gives s ok failed halted ↔ x.Gives s ok (fun e t => failed (f e) t) halted := by
  simp only [Gives, mapError]
  rcases x s with _ | ⟨_ | _, _⟩ <;> rfl

@[simp] theorem gives_ofExcept {r : Except ε α} :
    (ofExcept r : Action ε σ α).Gives s ok failed halted ↔
      match r with
      | .ok a => ok a s
      | .error e => failed e s := by
  cases r <;> rfl

@[simp] theorem gives_get {ok : σ → σ → Prop} :
    (get : Action ε σ σ).Gives s ok failed halted ↔ ok s s := Iff.rfl

@[simp] theorem gives_modify {f : σ → σ} {ok : PUnit → σ → Prop} :
    (modify f : Action ε σ PUnit).Gives s ok failed halted ↔ ok ⟨⟩ (f s) := Iff.rfl

@[simp] theorem gives_onHeap {x : Action ε Heap α} {m : Memory} {ok : α → Memory → Prop}
    {failed : ε → Memory → Prop} :
    (Memory.onHeap x).Gives m ok failed halted ↔
      x.Gives m.heap (fun a h => ok a { m with heap := h })
        (fun e h => failed e { m with heap := h }) halted := by
  simp only [Gives, Memory.onHeap]
  rcases x m.heap with _ | ⟨_ | _, _⟩ <;> rfl

@[simp] theorem gives_act [OfHeapFault ε] {x : HeapM α} {h : Heap} {ok : α → Heap → Prop}
    {failed : ε → Heap → Prop} :
    (Heap.act x).Gives h ok failed halted ↔
      x.Gives h ok (fun e g => failed (OfHeapFault.ofHeap e) g) halted := gives_mapError

@[simp] theorem gives_touch [OfHeapFault ε] {x : HeapM α} {m : Memory} {ok : α → Memory → Prop}
    {failed : ε → Memory → Prop} :
    (Memory.touch x).Gives m ok failed halted ↔
      x.Gives m.heap (fun a h => ok a { m with heap := h })
        (fun e h => failed (OfHeapFault.ofHeap e) { m with heap := h }) halted := by
  simp only [Memory.touch, gives_onHeap, gives_act]

theorem gives_register {function : FunctionId} {plan : Plan} {release : Release} {m : Memory}
    {ok : Nat → Memory → Prop} {failed : ε → Memory → Prop}
    (done : TrampolineTable.addressOf m.trampolines.next < UInt64.size →
      ok (m.trampolines.register function plan release).1
        { m with
          trampolines := (m.trampolines.register function plan release).2
          journal := m.journal.push
            (.registered (m.trampolines.register function plan release).1) }) :
    (Memory.register function plan release).Gives m ok failed := by
  by_cases room : TrampolineTable.addressOf m.trampolines.next < UInt64.size
  · exact gives_of_ok (by rw [Memory.register, if_pos room]) (done room)
  · simp only [Gives, Memory.register, if_neg room]

section Across

variable {R : σ → σ → Prop}

/-- However the action ends, `R` holds between the state it began in and the one it leaves. -/
def Across (R : σ → σ → Prop) (x : Action ε σ α) : Prop :=
  ∀ s, x.Gives s (fun _ t => R s t) (fun _ t => R s t) fun _ => True

/-- Relations that hold across a sequence of actions when they hold across each. -/
structure Composes (R : σ → σ → Prop) : Prop where
  refl : ∀ s, R s s
  trans : ∀ {s t u}, R s t → R t u → R s u

theorem Across.attempt (across : x.Across R) :
    (attempt x : Action ε' σ (Except ε α)).Across R := by
  intro s
  rw [gives_attempt]
  exact across s

theorem Across.mapError {f : ε → ε'} (across : x.Across R) : (mapError f x).Across R := by
  intro s
  rw [gives_mapError]
  exact across s

theorem Across.weaken {R' : σ → σ → Prop} (across : x.Across R) (weaker : ∀ s t, R s t → R' s t) :
    x.Across R' := fun s =>
  (across s).mono (fun _ t => weaker s t) fun _ t => weaker s t

theorem across_endless : (endless : Action ε σ α).Across R := fun _ => trivial

theorem across_modify {f : σ → σ} (step : ∀ s, R s (f s)) :
    (modify f : Action ε σ PUnit).Across R := step

variable (c : Composes R)

include c

theorem across_pure (a : α) : (pure a : Action ε σ α).Across R := fun _ => c.refl _

theorem across_fail (e : ε) : (fail e : Action ε σ α).Across R := fun _ => c.refl _

theorem across_ofExcept (r : Except ε α) : (ofExcept r : Action ε σ α).Across R := by
  cases r with
  | ok a => exact across_pure c a
  | error e => exact across_fail c e

theorem across_get : (get : Action ε σ σ).Across R := fun _ => c.refl _

theorem Across.bind {f : α → Action ε σ β} (first : x.Across R) (rest : ∀ a, (f a).Across R) :
    (x >>= f).Across R := by
  intro s
  rw [gives_bind]
  refine (first s).mono (fun a t step => ?_) fun _ _ step => step
  exact (rest a t).mono (fun _ _ later => c.trans step later) fun _ _ later => c.trans step later

end Across

theorem exists_ok (ran : (EStateM.run' x s).isSome = true) : ∃ a t, x s = .ok a t := by
  unfold EStateM.run' at ran
  split at ran
  · exact ⟨_, _, by assumption⟩
  · cases ran

/-- Whether an action ends well, with a value and a state of which `holds` is true. -/
def succeeds (x : Action ε σ α) (s : σ) (holds : α → σ → Bool) : Bool :=
  match x s with
  | .ok a t => holds a t
  | .error _ _ => false

theorem exists_ok_such (holds : α → σ → Bool) (ran : x.succeeds s holds = true) :
    ∃ a t, x s = .ok a t ∧ holds a t = true := by
  unfold succeeds at ran
  split at ran
  · exact ⟨_, _, by assumption, ran⟩
  · cases ran

/-- Whether an action fails, with an error and a state of which `holds` is true. -/
def fails (x : Action ε σ α) (s : σ) (holds : ε → σ → Bool) : Bool :=
  match x s with
  | .error (.error e) t => holds e t
  | _ => false

theorem exists_error_such (holds : ε → σ → Bool) (ran : x.fails s holds = true) :
    ∃ e t, x s = .error (.error e) t ∧ holds e t = true := by
  unfold fails at ran
  split at ran
  · exact ⟨_, _, by assumption, ran⟩
  · cases ran

theorem exists_of_bind {f : α → Action ε σ β} {b : β} (run : (x >>= f) s = .ok b t) :
    ∃ a u, x s = .ok a u ∧ f a u = .ok b t := by
  simp only [bind, EStateM.bind] at run
  split at run
  · exact ⟨_, _, by assumption, run⟩
  · cases run

theorem bind_of_ok {f : α → Action ε σ β} {a : α} (run : x s = .ok a t) :
    (x >>= f) s = f a t := by
  simp only [bind, EStateM.bind, run]

theorem bind_of_error {f : α → Action ε σ β} {e : Stop ε} (run : x s = .error e t) :
    (x >>= f) s = .error e t := by
  simp only [bind, EStateM.bind, run]

theorem attempt_of_ok {a : α} (run : x s = .ok a t) :
    (attempt x : Action ε' σ (Except ε α)) s = .ok (.ok a) t := by
  simp only [attempt, run]

theorem attempt_of_error {e : ε} (run : x s = .error (.error e) t) :
    (attempt x : Action ε' σ (Except ε α)) s = .ok (.error e) t := by
  simp only [attempt, run]

theorem act_of_ok [OfHeapFault ε] {x : HeapM α} {h g : Heap} {a : α} (run : x h = .ok a g) :
    (Heap.act x : Action ε Heap α) h = .ok a g := by
  simp only [Heap.act, mapError, run]

/-- The state an action leaves, also when it fails or is halted. -/
def last (x : Action ε σ α) (s : σ) : σ :=
  match x s with
  | .ok _ t => t
  | .error _ t => t

theorem last_of_ok {s t : σ} {a : α} (run : x s = .ok a t) : x.last s = t := by
  simp only [last, run]

theorem last_of_error {s t : σ} {e : Stop ε} (run : x s = .error e t) : x.last s = t := by
  simp only [last, run]

end Action

end ForeignCall
