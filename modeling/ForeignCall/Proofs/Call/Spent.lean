import ForeignCall.Proofs.Call.Registration

/-!
How a trampoline for one invocation leaves the table.

The end of an invocation takes it out of the table, whatever became of the script function, and what
is lowered after that does not bring it back. An invocation whose arguments are not lifted has no such
end: it fails before its script function is entered, and the trampoline stays as it is.
-/

set_option autoImplicit false

namespace ForeignCall

open ForeignCall.Action

/-- The stop with its error in other terms. -/
def Stop.map {ε ε' : Type} (f : ε → ε') : Stop ε → Stop ε'
  | .error e => .error (f e)
  | .halt h => .halt h

theorem Memory.progress_advances : Progress Memory.Advances where
  refl m := (Memory.quiet_still.refl m).advances
  trans := Memory.Advances.trans
  heap m h := (Memory.quiet_still.heap m h).advances
  wrappers m wrappers wraps := (Memory.quiet_still.wrappers m wrappers wraps).advances
  registered m function plan release := (Memory.Registers.registered m function plan release).advances
  released m address := Memory.Loses.advances
    ⟨.remove address, (Memory.Still.record m (by rintro _ ⟨⟩)).registrations_eq⟩
  counted m address := Memory.Still.advances ⟨.update fun _ => rfl, rfl⟩
  native m _ _ := (Memory.Still.record m (by rintro _ ⟨⟩)).advances
  script m _ _ := (Memory.Still.record m (by rintro _ ⟨⟩)).advances
  note m _ := (Memory.Still.record m (by rintro _ ⟨⟩)).advances
  retained m address slot := Memory.Still.advances ⟨.update fun _ => rfl, rfl⟩
  pending m _ := Memory.Still.advances ⟨.refl m.trampolines, rfl⟩

/-- The native state has the same trampolines, with all that they hold, and the same exception
pending. -/
structure Memory.Same (m t : Memory) : Prop where
  trampolines : t.trampolines = m.trampolines
  pending : t.pending = m.pending

theorem Memory.quiet_same : Quiet Memory.Same where
  refl _ := ⟨rfl, rfl⟩
  trans first second :=
    ⟨second.trampolines.trans first.trampolines, second.pending.trans first.pending⟩
  heap _ _ := ⟨rfl, rfl⟩
  wrappers _ _ _ := ⟨rfl, rfl⟩

variable {plan : Plan} {slots : List Slot} {held vs : List Value} {address : Nat} {m t u : Memory}

/-- A callback that has a visible output lifts no arguments. -/
theorem isOut_of_liftArguments {parameters : List (Parameter × Nat)}
    (lifted : liftArguments plan slots held parameters m = .ok vs t) {e : Parameter × Nat}
    (listed : e ∈ parameters) (visible : e.1.isVisible = true) : e.1.direction.isOut = false := by
  induction parameters generalizing held vs m t with
  | nil => cases listed
  | cons first rest ih =>
    obtain ⟨p, position⟩ := first
    rw [liftArguments] at lifted
    split at lifted
    · rename_i hidden
      rcases List.mem_cons.1 listed with rfl | later
      · simp [visible] at hidden
      · exact ih lifted later
    · split at lifted
      · cases lifted
      · rename_i input
        obtain ⟨v, n, -, onward⟩ := exists_of_bind lifted
        obtain ⟨others, n', lifts, -⟩ := exists_of_bind onward
        rcases List.mem_cons.1 listed with rfl | later
        · simpa using input
        · exact ih lifts later

/-- Whatever became of the trampoline before an invocation of it ends, it is not in the table after
it. -/
theorem endInvocation_retires (once : m.trampolines.releaseAt address = some .afterFirstInvocation)
    (later : m.Advances t) :
    (endInvocation address).Gives t (fun _ u => u.trampolines.Retired address)
      (fun _ u => u.trampolines.Retired address) fun _ => True := by
  obtain ⟨n, below, rfl⟩ := TrampolineTable.exists_number_of_releaseAt once
  have given := Nat.lt_of_lt_of_le below later.table.next_le
  have retires (u : Memory) (loses : t.Loses (t.trampolines.spent (TrampolineTable.addressOf n)) u) :
      u.trampolines.Retired (TrampolineTable.addressOf n) := by
    refine ⟨⟨n, Nat.lt_of_lt_of_le given loses.advances.table.next_le, rfl⟩, ?_⟩
    rw [loses.table.releaseAt_eq]
    rcases later.table.releaseAt_of_some once with present | absent
    · rw [TrampolineTable.spent, if_pos present, if_pos (List.mem_singleton_self _)]
    · rw [absent, ite_self]
  exact (endInvocation_loses _ t).mono (fun _ => retires) fun _ => retires

theorem lowerResult_registers (env : Environment) (plan : Plan) (address : Nat) (v : Value) :
    (lowerResult env plan address v).Within Memory.Registers :=
  within_lowerResult Memory.registering_registers
    (fun _ _ _ => Memory.Still.registers ⟨.update fun _ => rfl, rfl⟩) env plan address v

namespace Session

variable {σ : Type} {w : World σ} {s : Session σ} {t : Trampoline}

/-- One invocation of a function pointer by native code. A failure leaves its error pending and
gives null. -/
def invocation (w : World σ) (depth : Nat) (held : List Value) (function : Slot)
    (slots : List Slot) : SessionM σ Slot := do
  let answer : Except CallError Slot ← attempt (callback w depth held function.toNat slots)
  match answer with
  | .ok slot => return slot
  | .error e =>
    onMemory (Memory.raise e)
    return .null

theorem runNative_callback (w : World σ) (depth : Nat) (held : List Value) (function : Slot)
    (slots : List Slot) (next : Slot → Native σ) :
    runNative w depth held (.callback function slots next) =
      invocation w depth held function slots >>= fun slot => runNative w depth held (next slot) := by
  rw [runNative, Native.run, invocation, bind_assoc]
  refine congrArg (Bind.bind _) (funext fun answer => ?_)
  cases answer with
  | ok slot => rw [pure_bind, runNative]
  | error e => rw [bind_assoc]; rfl

theorem callback_of_get? (depth : Nat) (held : List Value)
    (registered : s.memory.trampolines.get? address = some t) :
    callback w depth held address slots s =
      callTrampoline w (runScript w depth) held address t slots s := by
  obtain ⟨n, -, rfl⟩ := TrampolineTable.exists_number registered
  have read : (get : SessionM σ (Session σ)) s = .ok s s := rfl
  rw [callback, enterCallback, if_neg (TrampolineTable.ne_destroyNotifyAddress n), bind_of_ok read,
    registered]

/-- When the arguments are lifted, the invocation takes the trampoline out of the table: also if the
script function fails, or its result is not lowered. -/
theorem callback_retires (depth : Nat) (registered : s.memory.trampolines.get? address = some t)
    (once : t.release = .afterFirstInvocation)
    (lifted : liftArguments t.plan slots (held ++ w.kept s.host) t.plan.parameters.zipIdx s.memory =
      .ok vs m) :
    (callback w depth held address slots).Gives s (fun _ u => u.memory.trampolines.Retired address)
      (fun _ u => u.memory.trampolines.Retired address) fun _ => True := by
  have progress := Memory.progress_advances
  have around : heldNow w held s = .ok (held ++ w.kept s.host) s := rfl
  have converted : (convert (liftArguments t.plan slots (held ++ w.kept s.host)
      t.plan.parameters.zipIdx) : SessionM σ _) s = .ok vs { s with memory := m } := by
    simp only [convert, onMemory, mapError, lifted]
  have lifts : s.memory.Advances m := ((within_liftArguments progress.toQuiet t.plan slots
    (held ++ w.kept s.host) t.plan.parameters.zipIdx) s.memory).of_ok lifted
  have present : s.memory.trampolines.releaseAt address = some .afterFirstInvocation := by
    rw [TrampolineTable.releaseAt_of_get? registered, once]
  have recorded : (onMemory (Memory.record (.script t.function vs)) : SessionM σ Unit)
      { s with memory := m } =
        .ok () { s with memory := { m with journal := m.journal.push (.script t.function vs) } } := rfl
  have entered := lifts.trans (progress.script m t.function vs)
  -- Whatever the script function did, the invocation ends, and then its result is lowered if it has one.
  have ends (result : Except CallError Value) (y : Session σ)
      (later : s.memory.Advances y.memory) :
      (do
        convert (endInvocation address)
        let v ← ofExcept result
        convert (lowerResult w.environment t.plan address v) : SessionM σ Slot).Gives y
          (fun _ u => u.memory.trampolines.Retired address)
          (fun _ u => u.memory.trampolines.Retired address) fun _ => True := by
    rw [gives_bind, convert, gives_onMemory, gives_mapError]
    refine (endInvocation_retires present later).mono (fun _ z retired => ?_) fun _ _ retired => retired
    rw [gives_bind, gives_ofExcept]
    cases result with
    | error e => exact retired
    | ok v =>
      dsimp only
      rw [convert, gives_onMemory, gives_mapError]
      exact (lowerResult_registers w.environment t.plan address v z).mono
        (fun _ _ step => step.table.later.retired retired)
        fun _ _ step => step.table.later.retired retired
  rw [Gives, callback_of_get? depth held registered, callTrampoline, bind_of_ok around,
    bind_of_ok converted, bind_of_ok recorded, ← Gives, gives_bind, gives_attempt]
  have runs := within_runScript Memory.progress_advances w depth
  exact (runs _ _ _).mono (fun v y ran => ends (.ok v) y (entered.trans ran))
    fun e y ran => ends (.error e) y (entered.trans ran)

/-- When the arguments are not lifted, the invocation ends there, and nothing but lifting was done. -/
theorem callback_of_not_lifted (depth : Nat) {stop : Stop ConversionFault}
    (registered : s.memory.trampolines.get? address = some t)
    (stopped : liftArguments t.plan slots (held ++ w.kept s.host) t.plan.parameters.zipIdx s.memory =
      .error stop m) :
    callback w depth held address slots s =
      .error (stop.map .conversion) { s with memory := m } := by
  have around : heldNow w held s = .ok (held ++ w.kept s.host) s := rfl
  have converted : (convert (liftArguments t.plan slots (held ++ w.kept s.host)
      t.plan.parameters.zipIdx) : SessionM σ _) s =
        .error (stop.map .conversion) { s with memory := m } := by
    cases stop <;> simp only [convert, onMemory, mapError, stopped, Stop.map]
  rw [callback_of_get? depth held registered, callTrampoline, bind_of_ok around,
    bind_of_error converted]

/-- A trampoline for one invocation is not in the table after native code has invoked it, if the slots
that it was passed are lifted: whatever else becomes of the invocation. If they are not, native code
gets null, the error is pending, and all trampolines are what they were. Slots are never lifted for a
callback that has a visible output. -/
theorem invocation_spends {function : Slot}
    (registered : s.memory.trampolines.get? function.toNat = some t)
    (once : t.release = .afterFirstInvocation) :
    let lifted := liftArguments t.plan slots (held ++ w.kept s.host) t.plan.parameters.zipIdx s.memory
    (∀ depth next, runNative w depth held (.callback function slots next) =
      invocation w depth held function slots >>= fun slot => runNative w depth held (next slot)) ∧
    (∀ depth, (invocation w depth held function slots).Gives s
      (fun slot u =>
        match lifted with
        | .ok _ _ => u.memory.trampolines.get? function.toNat = none
        | .error (.error e) m =>
          slot = .null ∧ u.memory.trampolines = s.memory.trampolines ∧ u =
            { s with memory := { m with pending := some (s.memory.pending.getD (.conversion e)) } }
        | .error (.halt _) _ => False)
      (fun _ _ => False) fun _ => True) ∧
    ((∃ p ∈ t.plan.parameters, p.isVisible = true ∧ p.direction.isOut = true) →
      ∀ vs m, lifted ≠ .ok vs m) := by
  intro lifted
  refine ⟨fun depth next => runNative_callback w depth held function slots next, fun depth => ?_, ?_⟩
  · rw [invocation, gives_bind, gives_attempt]
    rcases lifts : lifted with ⟨vs, m⟩ | ⟨e | h, m⟩
    · have retires := callback_retires depth registered once lifts
      refine retires.mono (fun slot u retired => ?_) fun e u retired => ?_
      · exact TrampolineTable.releaseAt_eq_none.1 retired.2
      · dsimp only
        rw [gives_bind, gives_onMemory, Memory.raise, gives_modify]
        exact TrampolineTable.releaseAt_eq_none.1 retired.2
    · have same := ((within_liftArguments Memory.quiet_same t.plan slots (held ++ w.kept s.host)
        t.plan.parameters.zipIdx) s.memory).of_error lifts
      rw [Gives, callback_of_not_lifted depth registered lifts]
      refine ⟨rfl, same.trampolines, ?_⟩
      change { s with memory := { m with pending := some (m.pending.getD _) } } = _
      rw [show m.pending = s.memory.pending from same.pending]
    · rw [Gives, callback_of_not_lifted depth registered lifts]
      trivial
  · rintro ⟨p, listed, visible, output⟩ vs m lifts
    obtain ⟨position, there⟩ := List.mem_iff_getElem?.1 listed
    have input := isOut_of_liftArguments lifts (e := (p, position))
      (List.mk_mem_zipIdx_iff_getElem?.2 there) visible
    rw [output] at input
    cases input

/-- The function `f` leaves the function pointer that it is passed uninvoked. -/
def letterWorld : World Unit where
  environment :=
    let letter : ArgumentRecord := { name := "c", type := { tag := .unichar } }
    let run : CallableRecord := { namespaceName := "T", name := "Run", arguments := [letter] }
    let types := Repository.initial.insertEntry
      { namespaceName := "T", name := "Run", kind := .callback, signature := some run }
    let callback : ArgumentRecord := { name := "run", type := .named "T.Run", scope := some .async }
    ⟨types.insertFunction { namespaceName := "T", name := "f", arguments := [callback] }, .pin⟩
  library _ := some fun _ => .ret .null
  script _ _ := .throw (.script "failed")
  kept _ := []

/-- The session after a call of `f` has a trampoline for one invocation at the first address. Slots with a
letter are lifted, and one with half of a surrogate pair is not. -/
theorem exists_letter_trampoline :
    ∃ (v : Value) (s : Session Unit) (t : Trampoline),
      call letterWorld 1 "T.f" none [.function ⟨0⟩] (.start ()) = .ok v s ∧
      s.memory.trampolines.get? TrampolineTable.base = some t ∧
      t.release = .afterFirstInvocation ∧
      (∃ vs m, liftArguments t.plan [⟨0x41⟩] [] t.plan.parameters.zipIdx s.memory = .ok vs m) ∧
      ∃ m, liftArguments t.plan [⟨0xd800⟩] [] t.plan.parameters.zipIdx s.memory =
        .error (.error (.invalidChar 0xd800)) m := by
  obtain ⟨v, s, ran, facts⟩ := exists_ok_such
    (x := call letterWorld 1 "T.f" none [.function ⟨0⟩]) (s := .start ())
    (fun _ s => (s.memory.trampolines.get? TrampolineTable.base).any fun t =>
      t.release == .afterFirstInvocation &&
        (liftArguments t.plan [⟨0x41⟩] [] t.plan.parameters.zipIdx).succeeds s.memory
          (fun _ _ => true) &&
        (liftArguments t.plan [⟨0xd800⟩] [] t.plan.parameters.zipIdx).fails s.memory
          fun e _ => e == .invalidChar 0xd800) (by decide +kernel)
  simp only [Option.any_eq_true, Bool.and_eq_true, beq_iff_eq] at facts
  obtain ⟨t, registered, ⟨once, accepted⟩, refused⟩ := facts
  obtain ⟨vs, m, lifted, -⟩ := exists_ok_such _ accepted
  obtain ⟨e, m', failed, same⟩ := exists_error_such _ refused
  obtain rfl := beq_iff_eq.1 same
  exact ⟨v, s, t, ran, registered, once, ⟨vs, m, lifted⟩, m', failed⟩

/-- The script function fails, and the trampoline leaves the table nevertheless. -/
theorem invocation_spends_letter :
    ∃ (v : Value) (s : Session Unit) (t : Trampoline),
      call letterWorld 1 "T.f" none [.function ⟨0⟩] (.start ()) = .ok v s ∧
      s.memory.trampolines.get? TrampolineTable.base = some t ∧
      t.release = .afterFirstInvocation ∧
      (invocation letterWorld 0 [] (.ofNat TrampolineTable.base) [⟨0x41⟩]).Gives s
        (fun _ u => u.memory.trampolines.get? TrampolineTable.base = none) (fun _ _ => False)
        fun _ => True := by
  obtain ⟨v, s, t, ran, registered, once, ⟨vs, m, lifted⟩, -⟩ := exists_letter_trampoline
  refine ⟨v, s, t, ran, registered, once, ?_⟩
  have number : (Slot.ofNat TrampolineTable.base).toNat = TrampolineTable.base := by decide
  have there : s.memory.trampolines.get? (Slot.ofNat TrampolineTable.base).toNat = some t := by
    rw [number]
    exact registered
  refine ((invocation_spends there once).2.1 0).mono (fun slot u spent => ?_) fun _ _ never => never
  rw [show liftArguments t.plan [⟨0x41⟩] ([] ++ letterWorld.kept s.host) t.plan.parameters.zipIdx
    s.memory = .ok vs m from lifted, number] at spent
  exact spent

/-- Native code invokes the trampoline with no letter. It was for one invocation, and it is still in the
table after it. -/
theorem invocation_not_spent :
    ∃ (v : Value) (s u : Session Unit) (t : Trampoline) (slot : Slot),
      call letterWorld 1 "T.f" none [.function ⟨0⟩] (.start ()) = .ok v s ∧
      s.memory.trampolines.get? TrampolineTable.base = some t ∧
      t.release = .afterFirstInvocation ∧
      invocation letterWorld 0 [] (.ofNat TrampolineTable.base) [⟨0xd800⟩] s = .ok slot u ∧
      u.memory.trampolines.get? TrampolineTable.base = some t := by
  obtain ⟨v, s, t, ran, registered, once, -, m, failed⟩ := exists_letter_trampoline
  have number : (Slot.ofNat TrampolineTable.base).toNat = TrampolineTable.base := by decide
  have same := ((within_liftArguments Memory.quiet_same t.plan [⟨0xd800⟩] []
    t.plan.parameters.zipIdx) s.memory).of_error failed
  have answer : (attempt (callback letterWorld 0 [] (Slot.ofNat TrampolineTable.base).toNat
      [⟨0xd800⟩]) : SessionM Unit (Except CallError Slot)) s =
        .ok (.error (.conversion (.invalidChar 0xd800))) { s with memory := m } := by
    have refused : liftArguments t.plan [⟨0xd800⟩] ([] ++ letterWorld.kept s.host)
      t.plan.parameters.zipIdx s.memory = .error (.error (.invalidChar 0xd800)) m := failed
    rw [number]
    exact attempt_of_error (callback_of_not_lifted 0 registered refused)
  refine ⟨v, s, { s with memory := { m with
    pending := some (m.pending.getD (.conversion (.invalidChar 0xd800))) } }, t, .null, ran,
    registered, once, ?_, ?_⟩
  · rw [invocation, bind_of_ok answer]
    rfl
  · change m.trampolines.get? _ = _
    rw [show m.trampolines = s.memory.trampolines from same.trampolines, registered]

end Session

end ForeignCall
