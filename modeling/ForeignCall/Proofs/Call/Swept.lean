import ForeignCall.Proofs.Call.Cleanup

/-!
However a call ends, its scratch memory is gone.

This holds of every call that got past its arguments and its receiver, whatever its native function,
the callbacks and the calls nested in it do. Only a block of the caller that was lifted may stay.
-/

set_option autoImplicit false

namespace ForeignCall

namespace Session

variable {σ : Type} {w : World σ} {callback : Nat → List Slot → SessionM σ Slot}
  {held : List Value} {name symbol : String} {plan : Plan} {receiver : Option Value}
  {address : Option Nat} {arguments : List Value} {s u : Session σ}

/-- The frame of a call once its slots are filled, or when that fails. -/
def filledFrame (w : World σ) (plan : Plan) (address : Option Nat) (arguments : List Value)
    (m : Memory) : Frame :=
  match FrameM.nativeSlots w.environment plan address arguments
      ⟨.start plan.parameters.length, m⟩ with
  | .ok _ t | .error _ t => t.frame

theorem execute_settles :
    (execute w callback held symbol plan receiver address arguments).Gives s
      (fun outcome t =>
        let f := filledFrame w plan address arguments s.memory
        f.Formed plan ∧
          FrameM.Settles (held ++ w.kept t.host) f ⟨outcome.2, t.memory⟩ ∧
          ∀ v, outcome.1 = .ok v → v = FrameM.resultOf outcome.2.outputs)
      (fun _ _ => False) fun _ => True := by
  have kept (f : Frame) (around : List Value) (m : Memory) : FrameM.Settles around f ⟨f, m⟩ :=
    ⟨rfl, rfl, fun _ _ listed => .inl listed⟩
  rw [execute, Action.gives_bind, gives_within]
  refine ((Action.gives_self _ _).both (FrameM.nativeSlots_formed w.environment plan address
    arguments s.memory)).mono ?_ ?_
  · rintro slots v ⟨run, formed⟩
    have filled : filledFrame w plan address arguments s.memory = v.frame := by
      rw [filledFrame, run]
    rw [filled, Action.gives_bind, Action.gives_attempt]
    refine (Action.gives_anyhow _ _).mono (fun ret t _ => ?_) fun e t _ => ?_
    · dsimp only
      rw [Action.gives_bind, heldNow, Action.gives_bind, Action.gives_get, Action.gives_pure,
        gives_within]
      refine (FrameM.settle_settles (s := ⟨v.frame, t.memory⟩) formed.typed).mono ?_ ?_
      · rintro r x ⟨result, settles⟩
        refine ⟨formed, settles, fun r' same => ?_⟩
        cases same
        exact result
      · intro e x settles
        exact ⟨formed, settles, fun _ absurd => by cases absurd⟩
    · exact ⟨formed, kept _ _ _, fun _ absurd => by cases absurd⟩
  · rintro e v ⟨run, formed⟩
    have filled : filledFrame w plan address arguments s.memory = v.frame := by
      rw [filledFrame, run]
    rw [filled]
    exact ⟨formed, kept _ _ _, fun _ absurd => by cases absurd⟩

theorem carryOut_swept :
    (carryOut w callback held symbol plan receiver address arguments).Gives s
      (fun v t =>
        let f := filledFrame w plan address arguments s.memory
        f.Formed plan ∧ ∃ outputs, v = FrameM.resultOf outputs ∧
          f.Swept (held ++ w.kept t.host) outputs t.memory)
      (fun _ t =>
        let f := filledFrame w plan address arguments s.memory
        f.Formed plan ∧ ∃ outputs, f.Swept (held ++ w.kept t.host) outputs t.memory)
      fun _ => True := by
  rw [carryOut, Action.gives_bind]
  refine execute_settles.mono ?_ fun _ _ never => never.elim
  rintro ⟨outcome, g⟩ t ⟨formed, settles, result⟩
  dsimp only
  rw [Action.gives_bind, gives_within]
  have reported (released : Except CallError Unit) (m : Memory)
      (swept : (filledFrame w plan address arguments s.memory).Swept (held ++ w.kept t.host)
        g.outputs m) :
      (do let v ← Action.ofExcept outcome
          Action.ofExcept released
          return v : SessionM σ Value).Gives { t with memory := m }
        (fun v t =>
          let f := filledFrame w plan address arguments s.memory
          f.Formed plan ∧ ∃ outputs, v = FrameM.resultOf outputs ∧
            f.Swept (held ++ w.kept t.host) outputs t.memory)
        (fun _ t =>
          let f := filledFrame w plan address arguments s.memory
          f.Formed plan ∧ ∃ outputs, f.Swept (held ++ w.kept t.host) outputs t.memory)
        fun _ => True := by
    rw [Action.gives_bind, Action.gives_ofExcept]
    cases outcome with
    | error e => exact ⟨formed, g.outputs, swept⟩
    | ok v =>
      dsimp only
      rw [Action.gives_bind, Action.gives_ofExcept]
      cases released with
      | error e => exact ⟨formed, g.outputs, swept⟩
      | ok _ => exact ⟨formed, g.outputs, result v rfl, swept⟩
  refine (FrameM.releaseAll_gone ⟨g, t.memory⟩).mono ?_ ?_
  · rintro _ x ⟨clears, gone⟩
    exact reported _ _ (settles.swept clears gone)
  · rintro _ x ⟨clears, gone⟩
    exact reported _ _ (settles.swept clears gone)

end Session

/-- Wherever a call ends that got past its arguments and its receiver, nothing is left of what it made
for itself: no cell of an out or inout argument, no error cell, no trampoline of a callback whose
scope is the call. The one exception is a caller-allocated block that was lifted. Its wrapper took it
over, unless the script held one for that address already. -/
theorem call_leaves_no_scratch {σ : Type} {w : World σ} {depth : Nat} {held : List Value}
    {name : String} {receiver : Option Value} {arguments : List Value} {s u : Session σ} {plan : Plan}
    {address : Option Nat} (planned : Session.planOf w name s = .ok plan u)
    (accepted : checkArguments w.environment.repository plan arguments = .ok ())
    (located : Session.receiverAddress plan receiver = .ok address) :
    (Session.callNested w depth held name receiver arguments).Gives s
      (fun v t =>
        let f := Session.filledFrame w plan address arguments s.memory
        f.Formed plan ∧ ∃ outputs, v = FrameM.resultOf outputs ∧
          f.Swept (held ++ w.kept t.host) outputs t.memory)
      (fun _ t =>
        let f := Session.filledFrame w plan address arguments s.memory
        f.Formed plan ∧ ∃ outputs, f.Swept (held ++ w.kept t.host) outputs t.memory)
      fun _ => True := by
  cases depth with
  | zero => trivial
  | succ depth =>
    cases bound : Session.bind w name s with
    | error e x =>
      rw [Session.planOf, Action.bind_of_error bound] at planned
      cases planned
    | ok b s₁ =>
      have prepared : Session.prepare w name b s₁ = .ok plan u := by
        rwa [Session.planOf, Action.bind_of_ok bound] at planned
      have memory : u.memory = s.memory :=
        (Session.prepare_keeps.of_ok prepared).1.trans (Session.bind_keeps.of_ok bound).1
      rw [Session.callNested, Session.invoke, Action.gives_bind]
      apply Action.gives_of_ok bound
      rw [Action.gives_bind]
      apply Action.gives_of_ok prepared
      rw [Action.gives_bind, accepted, Action.gives_ofExcept, Action.gives_bind, located,
        Action.gives_ofExcept, ← memory]
      exact Session.carryOut_swept

/-! ### Two such calls -/

/-- The function `f` takes a struct block of the caller, an integer by reference and a callback, and
can report an error. The function `self` gives back the address of its struct block as that of an
object. -/
def blockWorld : World Unit where
  environment :=
    let run : CallableRecord := { namespaceName := "T", name := "Run" }
    let block : ArgumentRecord :=
      { name := "p", type := .named "T.P", direction := .output, callerAllocates := true }
    let f : CallableRecord :=
      { namespaceName := "T", name := "f", throws := true
        arguments := [block,
          { name := "x", type := { tag := .integer ⟨.w32, true⟩ }, direction := .inout },
          { name := "run", type := .named "T.Run", scope := some .call }] }
    let self : CallableRecord :=
      { namespaceName := "T", name := "self", arguments := [block]
        returnType := TypeRecord.byPointer (.named "T.O") }
    let types := Repository.initial
      |>.insertEntry { namespaceName := "T", name := "P", kind := .struct, size := some 8 }
      |>.insertEntry { namespaceName := "T", name := "O", kind := .object }
      |>.insertEntry { namespaceName := "T", name := "Run", kind := .callback, signature := some run }
    ⟨(types.insertFunction f).insertFunction self, .pin⟩
  library _ := some fun slots => .ret (slots.headD .null)
  script _ _ := .ret .undefined
  kept _ := []

def blockArguments : List Value := [.number (.ofNat 5), .function ⟨0⟩]

/-- A call that makes one scratch cell of each kind and succeeds. -/
theorem call_leaves_no_scratch_block :
    ∃ plan u v t, Session.planOf blockWorld "T.f" (.start ()) = .ok plan u ∧
      Session.callNested blockWorld 1 blockArguments "T.f" none blockArguments (.start ()) =
        .ok v t ∧
      let f := Session.filledFrame blockWorld plan none blockArguments .empty
      f.cells = [some (.block 16), some (.value 24), none] ∧ f.errorCell = some 32 ∧
        f.callScoped = [TrampolineTable.base] ∧
        ∃ outputs, v = FrameM.resultOf outputs ∧
          f.Swept (blockArguments ++ blockWorld.kept t.host) outputs t.memory := by
  obtain ⟨plan, u, planned, facts⟩ :=
    Action.exists_ok_such (x := Session.planOf blockWorld "T.f") (s := .start ())
      (fun plan _ =>
        let f := Session.filledFrame blockWorld plan none blockArguments .empty
        checkArguments blockWorld.environment.repository plan blockArguments == .ok () &&
          !plan.isMethod && f.cells == [some (.block 16), some (.value 24), none] &&
          f.errorCell == some 32 && f.callScoped == [TrampolineTable.base]) (by decide +kernel)
  simp only [Bool.and_eq_true, beq_iff_eq, Bool.not_eq_true'] at facts
  obtain ⟨⟨⟨⟨accepted, plain⟩, cells⟩, errorCell⟩, callScoped⟩ := facts
  have located : Session.receiverAddress plan none = .ok none := by
    simp [Session.receiverAddress, plain]
  obtain ⟨v, t, ran⟩ : ∃ v t, Session.callNested blockWorld 1 blockArguments "T.f" none blockArguments
      (.start ()) = .ok v t := Action.exists_ok (by decide +kernel)
  refine ⟨plan, u, v, t, planned, ran, cells, errorCell, callScoped, ?_⟩
  generalize blockWorld = w at *
  exact ((call_leaves_no_scratch planned accepted located).of_ok ran).2

/-- Whether a value lists one wrapper two times that owns nothing. -/
def Value.isSharedPair : Value → Bool
  | .array [.object w, .object w'] => w == w' && !w.adopts
  | _ => false

/-- The block of the caller comes back as an object that the script is not given. The wrapper that it
has by then does not own it, so that the block stays. -/
theorem call_leaves_scratch :
    ∃ plan u w t, Session.planOf blockWorld "T.self" (.start ()) = .ok plan u ∧
      Session.callNested blockWorld 1 [] "T.self" none [] (.start ()) =
        .ok (.array [.object w, .object w]) t ∧
      (Session.filledFrame blockWorld plan none [] .empty).cells = [some (.block 16)] ∧
      w.adopts = false ∧ t.memory.heap.isLive 16 = true := by
  obtain ⟨plan, u, planned, cells⟩ :=
    Action.exists_ok_such (x := Session.planOf blockWorld "T.self") (s := .start ())
      (fun plan _ => (Session.filledFrame blockWorld plan none [] .empty).cells ==
        [some (.block 16)]) (by decide +kernel)
  obtain ⟨v, t, ran, left⟩ :=
    Action.exists_ok_such (x := Session.callNested blockWorld 1 [] "T.self" none [])
      (s := .start ()) (fun v t => t.memory.heap.isLive 16 && v.isSharedPair) (by decide +kernel)
  rw [Bool.and_eq_true] at left
  obtain ⟨live, lifted⟩ := left
  unfold Value.isSharedPair at lifted
  split at lifted
  · simp only [Bool.and_eq_true, beq_iff_eq, Bool.not_eq_true'] at lifted
    obtain ⟨rfl, shared⟩ := lifted
    exact ⟨plan, u, _, t, planned, ran, beq_iff_eq.1 cells, shared, live⟩
  · cases lifted

end ForeignCall
