import ForeignCall.Proofs.Call.Echo

/-!
Calls whose native function leaves everything alone.

A native function that performs no heap operation and runs no callbacks leaves the arguments that it
was given by reference as they are. The call gives them back and takes no memory, unless an exception
is pending when the function returns, which it reports instead.
-/

set_option autoImplicit false

namespace ForeignCall

variable {σ : Type}

/-! ### Idle native functions -/

/-- Native code that performs no heap operation, runs no callback and does not fail. -/
inductive Native.IsIdle : Native σ → Prop where
  | ret (slot : Slot) : IsIdle (.ret slot)
  | raise (e : CallError) {next : Native σ} (later : next.IsIdle) : IsIdle (.raise e next)
  | note (n : Note) {next : Native σ} (later : next.IsIdle) : IsIdle (.note n next)
  | read {next : σ → Native σ} (later : ∀ state, (next state).IsIdle) : IsIdle (.read next)
  | write (state : σ) {next : Native σ} (later : next.IsIdle) : IsIdle (.write state next)

/-- The first exception that native code raises itself, when every request is answered as by an idle
function. -/
def Native.firstRaise : Native σ → σ → Option CallError
  | .raise e _, _ => some e
  | .note _ next, state => next.firstRaise state
  | .read next, state => (next state).firstRaise state
  | .write state next, _ => next.firstRaise state
  | _, _ => none

namespace Session

variable {w : World σ} {callback : Nat → List Slot → SessionM σ Slot} {function : List Slot → Native σ}
  {held : List Value} {name symbol : String} {plan : Plan} {receiver : Option Value}
  {address : Option Nat} {arguments : List Value} {s : Session σ} {limit : Nat}
  {failed : CallError → Session σ → Prop} {halted : Halt → Prop}

theorem run_idle {n : Native σ} (idle : n.IsIdle) (s : Session σ) :
    (n.run callback).Gives s
      (fun _ t => ∃ journal, t.memory =
        { s.memory with pending := s.memory.pending.or (n.firstRaise s.host), journal := journal })
      failed halted := by
  induction idle generalizing s with
  | ret slot => exact ⟨s.memory.journal, by simp [Native.firstRaise]⟩
  | raise e later ih =>
    rw [Native.run, Action.gives_bind, gives_onMemory, Memory.raise, Action.gives_modify]
    refine (ih _).mono ?_ fun _ _ never => never
    rintro _ t ⟨journal, left⟩
    refine ⟨journal, left.trans ?_⟩
    cases s.memory.pending <;> simp [Native.firstRaise]
  | note n later ih =>
    rw [Native.run, Action.gives_bind, gives_onMemory]
    exact ih _
  | read later ih =>
    rw [Native.run, Action.gives_bind, Action.gives_get]
    exact ih _ _
  | write state later ih =>
    rw [Native.run, Action.gives_bind, Action.gives_modify]
    exact ih _

theorem enter_idle {slots : List Slot} (defined : w.library symbol = some function)
    (idle : (function slots).IsIdle) :
    (enter w callback symbol slots).Gives s
      (fun _ t => ∃ journal, t.memory =
        { s.memory with
          pending := s.memory.pending.or ((function slots).firstRaise s.host)
          journal := journal })
      failed halted := by
  rw [enter, Action.gives_bind, gives_onMemory, defined]
  exact run_idle idle _

/-- The exception that is pending when an idle native function returns. -/
def pendingAfter (w : World σ) (function : List Slot → Native σ) (plan : Plan)
    (address : Option Nat) (arguments : List Value) (s : Session σ) : Option CallError :=
  match FrameM.nativeSlots w.environment plan address arguments
      ⟨.start plan.parameters.length, s.memory⟩ with
  | .ok slots _ => s.memory.pending.or ((function slots).firstRaise s.host)
  | .error _ _ => none

theorem nativeSlots_echoes {m : Memory} (wired : plan.Wired) (passes : plan.PassesData)
    (carries : plan.Carries arguments)
    (accepted : checkArguments w.environment.repository plan arguments = .ok ())
    (enough : m.heap.size + plan.room arguments ≤ limit) :
    (FrameM.nativeSlots w.environment plan address arguments).Gives
      ⟨.start plan.parameters.length, m⟩
      (fun _ v => ∃ entries, entries.map Entry.given = pairInputs plan.inputs arguments ∧
        Ledger plan w.environment.policy m entries v ∧ v.Echoes plan arguments entries)
      (fun _ _ => False) (Heap.Full limit) := by
  have measured : ∀ p ∈ plan.inputs, p.type.isMeasuredWithin = true := by
    intro p listed
    obtain ⟨source, input⟩ := List.mem_filter.1 listed
    rw [Parameter.isInput, Bool.and_eq_true] at input
    exact (passes.data p source input.1).2
  refine Action.Gives.mono (Action.Gives.both
    (FrameM.nativeSlots_ready wired passes carries.data enough)
    (FrameM.nativeSlots_accounts measured (FrameM.firstMismatch_of_accepted accepted))) ?_
    fun _ _ never => never.1
  rintro _ v ⟨⟨ready, bare⟩, entries, given, ledger⟩
  refine ⟨entries, given, ledger, ready, ?_, ?_, ?_, bare⟩
  · intro e listed
    have member : e.given ∈ pairInputs plan.inputs arguments :=
      given ▸ List.mem_map_of_mem listed
    refine ⟨ledger.inputs ▸ List.mem_map_of_mem listed, member, ?_, ledger.holds e listed⟩
    have shown := ready.inputs
    rw [ledger.inputs, ← given, List.forall₂_map_left_iff, List.forall₂_map_right_iff,
      List.forall₂_same] at shown
    exact shown e listed
  · apply Plan.eq_of_positions
    · intro placed listed
      obtain ⟨e, member, rfl⟩ := List.mem_map.1 listed
      exact (ledger.holds e member).source
    · exact fun placed listed => plan.getElem?_position placed (List.mem_of_mem_filter listed)
    · have places := ready.places
      rw [ledger.inputs, List.map_map, visiblePlaces] at places
      rw [List.map_map]
      exact places
  · obtain ⟨cells, -, grows⟩ := ledger.taken
    have shared := flatMap_split (fun e : Entry => List.perm_append_comm.trans e.kept_handed) entries
    exact (grows.perm (shared.append_right cells)).keeps.left.left

/-- The outputs of the ledger's inputs were settled, and nothing else happened to the memory. -/
def Settled (plan : Plan) (policy : UnscopedPolicy) (m : Memory) (f : Frame) (t : Memory) : Prop :=
  ∃ entries u outs g, Ledger plan policy m entries u ∧
    u.memory.heap.Sheds g (entries.flatMap Entry.handed) ∧
    (⟨f, t⟩ : Scratch) = u.cleared.after outs g

theorem execute_returns (wired : plan.Wired) (passes : plan.PassesData)
    (carries : plan.Carries arguments)
    (accepted : checkArguments w.environment.repository plan arguments = .ok ())
    (defined : w.library symbol = some function) (idle : ∀ slots, (function slots).IsIdle)
    (enough : s.memory.heap.size + plan.room arguments ≤ limit) :
    (execute w callback held symbol plan receiver address arguments).Gives s
      (fun outcome t => Settled plan w.environment.policy s.memory outcome.2 t.memory ∧
        match outcome.1 with
        | .ok v => pendingAfter w function plan address arguments s = none ∧
          ∃ outs, v = FrameM.resultOf outs ∧
            List.Forall₂ (fun out (x : Parameter × Value) => out.equals x.2 = true) outs
              ((pairInputs plan.inputs arguments).filter (·.1.isOutput))
        | .error e => pendingAfter w function plan address arguments s = some e)
      (fun _ _ => False) (Heap.Full limit) := by
  rw [execute, Action.gives_bind, gives_within]
  have still := FrameM.within_nativeSlots steady_pending.toRegistering w.environment plan
    address arguments ⟨.start plan.parameters.length, s.memory⟩
  refine Action.Gives.mono (Action.Gives.both (Action.Gives.both
    (nativeSlots_echoes wired passes carries accepted enough) still)
    (Action.gives_self _ _)) ?_ fun _ _ never => never.1.1.elim
  rintro slots v ⟨⟨⟨entries, given, ledger, echoes⟩, pending⟩, run⟩
  change v.memory.pending = s.memory.pending at pending
  have after : pendingAfter w function plan address arguments s =
      v.memory.pending.or ((function slots).firstRaise s.host) := by
    rw [pendingAfter, run, pending]
  dsimp only
  rw [Action.gives_bind, Action.gives_attempt]
  refine (enter_idle defined (idle slots)).mono ?_ fun _ _ (never : False) => never.elim
  rintro ret t ⟨journal, left⟩
  rw [← after] at left
  -- The native state that is settled differs from the one that was entered in these two fields.
  let u : Scratch := ⟨v.frame, t.memory⟩
  have ledger : Ledger plan w.environment.policy s.memory entries u := by
    simp only [u, left]
    exact ⟨ledger.inputs, ledger.holds, ledger.taken, ledger.registered, ledger.transient⟩
  have echoes : u.Echoes plan arguments entries := by
    simp only [u, left]
    exact echoes.aside _ _
  have pending : u.memory.pending = pendingAfter w function plan address arguments s := by
    simp only [u, left]
  dsimp only
  rw [Action.gives_bind, heldNow, Action.gives_bind, Action.gives_get, Action.gives_pure, gives_within]
  refine (FrameM.settle_returns (s := u) wired passes carries echoes).mono ?_ ?_
  · rintro r _ ⟨none, outs, g, rfl, equal, sheds, rfl⟩
    refine ⟨⟨entries, u, outs, g, ledger, sheds, rfl⟩, pending ▸ none, outs, rfl, ?_⟩
    rw [← given, List.filter_map, List.forall₂_map_right_iff]
    exact equal
  · rintro e _ ⟨raised, g, sheds, rfl⟩
    exact ⟨⟨entries, u, [], g, ledger, sheds, rfl⟩, pending ▸ raised⟩

theorem carryOut_returns (wired : plan.Wired) (passes : plan.PassesData)
    (carries : plan.Carries arguments)
    (accepted : checkArguments w.environment.repository plan arguments = .ok ())
    (defined : w.library symbol = some function) (idle : ∀ slots, (function slots).IsIdle)
    (enough : s.memory.heap.size + plan.room arguments ≤ limit) :
    (carryOut w callback held symbol plan receiver address arguments).Gives s
      (fun v t => pendingAfter w function plan address arguments s = none ∧
        (∃ outs, v = FrameM.resultOf outs ∧
          List.Forall₂ (fun out (x : Parameter × Value) => out.equals x.2 = true) outs
            ((pairInputs plan.inputs arguments).filter (·.1.isOutput))) ∧
        t.memory.heap.blockSize? = s.memory.heap.blockSize?)
      (fun e t => pendingAfter w function plan address arguments s = some e ∧
        t.memory.heap.blockSize? = s.memory.heap.blockSize?)
      (Heap.Full limit) := by
  rw [carryOut, Action.gives_bind]
  refine (execute_returns wired passes carries accepted defined idle enough).mono ?_
    fun _ _ never => never.elim
  rintro ⟨outcome, f⟩ t ⟨⟨entries, u, outs, g, ledger, sheds, left⟩, reported⟩
  dsimp only at left reported ⊢
  rw [Action.gives_bind, gives_within, left]
  refine (FrameM.releaseAll_returns ledger sheds).mono ?_ fun _ _ never => never.elim
  intro _ x same
  rw [Action.gives_bind, Action.gives_ofExcept]
  cases outcome with
  | ok v => exact ⟨reported.1, reported.2, same⟩
  | error e => exact ⟨reported, same⟩

end Session

/-- A call that passes plain data to an idle native function takes no memory. It succeeds exactly when
no exception is pending once that function returned, and then every output equals the argument that was
given for it. -/
theorem untouched_arguments_come_back {w : World σ} {depth : Nat} {held : List Value} {name : String}
    {receiver : Option Value} {arguments : List Value} {s s₁ u : Session σ} {b : Binding}
    {c : CallableRecord} {plan : Plan} {address : Option Nat} {function : List Slot → Native σ}
    (bound : Session.bind w name s = .ok b s₁) (prepared : Session.prepare w name b s₁ = .ok plan u)
    (derived : Plan.derive w.environment.repository c = .ok plan) (passes : plan.PassesData)
    (accepted : checkArguments w.environment.repository plan arguments = .ok ())
    (located : Session.receiverAddress plan receiver = .ok address)
    (carries : plan.Carries arguments)
    (defined : w.library b.callable.symbolName = some function)
    (idle : ∀ slots, (function slots).IsIdle) :
    (Session.callNested w (depth + 1) held name receiver arguments).Gives s
      (fun v t => Session.pendingAfter w function plan address arguments s = none ∧
        (∃ outs, v = FrameM.resultOf outs ∧
          List.Forall₂ (fun out (x : Parameter × Value) => out.equals x.2 = true) outs
            ((pairInputs plan.inputs arguments).filter (·.1.isOutput))) ∧
        t.memory.heap.blockSize? = s.memory.heap.blockSize?)
      (fun e t => Session.pendingAfter w function plan address arguments s = some e ∧
        t.memory.heap.blockSize? = s.memory.heap.blockSize?)
      (Heap.Full (s.memory.heap.size + plan.room arguments)) := by
  obtain ⟨memory₁, host₁⟩ := Session.bind_keeps.of_ok bound
  obtain ⟨memory, host⟩ := Session.prepare_keeps.of_ok prepared
  have memory := memory.trans memory₁
  have after : Session.pendingAfter w function plan address arguments u =
      Session.pendingAfter w function plan address arguments s := by
    rw [Session.pendingAfter, Session.pendingAfter, memory, host.trans host₁]
  rw [Session.callNested, Session.invoke, Action.gives_bind]
  apply Action.gives_of_ok bound
  rw [Action.gives_bind]
  apply Action.gives_of_ok prepared
  rw [Action.gives_bind, accepted, Action.gives_ofExcept, Action.gives_bind, located,
    Action.gives_ofExcept, ← memory, ← after]
  exact Session.carryOut_returns (Plan.wired_of_derive derived) passes carries accepted defined idle
    (Nat.le_refl _)

/-! ### One such call -/

/-- The function `g` takes strings by reference, with their number, and a text; it does nothing. The
function `boom` runs a callback, which fails, and then frees an address that was never allocated. -/
def echoWorld : World Unit where
  environment :=
    let run : CallableRecord := { namespaceName := "T", name := "Run" }
    let g : CallableRecord :=
      { namespaceName := "T", name := "g", throws := true
        arguments := [
          { name := "names", type := TypeRecord.utf8.cArray.withLength 1, direction := .inout
            transfer := .container },
          { name := "count", type := { tag := .integer ⟨.w32, true⟩ } },
          { name := "text", type := .utf8 }] }
    let boom : CallableRecord :=
      { namespaceName := "T", name := "boom"
        arguments := [{ name := "run", type := .named "T.Run", scope := some .call }] }
    let types := Repository.initial.insertEntry
      { namespaceName := "T", name := "Run", kind := .callback, signature := some run }
    ⟨(types.insertFunction g).insertFunction boom, .pin⟩
  library
    | "g" => some fun _ => .note (.text "called") (.ret .null)
    | _ => some fun slots => .callback (slots.headD .null) [] fun _ =>
        .request (.free 0x9999) fun () => .ret .null
  script _ _ := .throw (.script "stale")
  kept _ := []

def echoPlan : Plan where
  name := "T.g"
  parameters := [
    ⟨"names", .array 1, .inout, .container, false, false, none,
      .array (.basic (.string false) true) (.parameter 1) .c true⟩,
    ⟨"count", .skip, .input, .nothing, false, false, none, .basic (.integer ⟨.w32, true⟩) false⟩,
    ⟨"text", .normal, .input, .nothing, false, false, none, .basic (.string false) true⟩]
  returnType := .basic .void false
  returnTransfer := .nothing
  mayReturnNull := false
  returnLength := none
  skipReturn := true
  isMethod := false
  canThrow := true

def echoArguments : List Value := [.array [.string "a", .string "bc"], .string "x"]

theorem echoPlan_passes : echoPlan.PassesData where
  skips := rfl
  data := by decide +kernel
  passed := by decide +kernel
  sized p listed visible := by
    simp only [echoPlan, List.mem_cons, List.not_mem_nil, or_false] at listed
    rcases listed with rfl | rfl | rfl
    · exact .inr ⟨1, rfl⟩
    · cases visible
    · exact .inl rfl
  linked i p length found role := by
    have only : ∀ (j : Nat) (r : Parameter), echoPlan.parameters[j]? = some r → ∀ position,
        r.LinksTo position → j = 0 ∧ position = 1 := by
      intro j r found position linked
      rcases j with _ | _ | _ | j <;> simp only [echoPlan, List.getElem?_cons_zero,
        List.getElem?_cons_succ, List.getElem?_nil, Option.some_inj, reduceCtorEq] at found <;>
        subst found <;> simp_all [Parameter.LinksTo]
    obtain ⟨rfl, rfl⟩ := only i p found length (by simp [Parameter.LinksTo, role])
    refine ⟨_, ⟨.w32, true⟩, false, rfl, by decide, rfl, fun j r found linked => ?_⟩
    exact (only j r found 1 linked).1

theorem echoArguments_given : pairInputs echoPlan.inputs echoArguments =
    [(echoPlan.parameters[0], .array [.string "a", .string "bc"]),
      (echoPlan.parameters[2], .string "x")] := rfl

theorem echoArguments_carried : echoPlan.Carries echoArguments where
  data := by
    have text (s : String) (clean : '\x00' ∉ s.toList) :
        (Descriptor.basic (.string false) true).Carries (.string s) := ⟨s, rfl, clean⟩
    simp only [echoArguments_given, List.forall_mem_cons, List.not_mem_nil, false_imp_iff,
      implies_true, and_true]
    refine ⟨⟨_, rfl, rfl, ?_, nofun⟩, text "x" (by decide)⟩
    simp only [List.forall_mem_cons, List.not_mem_nil, false_imp_iff, implies_true, and_true]
    exact ⟨text "a" (by decide), text "bc" (by decide)⟩
  counts x listed length q format pointer role found type := by
    simp only [echoArguments_given, List.mem_cons, List.not_mem_nil, or_false] at listed
    rcases listed with rfl | rfl
    · cases role
      cases found
      cases type
      have two : (2 : Nat) < 2 ^ 53 := by decide
      have fits : IntFormat.Holds ⟨.w32, true⟩ 2 := by simp [IntFormat.Holds, Width.bits]
      exact IntFormat.arriving_of_holds two fits
    · cases role

/-- A first call gives back the strings that it was given, and no block stays. -/
theorem untouched_arguments_come_back_strings :
    ∃ outs t, Session.callNested echoWorld 1 echoArguments "T.g" none echoArguments (.start ()) =
        .ok (FrameM.resultOf outs) t ∧
      List.Forall₂ (fun out v => Value.equals out v = true) outs
        [.array [.string "a", .string "bc"]] ∧
      t.memory.heap.blockSize? = Memory.empty.heap.blockSize? := by
  obtain ⟨b, s₁, bound, binding⟩ :=
    Action.exists_ok_such (x := Session.bind echoWorld "T.g") (s := .start ())
      (fun b s₁ => b.callable.symbolName == "g" &&
        Plan.derive echoWorld.environment.repository b.callable == .ok echoPlan &&
        match Session.prepare echoWorld "T.g" b s₁ with
        | .ok plan _ => plan == echoPlan
        | .error _ _ => false) (by decide +kernel)
  simp only [Bool.and_eq_true, beq_iff_eq] at binding
  obtain ⟨⟨symbol, derived⟩, prepared⟩ := binding
  obtain ⟨u, prepared⟩ : ∃ u, Session.prepare echoWorld "T.g" b s₁ = .ok echoPlan u := by
    split at prepared
    · rename_i plan u run
      exact ⟨u, beq_iff_eq.1 prepared ▸ run⟩
    · cases prepared
  have accepted : checkArguments echoWorld.environment.repository echoPlan echoArguments = .ok () := by
    decide +kernel
  have defined : echoWorld.library b.callable.symbolName =
      some fun _ => .note (.text "called") (.ret .null) := by
    rw [symbol]
    rfl
  obtain ⟨v, t, ran⟩ : ∃ v t, Session.callNested echoWorld 1 echoArguments "T.g" none echoArguments
      (.start ()) = .ok v t := Action.exists_ok (by decide +kernel)
  -- From here on the world is only known by these facts, so that nothing evaluates the call again.
  generalize echoWorld = w at bound prepared derived accepted defined ran ⊢
  obtain ⟨-, ⟨outs, rfl, equal⟩, blocks⟩ := (untouched_arguments_come_back bound prepared derived
    echoPlan_passes accepted rfl echoArguments_carried defined fun _ => .note _ (.ret _)).of_ok ran
  refine ⟨outs, t, ran, ?_, blocks⟩
  rw [echoArguments_given] at equal
  cases equal with
  | cons same nothing =>
    cases nothing
    exact .cons same .nil

/-- The same call is refused after one that failed while an exception of its callback was pending: the
exception is still there, and it is reported. -/
theorem untouched_arguments_refused :
    let w := echoWorld
    ∃ e s, Session.callNested w 2 [.function ⟨0⟩] "T.boom" none [.function ⟨0⟩] (.start ()) =
        .error (.error e) s ∧
      ∃ t, Session.callNested w 2 echoArguments "T.g" none echoArguments s =
        .error (.error (.script "stale")) t := by
  intro w
  obtain ⟨e, s, failed, refused⟩ :=
    Action.exists_error_such (x := Session.callNested w 2 [.function ⟨0⟩] "T.boom" none [.function ⟨0⟩])
      (s := .start ())
      (fun _ s => (Session.callNested w 2 echoArguments "T.g" none echoArguments).fails s
        fun e _ => e == .script "stale") (by decide +kernel)
  obtain ⟨stale, t, run, same⟩ := Action.exists_error_such _ refused
  exact ⟨e, s, failed, t, beq_iff_eq.1 same ▸ run⟩

end ForeignCall
