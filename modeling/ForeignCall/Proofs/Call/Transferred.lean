import ForeignCall.Proofs.Call.Identity
import ForeignCall.Proofs.Call.Moments
import ForeignCall.Proofs.Call.Receiver

/-!
Who owns the references that a call transfers.

A struct or an object whose transfer is everything is lifted as a wrapper that is to own its block. But
an address with a wrapper that is held always gives that wrapper, and one that was made while native
code kept the block owns nothing. So a transferred block is owned just if no such wrapper is held when it
is lifted. What owns a block frees it with its first release, and nothing else.
-/

set_option autoImplicit false

namespace ForeignCall

open ForeignCall.Action

variable {σ : Type}

/-! ### Releasing a wrapper -/

namespace Session

variable {s : Session σ} {y : Wrapper}

/-- From now on a release of the wrapper frees nothing, whatever is run and released before it. -/
def Spares (s : Session σ) (y : Wrapper) : Prop :=
  ∀ t : Session σ, s.memory.wrappers.Becomes t.memory.wrappers →
    ∃ u, releaseValue (.object y) t = .ok () u ∧ u.memory.heap = t.memory.heap

/-- Whenever the wrapper is released for the first time, its block is freed and nothing else, and no
later release of it frees anything. -/
def FreesOnce (s : Session σ) (y : Wrapper) : Prop :=
  ∀ t : Session σ, s.memory.wrappers.Becomes t.memory.wrappers →
    t.memory.wrappers.disowned.contains y.id = false →
      ∀ size, t.memory.heap.Live ⟨y.address, size⟩ →
        ∃ u, releaseValue (.object y) t = .ok () u ∧
          t.memory.heap.Sheds u.memory.heap [⟨y.address, size⟩] ∧ u.Spares y

theorem spares_of_not_owns (nothing : s.memory.wrappers.owns y = false) : s.Spares y := by
  intro t becomes
  have unowned := becomes.owns_eq_false nothing
  refine ⟨{ t with memory := { t.memory with wrappers := t.memory.wrappers.disown y } }, ?_, rfl⟩
  have state : (get : MemoryM CallError Memory) t.memory = .ok t.memory t.memory := rfl
  simp only [releaseValue, onMemory, Memory.releaseWrapper, bind_of_ok state, unowned]
  rfl

theorem freesOnce_of_adopts (adopts : y.adopts = true) : s.FreesOnce y := by
  intro t _ unreleased size live
  have owned : t.memory.wrappers.owns y = true := by
    rw [WrapperTable.owns, adopts, unreleased]
    rfl
  obtain ⟨g, freed, sheds⟩ := Heap.free_eq live
  let u : Session σ :=
    { t with memory := { t.memory with heap := g, wrappers := t.memory.wrappers.disown y } }
  have releases : (releaseValue (.object y)).Gives t (fun _ v => v = u) (fun _ _ => False)
      fun _ => False := by
    rw [releaseValue, gives_onMemory, Memory.releaseWrapper, gives_bind, gives_get, gives_bind,
      gives_modify, if_pos owned, gives_touch]
    exact gives_of_ok freed rfl
  obtain ⟨_, _, run, rfl⟩ := releases.exists_ok
  exact ⟨u, run, sheds, spares_of_not_owns (t.memory.wrappers.owns_disown y)⟩

end Session

/-! ### What becomes of the table in a run -/

/-- Whatever is run, wrappers are made and nothing else becomes of the table. -/
theorem progress_wraps : Progress fun m t => m.wrappers.Wraps t.wrappers where
  refl _ := .refl _
  trans := .trans
  heap _ _ := .refl _
  registered _ _ _ _ := .refl _
  released _ _ := .refl _
  counted _ _ := .refl _
  retained _ _ _ := .refl _
  wrappers _ _ wraps := wraps
  pending _ _ := .refl _
  native _ _ _ := .refl _
  script _ _ _ := .refl _
  note _ _ := .refl _

/-- Programs, with calls and callbacks in each other, only lead to tables that a table can become, and so
do the steps that the outside takes with wrappers. -/
theorem Session.play_becomes (w : World σ) (depth : Nat) (activities : List (Activity σ)) :
    (play w depth activities).Within fun m t => m.wrappers.Becomes t.wrappers := by
  have p := progress_wraps
  have plays : (play w depth activities).Within fun m t => m.wrappers.Wraps t.wrappers := by
    induction activities with
    | nil => exact within_pure p _
    | cons first rest ih =>
      cases first with
      | script held s => exact (within_runScript p w depth held s).attempt.bind p fun _ => ih
      | native held n => exact (within_runNative p w depth held n).attempt.bind p fun _ => ih
  exact plays.weaken fun _ _ wraps => .wraps .refl wraps

theorem WrapperStep.becomes (w : World σ) (step : WrapperStep) (s : Session σ)
    (made : ∀ y, step = .release (.object y) → y.id < s.memory.wrappers.next) :
    (step.run w).Gives s (fun _ t => s.memory.wrappers.Becomes t.memory.wrappers)
      (fun _ t => s.memory.wrappers.Becomes t.memory.wrappers) fun _ => True := by
  have p := progress_wraps
  have runs {α : Type} {x : SessionM σ α} (wraps : x.Within fun m t => m.wrappers.Wraps t.wrappers) :
      x.Gives s (fun _ t => s.memory.wrappers.Becomes t.memory.wrappers)
        (fun _ t => s.memory.wrappers.Becomes t.memory.wrappers) fun _ => True :=
    (wraps s).mono (fun _ _ wraps => .wraps .refl wraps) fun _ _ wraps => .wraps .refl wraps
  cases step with
  | wrap address typeName adopts =>
    refine runs ?_
    rw [run, Session.wrapPointer]
    split
    · exact within_pure p _
    · refine (Session.within_heldNow p w []).bind p fun held => ?_
      refine (Session.within_onMemory ?_).bind p fun _ => within_pure p _
      exact fun m => m.wrappers.wraps_wrap held address typeName adopts
  | lift held d slot length copy =>
    refine runs ((Session.within_heldNow p w held).bind p fun around => ?_)
    exact Session.within_convert (within_lift p around d slot length copy)
  | release v =>
    rw [run, gives_bind]
    cases v with
    | object y =>
      have disowned {m : Memory} (same : m.wrappers = s.memory.wrappers.disown y) :
          s.memory.wrappers.Becomes m.wrappers := same ▸ .disown .refl (made y rfl)
      rw [Session.releaseValue, Session.gives_onMemory]
      exact (gives_releaseWrapper y s.memory).mono (fun _ _ same => disowned same)
        fun _ _ same => disowned same
    | _ => exact .refl

/-! ### One output -/

theorem Descriptor.isInlineStruct_of_isReference {d : Descriptor} (reference : d.isReference = true) :
    d.isInlineStruct = false := by
  cases d with
  | named type name pointer =>
    cases type with
    | structured size byValue => cases byValue <;> cases pointer <;> first | rfl | cases reference
    | _ => rfl
  | _ => rfl

/-- A reference that is not to be copied is wrapped as one to be owned. -/
theorem lift_adopts {held : List Value} {d : Descriptor} {slot : Slot} {length : Option Nat}
    (reference : d.isReference = true) (nonnull : slot.isNull = false) :
    lift held d slot length false = do
      return .object (← Memory.wrap held slot.toNat d.displayName true) := by
  have somewhere : slot.toNat ≠ 0 := by simpa [Slot.isNull] using nonnull
  have inline := d.isInlineStruct_of_isReference reference
  have wraps : liftInstance held d slot.toNat false = do
      return .object (← Memory.wrap held slot.toNat d.displayName true) := by
    funext m
    have state : (get : ConversionM Memory) m = .ok m m := rfl
    unfold liftInstance
    rw [if_neg somewhere, bind_of_ok state]
    cases found : m.wrappers.lookup? held slot.toNat with
    | some w =>
      have wrapped : (Memory.wrap held slot.toNat d.displayName true : ConversionM Wrapper) m =
          .ok w m := by
        simp only [Memory.wrap, WrapperTable.wrap, found]
      rw [bind_of_ok wrapped]
    | none =>
      dsimp only
      split
      · rw [inline, Bool.false_or, if_neg Bool.false_ne_true]
      · rfl
  cases d with
  | named type name pointer =>
    cases type with
    | object => exact wraps
    | structured size byValue => exact wraps
    | _ => cases reference
  | _ => cases reference

/-- The source of an output delivers the address of a struct or of an object, and with it the block. A
block of the caller is handed over in any case. -/
inductive Source.Transfers (plan : Plan) (s : Scratch) (ret : Slot) : Source → Slot → Prop
  | result (reference : plan.returnType.isReference = true)
      (transferred : plan.returnTransfer = .everything) : Transfers plan s ret .result ret
  | cell {p : Parameter} {position : Nat} {slot : Slot} (reference : p.type.isReference = true)
      (transferred : p.transfer = .everything)
      (own : ∀ block, s.frame.cell? position ≠ some (.block block))
      (reads : FrameM.current position p s = .ok slot s) :
      Transfers plan s ret (.parameter p position) slot
  | block {p : Parameter} {position address : Nat}
      (reference : p.type.byReference.isReference = true)
      (stored : s.frame.cell? position = some (.block address)) :
      Transfers plan s ret (.parameter p position) (.ofNat address)

/-- Steps that gave values to the script and made wrappers. -/
structure Scratch.Yields (s t : Scratch) (values : List Value) : Prop where
  outputs : t.frame.outputs = s.frame.outputs ++ values
  wraps : s.memory.wrappers.Wraps t.memory.wrappers

theorem Scratch.Yields.trans {s t u : Scratch} {values more : List Value} (first : s.Yields t values)
    (second : t.Yields u more) : s.Yields u (values ++ more) :=
  ⟨by rw [second.outputs, first.outputs, List.append_assoc], first.wraps.trans second.wraps⟩

/-- No value held refers to a wrapper of the address that does not own it. -/
def Scratch.Adoptable (s : Scratch) (around : List Value) (address : Nat) : Prop :=
  ∀ y, s.memory.wrappers.lookup? (s.frame.outputs ++ around) address = some y →
    s.memory.wrappers.owns y = true

/-- A value stands for an address, and owns it if nothing prevented that. -/
structure Scratch.Delivered (s t : Scratch) (around : List Value) (slot : Slot) (y : Wrapper) :
    Prop where
  address : y.address = slot.toNat
  owns_iff : t.memory.wrappers.owns y = true ↔ s.Adoptable around slot.toNat

namespace FrameM

variable {plan : Plan} {around : List Value} {ret slot : Slot} {receiver : Option Value}
  {s t : Scratch} {source : Source}

theorem liftOutput_wraps (d : Descriptor) (length : Option Nat) (copy : Bool) :
    (liftOutput around d slot length copy).Gives s (fun _ t => s.Yields t []) (fun _ _ => True)
      fun _ => True := by
  rw [liftOutput, gives_bind, gives_frame, gives_convert]
  refine (within_lift progress_wraps.toQuiet _ d slot length copy s.memory).mono ?_
    fun _ _ _ => trivial
  exact fun _ m wraps => ⟨(List.append_nil _).symm, wraps⟩

theorem settleLifted_yields (d : Descriptor) (transfer : Transfer) (length : Option Nat)
    {values : List Value} (yields : s.Yields t values) :
    (settleLifted d slot transfer length).Gives t (fun _ u => s.Yields u values) (fun _ _ => True)
      fun _ => True := by
  rw [settleLifted, gives_convert, gives_onHeap]
  exact (gives_anyhow _ _).mono (fun _ _ _ => ⟨yields.outputs, yields.wraps⟩) fun _ _ _ => trivial

/-- Every output gives the script one value. -/
theorem liftSource_yields (listed : source ∈ plan.sources) :
    (liftSource around plan ret receiver source).Gives s (fun _ t => ∃ v, s.Yields t [v])
      (fun _ _ => True) fun _ => True := by
  have pushed (v : Value) {t : Scratch} (yields : s.Yields t []) :
      s.Yields { t with frame := { t.frame with outputs := t.frame.outputs ++ [v] } } [v] :=
    ⟨by simp [yields.outputs], yields.wraps⟩
  have begun : s.Yields s [] := ⟨(List.append_nil _).symm, .refl _⟩
  cases source with
  | result =>
    rw [liftSource, liftReturn, skipReturn_of_result listed, Bool.not_false, if_pos rfl, gives_bind]
    refine (across_returnLength Scratch.composes_same plan s).mono ?_ fun _ _ _ => trivial
    rintro length _ rfl
    dsimp only
    split
    · rename_i v _
      rw [gives_bind, pushOutput, gives_modifyFrame]
      exact (settleLifted_yields _ _ _ (pushed v begun)).mono (fun _ _ yields => ⟨v, yields⟩)
        fun _ _ _ => trivial
    · rw [gives_bind]
      refine (liftOutput_wraps _ _ _).mono (fun v t yields => ?_) fun _ _ _ => trivial
      rw [gives_bind, pushOutput, gives_modifyFrame]
      exact (settleLifted_yields _ _ _ (pushed v yields)).mono (fun _ _ yields => ⟨v, yields⟩)
        fun _ _ _ => trivial
  | parameter p position =>
    rw [liftSource, liftParameter, gives_bind]
    refine (across_outputLength Scratch.composes_same plan p s).mono ?_ fun _ _ _ => trivial
    rintro length _ rfl
    rw [gives_bind, gives_frame]
    split
    · rw [gives_bind]
      refine (liftOutput_wraps _ _ _).mono (fun v t yields => ?_) fun _ _ _ => trivial
      rw [gives_bind, pushOutput, gives_modifyFrame, dropCell, gives_modifyFrame]
      exact ⟨v, (pushed v yields).outputs, yields.wraps⟩
    · rw [gives_bind]
      refine (across_current Scratch.composes_same position p _).mono ?_ fun _ _ _ => trivial
      rintro slot _ rfl
      rw [gives_bind]
      refine (liftOutput_wraps _ _ _).mono (fun v t yields => ?_) fun _ _ _ => trivial
      rw [gives_bind, pushOutput, gives_modifyFrame]
      exact (settleLifted_yields _ _ _ (pushed v yields)).mono (fun _ _ yields => ⟨v, yields⟩)
        fun _ _ _ => trivial

theorem liftSources_yield {sources : List Source} (inside : ∀ x ∈ sources, x ∈ plan.sources)
    (ran : sources.forM (liftSource around plan ret receiver) s = .ok () t) :
    ∃ values, values.length = sources.length ∧ s.Yields t values := by
  induction sources generalizing s with
  | nil =>
    cases ran
    exact ⟨[], rfl, (List.append_nil _).symm, .refl _⟩
  | cons first rest ih =>
    obtain ⟨listed, inside⟩ := List.forall_mem_cons.1 inside
    rw [List.forM] at ran
    obtain ⟨_, u, lifted, ran⟩ := exists_of_bind ran
    obtain ⟨v, yields⟩ := (liftSource_yields listed).of_ok lifted
    obtain ⟨values, long, later⟩ := ih inside ran
    exact ⟨v :: values, by rw [List.length_cons, long, List.length_cons], yields.trans later⟩

/-- A transferred reference is given to the script as a wrapper that owns it, unless a value held refers
to one that does not. -/
theorem liftSource_delivers (reached : WrapperTable.empty.Becomes s.memory.wrappers)
    (listed : source ∈ plan.sources) (transfers : source.Transfers plan s ret slot)
    (nonnull : slot.isNull = false)
    (other : source = .result → returnedReceiver? plan ret receiver = none) :
    (liftSource around plan ret receiver source).Gives s
      (fun _ t => ∃ y, s.Yields t [.object y] ∧ s.Delivered t around slot y) (fun _ _ => True)
      fun _ => True := by
  let made (d : Descriptor) : Wrapper × WrapperTable :=
    s.memory.wrappers.wrap (s.frame.outputs ++ around) slot.toNat d.displayName true
  have delivered (d : Descriptor) {t : Scratch}
      (outputs : t.frame.outputs = s.frame.outputs ++ [.object (made d).1])
      (table : t.memory.wrappers = (made d).2) :
      ∃ y, s.Yields t [.object y] ∧ s.Delivered t around slot y := by
    refine ⟨(made d).1, ⟨outputs, table ▸ s.memory.wrappers.wraps_wrap _ _ _ _⟩,
      s.memory.wrappers.wrap_address _ _ _ _, ?_⟩
    rw [table, WrapperTable.owns_wrap reached, Option.all_eq_true]
    rfl
  have lifts (d : Descriptor) (length : Option Nat) (reference : d.isReference = true)
      {ok : Value → Scratch → Prop}
      (given : ok (.object (made d).1)
        { s with memory := { s.memory with wrappers := (made d).2 } }) :
      (liftOutput around d slot length false).Gives s ok (fun _ _ => True) fun _ => True := by
    rw [liftOutput, gives_bind, gives_frame, gives_convert, lift_adopts reference nonnull]
    exact given
  cases transfers with
  | result reference transferred =>
    rw [liftSource, liftReturn, skipReturn_of_result listed, Bool.not_false, if_pos rfl, gives_bind]
    refine (across_returnLength Scratch.composes_same plan s).mono ?_ fun _ _ _ => trivial
    rintro length _ rfl
    rw [other rfl, transferred]
    dsimp only
    rw [gives_bind]
    refine lifts plan.returnType length reference ?_
    rw [gives_bind, pushOutput, gives_modifyFrame, settleLifted,
      Descriptor.freeLifted_eq reference]
    exact delivered plan.returnType rfl rfl
  | @cell p position _ reference transferred own reads =>
    rw [liftSource, liftParameter, gives_bind]
    refine (across_outputLength Scratch.composes_same plan p s).mono ?_ fun _ _ _ => trivial
    rintro length _ rfl
    rw [gives_bind, gives_frame]
    split
    · rename_i block stored
      exact (own block stored).elim
    · rw [gives_bind]
      apply gives_of_ok reads
      rw [transferred, gives_bind]
      refine lifts p.type length reference ?_
      rw [gives_bind, pushOutput, gives_modifyFrame, settleLifted,
        Descriptor.freeLifted_eq reference]
      exact delivered p.type rfl rfl
  | @block p position address reference stored =>
    rw [liftSource, liftParameter, gives_bind]
    refine (across_outputLength Scratch.composes_same plan p s).mono ?_ fun _ _ _ => trivial
    rintro length _ rfl
    rw [gives_bind, gives_frame, stored]
    dsimp only
    rw [gives_bind]
    refine lifts p.type.byReference none reference ?_
    rw [gives_bind, pushOutput, gives_modifyFrame, dropCell, gives_modifyFrame]
    exact delivered p.type.byReference rfl rfl

/-! ### All outputs -/

theorem exists_of_forM_append {α : Type} {step : α → FrameM Unit} {before after : List α} {x : α}
    (ran : (before ++ x :: after).forM step s = .ok () t) :
    ∃ a b, before.forM step s = .ok () a ∧ step x a = .ok () b ∧ after.forM step b = .ok () t := by
  induction before generalizing s with
  | nil =>
    obtain ⟨_, b, here, later⟩ := exists_of_bind ran
    exact ⟨s, b, rfl, here, later⟩
  | cons first before ih =>
    obtain ⟨_, u, stepped, ran⟩ := exists_of_bind ran
    obtain ⟨a, b, earlier, here, later⟩ := ih ran
    exact ⟨a, b, (bind_of_ok stepped).trans earlier, here, later⟩

theorem drainErrorCell_none : drainErrorCell.Gives s (fun record t => record = none → t = s)
    (fun _ _ => True) fun _ => True := by
  rw [drainErrorCell, gives_bind, gives_frame]
  split
  · exact fun _ => rfl
  · rename_i cell _
    rw [gives_bind, gives_touch]
    refine (across_loadPointer Heap.composes_same cell s.memory.heap).mono ?_ fun _ _ _ => trivial
    rintro address _ rfl
    split
    · exact fun _ => rfl
    · rw [gives_bind]
      refine (gives_anyhow _ _).mono (fun record t _ => ?_) fun _ _ _ => trivial
      rw [gives_bind]
      exact (gives_anyhow _ _).mono (fun _ _ _ absent => by cases absent) fun _ _ _ => trivial

/-- A call only gives a value when there was no exception and no error and all outputs were lifted. -/
theorem settle_lifts : (settle around plan ret receiver).Gives s
    (fun v t => plan.sources.forM (liftSource around plan ret receiver) s = .ok () t ∧
      v = resultOf t.frame.outputs) (fun _ _ => True) fun _ => True := by
  rw [settle, gives_bind]
  refine drainErrorCell_none.mono (fun record t unchanged => ?_) fun _ _ _ => trivial
  rw [gives_bind, gives_onMemory, Memory.takePending, gives_bind, gives_get, gives_bind,
    gives_modify, gives_pure]
  have fails (e : CallError) (u : Scratch) {ok : Value → Scratch → Prop} : (do
      discardOutputs plan ret 0
      Action.fail e : FrameM Value).Gives u ok (fun _ _ => True) fun _ => True := by
    rw [gives_bind]
    exact (gives_anyhow _ u).mono (fun _ _ _ => trivial) fun _ _ _ => trivial
  cases waits : t.memory.pending with
  | some e => exact fails e _
  | none =>
    cases record with
    | some record => exact fails _ _
    | none =>
      obtain rfl := unchanged rfl
      have same : ({ t.memory with pending := none } : Memory) = t.memory := by rw [← waits]
      dsimp only
      rw [same, assemble, lift_forM, gives_bind, gives_attempt]
      refine (gives_self _ _).mono (fun _ u lifted => ?_) fun e u _ => ?_
      · rw [gives_bind, gives_frame]
        exact ⟨lifted, rfl⟩
      · rw [gives_bind, gives_frame, gives_bind]
        exact (gives_anyhow _ _).mono (fun _ _ _ => trivial) fun _ _ _ => trivial

end FrameM

/-! ### The call -/

namespace Session

variable {w : World σ} {depth : Nat} {held : List Value} {name : String} {receiver : Option Value}
  {arguments : List Value} {s t u x : Session σ} {plan : Plan} {value : Value} {f : Frame}
  {ret : Slot}

/-- The native function of a call returned. The call has a plan, a frame and what the function gave; the
last session is that after the function. -/
inductive Returns (w : World σ) (depth : Nat) (held : List Value) (name : String)
    (receiver : Option Value) (arguments : List Value) (s : Session σ) :
    Plan → Frame → Slot → Session σ → Prop
  | intro {b : Binding} {s₁ u x : Session σ} {plan : Plan} {address : Option Nat}
      {function : List Slot → Native σ} {slots : List Slot} {f : Frame} {m : Memory} {ret : Slot}
      (bound : bind w name s = .ok b s₁) (prepared : prepare w name b s₁ = .ok plan u)
      (accepted : checkArguments w.environment.repository plan arguments = .ok ())
      (located : receiverAddress plan receiver = .ok address)
      (filled : FrameM.nativeSlots w.environment plan address arguments
        ⟨.start plan.parameters.length, u.memory⟩ = .ok slots ⟨f, m⟩)
      (defined : w.library b.callable.symbolName = some function)
      (ran : (function slots).run (callback w depth held)
        (u.entering m b.callable.symbolName slots) = .ok ret x) :
      Returns w depth held name receiver arguments s plan f ret x

/-- The outputs of a call are lifted from some of its sources, one after the other. -/
def Lifts (w : World σ) (held : List Value) (plan : Plan) (receiver : Option Value) (f : Frame)
    (ret : Slot) (x : Session σ) (sources : List Source) (a : Scratch) : Prop :=
  sources.forM (FrameM.liftSource (held ++ w.kept x.host) plan ret receiver) ⟨f, x.memory⟩ = .ok () a

theorem carryOut_lifts {callback : Nat → List Slot → SessionM σ Slot} {symbol : String}
    {address : Option Nat} :
    (carryOut w callback held symbol plan receiver address arguments).Gives u
      (fun value t => ∃ slots f m function ret x a,
        FrameM.nativeSlots w.environment plan address arguments
          ⟨.start plan.parameters.length, u.memory⟩ = .ok slots ⟨f, m⟩ ∧
        w.library symbol = some function ∧
        (function slots).run callback (u.entering m symbol slots) = .ok ret x ∧
        Lifts w held plan receiver f ret x plan.sources a ∧
        value = FrameM.resultOf a.frame.outputs ∧ a.memory.wrappers.Wraps t.memory.wrappers)
      (fun _ _ => True) fun _ => True := by
  have refused (e : CallError) (released : Except CallError Unit × Frame) (t : Session σ)
      {ok : Value → Session σ → Prop} : (do
        let v ← Action.ofExcept (.error e)
        Action.ofExcept released.1
        return v : SessionM σ Value).Gives t ok (fun _ _ => True) fun _ => True := trivial
  have unwinds (e : CallError) (g : Frame) (t : Session σ) {ok : Value → Session σ → Prop} : (do
        let released ← within g (FrameM.releaseAll plan)
        let v ← Action.ofExcept (.error e)
        Action.ofExcept released.1
        return v : SessionM σ Value).Gives t ok (fun _ _ => True) fun _ => True := by
    rw [gives_bind]
    exact (gives_anyhow _ _).mono (fun released t _ => refused e released t) fun _ _ _ => trivial
  rw [carryOut, gives_bind, execute, gives_bind, gives_within]
  refine (gives_self _ _).mono ?_ fun e v _ => unwinds e _ _
  rintro slots ⟨f, m⟩ filled
  rw [gives_bind, gives_attempt]
  refine (gives_self _ _).mono ?_ fun e v _ => unwinds e _ _
  intro ret x entered
  dsimp only
  rw [gives_bind, heldNow, gives_bind, gives_get, gives_pure, gives_within]
  refine FrameM.settle_lifts.mono ?_ fun e v _ => unwinds e _ _
  rintro value a ⟨lifts, rfl⟩
  dsimp only
  rw [gives_bind, gives_within]
  refine (FrameM.within_releaseAll progress_wraps.toReleasing plan a).mono ?_ fun _ _ _ => trivial
  intro _ z wraps
  cases defined : w.library symbol with
  | none =>
    rw [enter, defined] at entered
    cases entered
  | some function =>
    rw [enter_eq defined] at entered
    exact ⟨slots, f, m, function, ret, x, a, filled, rfl, entered, lifts, rfl, wraps⟩

theorem returns_of_ok (ran : callNested w (depth + 1) held name receiver arguments s = .ok value t) :
    ∃ plan f ret x, Returns w depth held name receiver arguments s plan f ret x ∧
      ∃ a, Lifts w held plan receiver f ret x plan.sources a ∧
        value = FrameM.resultOf a.frame.outputs ∧ a.memory.wrappers.Wraps t.memory.wrappers := by
  have run := ran
  rw [callNested, invoke] at run
  obtain ⟨b, s₁, bound, run⟩ := exists_of_bind run
  obtain ⟨plan, u, prepared, run⟩ := exists_of_bind run
  obtain ⟨_, u', accepts, run⟩ := exists_of_bind run
  cases accepted : checkArguments w.environment.repository plan arguments with
  | error e =>
    rw [accepted] at accepts
    cases accepts
  | ok _ =>
  rw [accepted] at accepts
  cases accepts
  obtain ⟨address, u', locates, -⟩ := exists_of_bind run
  cases located : receiverAddress plan receiver with
  | error e =>
    rw [located] at locates
    cases locates
  | ok _ =>
  rw [callNested_eq bound prepared accepted located] at ran
  obtain ⟨slots, f, m, function, ret, x, a, filled, defined, entered, lifts, same, wraps⟩ :=
    carryOut_lifts.of_ok ran
  exact ⟨plan, f, ret, x, .intro bound prepared accepted located filled defined entered, a, lifts,
    same, wraps⟩

theorem Returns.wraps (returns : Returns w depth held name receiver arguments s plan f ret x) :
    f.outputs = [] ∧ s.memory.wrappers.Wraps x.memory.wrappers := by
  cases returns with
  | @intro b s₁ u _ _ address function slots _ m _ bound prepared accepted located filled defined ran =>
    have memory : u.memory = s.memory :=
      (prepare_keeps.of_ok prepared).1.trans (bind_keeps.of_ok bound).1
    have p := progress_wraps
    have formed :=
      (FrameM.nativeSlots_formed w.environment plan address arguments u.memory).of_ok filled
    have lowered := (FrameM.within_nativeSlots p.toRegistering w.environment plan address arguments
      ⟨.start plan.parameters.length, u.memory⟩).of_ok filled
    rw [memory] at lowered
    have entered := (within_runNative p w depth held (function slots)
      (u.entering m b.callable.symbolName slots)).of_ok ran
    exact ⟨formed.outputs, lowered.trans entered⟩

end Session

/-- Whatever became of the table of wrappers before, every struct or object that a successful call
transfers is given as a wrapper of its address. The wrapper owns the block and its first release frees
exactly that block, while later ones free nothing, just if no value held by the time it is lifted refers
to a wrapper of the address that does not own it. If one does, that one is given, and no release of it
ever frees anything. -/
theorem transferred_owned {w : World σ} {depth : Nat} {held : List Value} {name : String}
    {receiver : Option Value} {arguments : List Value} {s t : Session σ} {value : Value}
    (reached : WrapperTable.empty.Becomes s.memory.wrappers)
    (ran : Session.callNested w (depth + 1) held name receiver arguments s = .ok value t) :
    ∃ plan f ret x outputs,
      Session.Returns w depth held name receiver arguments s plan f ret x ∧
      value = FrameM.resultOf outputs ∧ outputs.length = plan.sources.length ∧
      ∀ before source after, plan.sources = before ++ source :: after →
        ∃ a, Session.Lifts w held plan receiver f ret x before a ∧
          ∀ slot, source.Transfers plan a ret slot → slot.isNull = false →
            (source = .result → FrameM.returnedReceiver? plan ret receiver = none) →
            ∃ y, outputs[before.length]? = some (.object y) ∧ y.address = slot.toNat ∧
              (a.Adoptable (held ++ w.kept x.host) slot.toNat ∧
                  t.memory.wrappers.owns y = true ∧ t.FreesOnce y ∨
                ¬ a.Adoptable (held ++ w.kept x.host) slot.toNat ∧
                  t.memory.wrappers.owns y = false ∧ t.Spares y) := by
  obtain ⟨plan, f, ret, x, returns, total, lifts, rfl, released⟩ := Session.returns_of_ok ran
  obtain ⟨empty, entered⟩ := returns.wraps
  have reached := reached.wraps entered
  obtain ⟨values, long, yields⟩ := FrameM.liftSources_yield (fun _ listed => listed) lifts
  have outputs := yields.outputs
  rw [empty, List.nil_append] at outputs
  refine ⟨plan, f, ret, x, total.frame.outputs, returns, rfl, outputs ▸ long, ?_⟩
  intro before source after split
  rw [Session.Lifts, split] at lifts
  obtain ⟨a, b, first, here, later⟩ := FrameM.exists_of_forM_append lifts
  refine ⟨a, first, fun slot transfers nonnull other => ?_⟩
  have inside : ∀ z ∈ before ++ source :: after, z ∈ plan.sources := fun z listed => split ▸ listed
  obtain ⟨earlier, count, began⟩ := FrameM.liftSources_yield
    (fun z listed => inside z (List.mem_append_left _ listed)) first
  obtain ⟨more, -, ended⟩ := FrameM.liftSources_yield
    (fun z listed => inside z (List.mem_append_right _ (List.mem_cons_of_mem _ listed))) later
  obtain ⟨y, pushed, delivered⟩ := (FrameM.liftSource_delivers (reached.wraps began.wraps)
    (inside source (List.mem_append_right _ List.mem_cons_self)) transfers nonnull other).of_ok here
  have place : total.frame.outputs[before.length]? = some (.object y) := by
    rw [((began.trans pushed).trans ended).outputs, empty, ← count]
    simp
  have owns : t.memory.wrappers.owns y = b.memory.wrappers.owns y :=
    (ended.wraps.trans released).owns_eq y
  refine ⟨y, place, delivered.address, ?_⟩
  cases owned : t.memory.wrappers.owns y with
  | true =>
    have adopts : y.adopts = true := by
      rw [WrapperTable.owns, Bool.and_eq_true] at owned
      exact owned.1
    exact .inl ⟨delivered.owns_iff.1 (owns ▸ owned), rfl, Session.freesOnce_of_adopts adopts⟩
  | false =>
    refine .inr ⟨fun adoptable => ?_, rfl, Session.spares_of_not_owns owned⟩
    rw [owns, delivered.owns_iff.2 adoptable] at owned
    cases owned

/-! ### Two such calls -/

/-- The functions `peek` and `take` both give the object at address 16, and `take` hands it over. -/
def handingWorld : World (List Value) where
  environment :=
    let f (name : String) (transfer : Transfer) : CallableRecord :=
      { namespaceName := "T", name := name, returnType := TypeRecord.byPointer (.named "T.O")
        returnTransfer := transfer }
    let types := Repository.initial.insertEntry { namespaceName := "T", name := "O", kind := .object }
    ⟨(types.insertFunction (f "peek" .nothing)).insertFunction (f "take" .everything), .pin⟩
  library _ := some fun _ => .ret (.ofNat 16)
  script _ _ := .ret .undefined
  kept := id

/-- The session after `peek`, with the values that the host keeps of it. -/
def peeked (kept : List Value) : Session (List Value) :=
  let peek := Session.callNested handingWorld 1 [] "T.peek" none []
  { peek.last (keepingSession [] .empty) with host := kept }

theorem peeked_reached (kept : List Value) :
    WrapperTable.empty.Becomes (peeked kept).memory.wrappers := by
  have wraps := Session.within_callNested progress_wraps handingWorld 1 [] "T.peek" none []
    (keepingSession [] .empty)
  obtain ⟨v, t, peeks⟩ : ∃ v t, Session.callNested handingWorld 1 [] "T.peek" none []
      (keepingSession [] .empty) = .ok v t := exists_ok (by decide +kernel)
  have made := wraps.of_ok peeks
  rw [peeked, last_of_ok peeks]
  exact .wraps .refl made

theorem Value.eq_object_of_wrapper? {v : Value} {y : Wrapper} (stands : v.wrapper? = some y) :
    v = .object y := by
  cases v with
  | object z => exact congrArg Value.object (Option.some.inj stands)
  | _ => cases stands

/-- The host let go of what `peek` gave. The wrapper that `take` gives owns the block. -/
theorem transferred_owned_take :
    ∃ y t, Session.callNested handingWorld 1 [] "T.take" none [] (peeked []) = .ok (.object y) t ∧
      y.address = 16 ∧ t.memory.heap.Live ⟨16, 8⟩ ∧ t.memory.wrappers.owns y = true ∧
      t.FreesOnce y := by
  obtain ⟨v, t, took, facts⟩ :=
    exists_ok_such (x := Session.callNested handingWorld 1 [] "T.take" none []) (s := peeked [])
      (fun v t => v.wrapper?.any t.memory.wrappers.owns && t.memory.heap.blockSize? 16 == some 8)
      (by decide +kernel)
  obtain ⟨plan, u, planned, sources⟩ :=
    exists_ok_such (x := Session.planOf handingWorld "T.take") (s := peeked [])
      (fun plan _ => plan.parameters == [] && !plan.skipReturn && plan.returnType.isReference &&
        plan.returnTransfer == .everything) (by decide +kernel)
  simp only [Bool.and_eq_true, beq_iff_eq, Bool.not_eq_true'] at facts sources
  obtain ⟨owned, live⟩ := facts
  obtain ⟨⟨⟨alone, shown⟩, reference⟩, transferred⟩ := sources
  obtain ⟨plan', f, ret, x, outputs, returns, rfl, long, each⟩ :=
    transferred_owned (peeked_reached []) took
  obtain ⟨rfl, rfl⟩ : plan' = plan ∧ ret = .ofNat 16 := by
    cases returns with
    | intro bound prepared _ _ _ defined ran =>
      rw [Session.planOf, bind_of_ok bound, prepared] at planned
      cases planned
      cases defined
      cases ran
      exact ⟨rfl, rfl⟩
  have one : plan'.sources = [] ++ .result :: [] := by
    rw [Plan.sources, shown, alone]
    rfl
  obtain ⟨a, -, given⟩ := each [] .result [] one
  obtain ⟨y, first, address, kinds⟩ := given _ (.result reference transferred) rfl fun _ => rfl
  obtain ⟨v, rfl⟩ : ∃ v, outputs = [v] := List.length_eq_one_iff.1 (by rw [long, one]; rfl)
  cases first
  refine ⟨y, t, took, address, live, ?_⟩
  rcases kinds with ⟨-, owns⟩ | ⟨-, unowned, -⟩
  · exact owns
  · rw [FrameM.resultOf, Value.wrapper?, Option.any_some, unowned] at owned
    cases owned

/-- The host still holds what `peek` gave, a wrapper that owns nothing. So `take`, which hands the
object over, gives that wrapper, and to release it does not free the block. -/
theorem transferred_unowned :
    WrapperTable.empty.Becomes (peeked [.object borrower]).memory.wrappers ∧
    (∃ plan u, Session.planOf handingWorld "T.take" (peeked [.object borrower]) = .ok plan u ∧
      plan.returnType.isReference = true ∧ plan.returnTransfer = .everything) ∧
    ∃ t, Session.callNested handingWorld 1 [] "T.take" none [] (peeked [.object borrower]) =
        .ok (.object borrower) t ∧ t.memory.wrappers.owns borrower = false ∧
      ∃ u, Session.releaseValue (.object borrower) t = .ok () u ∧ u.memory.heap.Live ⟨16, 8⟩ := by
  obtain ⟨plan, u, planned, kind⟩ :=
    exists_ok_such (x := Session.planOf handingWorld "T.take") (s := peeked [.object borrower])
      (fun plan _ => plan.returnType.isReference && plan.returnTransfer == .everything)
      (by decide +kernel)
  rw [Bool.and_eq_true, beq_iff_eq] at kind
  obtain ⟨v, t, took, facts⟩ :=
    exists_ok_such (x := Session.callNested handingWorld 1 [] "T.take" none [])
      (s := peeked [.object borrower])
      (fun v t => v.wrapper? == some borrower && !t.memory.wrappers.owns borrower &&
        (Session.releaseValue (.object borrower)).succeeds t fun _ u =>
          u.memory.heap.blockSize? 16 == some 8) (by decide +kernel)
  simp only [Bool.and_eq_true, beq_iff_eq, Bool.not_eq_true'] at facts
  obtain ⟨⟨stands, unowned⟩, releases⟩ := facts
  obtain ⟨_, r, released, live⟩ := exists_ok_such _ releases
  obtain rfl := Value.eq_object_of_wrapper? stands
  exact ⟨peeked_reached _, ⟨plan, u, planned, kind⟩, t, took, unowned, r, released, beq_iff_eq.1 live⟩

end ForeignCall
