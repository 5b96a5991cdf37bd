import ForeignCall.Proofs.Call.Frame
import ForeignCall.Proofs.Progress

/-!
Progress of the native state in calls and in the programs on both sides.

The steps of a call itself are followed together with their errors: `x.Stays R E` says what becomes of
the native state and of which kind the errors are, so that each step is taken apart once for both.
-/

set_option autoImplicit false

namespace ForeignCall

open ForeignCall.Action

variable {R : Memory → Memory → Prop}

namespace FrameM

variable {ε α : Type}

theorem within_onMemory {x : MemoryM ε α} (within : x.Within R) :
    (onMemory x : Action ε Scratch α).Within R := by
  intro s
  rw [gives_onMemory]
  exact within s.memory

theorem within_convert {x : ConversionM α} (within : x.Within R) : (convert x).Within R :=
  within_onMemory within.mapError

section

variable (p : Quiet R)

include p

theorem within_touch (x : HeapM α) : (touch x).Within R :=
  within_onMemory (Action.within_touch p x)

theorem within_modifyFrame (f : Frame → Frame) : (modifyFrame f).Within R := fun _ => p.refl _

end

end FrameM

/-! ### Errors -/

/-- The errors of conversions and of native memory are of the kind `E`. -/
structure Admits (E : CallError → Prop) : Prop where
  conversion : ∀ fault, E (.conversion fault)
  heap : ∀ fault, E (.heap fault)

theorem admits_any : Admits fun _ => True := ⟨fun _ => trivial, fun _ => trivial⟩

namespace Action

variable {E : CallError → Prop} {α β : Type} {x : FrameM α}

/-- However the action ends, `R` holds between the native states, and an error it fails with is of the
kind. -/
def Stays (R : Memory → Memory → Prop) (E : CallError → Prop) (x : FrameM α) : Prop :=
  ∀ s, x.Gives s (fun _ t => R s.memory t.memory) (fun e t => R s.memory t.memory ∧ E e)
    fun _ => True

/-- It does not fail itself, and an error that it gives is of the kind. -/
def Gathers (R : Memory → Memory → Prop) (E : CallError → Prop) (x : FrameM (Except CallError α)) :
    Prop :=
  ∀ s, x.Gives s (fun r t => R s.memory t.memory ∧ ∀ e, r = .error e → E e) (fun _ _ => False)
    fun _ => True

theorem Stays.within (stays : x.Stays R E) : x.Within R := fun s =>
  (stays s).mono (fun _ _ step => step) fun _ _ failed => failed.1

theorem Within.stays (within : x.Within R) : x.Stays R fun _ => True := fun s =>
  (within s).mono (fun _ _ step => step) fun _ _ step => ⟨step, trivial⟩

theorem Stays.attempt (stays : x.Stays R E) : (attempt x : FrameM _).Gathers R E := by
  intro s
  rw [gives_attempt]
  refine (stays s).mono (fun _ _ step => ⟨step, nofun⟩) fun e t failed => ⟨failed.1, ?_⟩
  rintro _ ⟨⟩
  exact failed.2

variable (p : Quiet R)

include p

theorem stays_pure (a : α) : (pure a : FrameM α).Stays R E := fun s => p.refl s.memory

theorem stays_fail {e : CallError} (holds : E e) : (fail e : FrameM α).Stays R E := fun s =>
  ⟨p.refl s.memory, holds⟩

theorem Stays.bind {f : α → FrameM β} (first : x.Stays R E) (rest : ∀ a, (f a).Stays R E) :
    (x >>= f).Stays R E := by
  intro s
  rw [gives_bind]
  refine (first s).mono (fun a t step => ?_) fun _ _ failed => failed
  exact (rest a t).mono (fun _ _ later => p.trans step later) fun _ _ failed =>
    ⟨p.trans step failed.1, failed.2⟩

theorem Gathers.bind {x : FrameM (Except CallError α)} {f : Except CallError α → FrameM β}
    (first : x.Gathers R E) (rest : ∀ r, (∀ e, r = .error e → E e) → (f r).Stays R E) :
    (x >>= f).Stays R E := by
  intro s
  rw [gives_bind]
  refine (first s).mono (fun r t caught => ?_) fun _ _ never => never.elim
  exact (rest r caught.2 t).mono (fun _ _ later => p.trans caught.1 later) fun _ _ failed =>
    ⟨p.trans caught.1 failed.1, failed.2⟩

end Action

namespace FrameM

variable {E : CallError → Prop} {α : Type}

section

variable (p : Quiet R) (b : Admits E)

include b

theorem stays_convert {x : ConversionM α} (within : x.Within R) : (convert x).Stays R E := by
  intro s
  rw [gives_convert]
  exact (within s.memory).mono (fun _ _ step => step) fun e _ step => ⟨step, b.conversion e⟩

include p

theorem stays_layout (x : LayoutM α) : (convert (Memory.onHeap x)).Stays R E :=
  stays_convert b (within_onHeap p x)

theorem stays_touch (x : HeapM α) : (touch x).Stays R E := by
  intro s
  rw [gives_touch]
  exact (gives_anyhow x _).mono (fun _ h _ => p.heap s.memory h) fun e h _ =>
    ⟨p.heap s.memory h, b.heap e⟩

omit b

theorem stays_frame : frame.Stays R E := fun s => p.refl s.memory

theorem stays_modifyFrame (f : Frame → Frame) : (modifyFrame f).Stays R E := fun s =>
  p.refl s.memory

theorem stays_pushOutput (v : Value) : (pushOutput v).Stays R E := stays_modifyFrame p _

theorem gathers_tryAll {first : Except CallError Unit} (clean : ∀ e, first = .error e → E e)
    {steps : List (FrameM Unit)} (each : ∀ step ∈ steps, step.Stays R E) :
    (tryAll first steps).Gathers R E := by
  induction steps generalizing first with
  | nil => exact fun s => ⟨p.refl s.memory, clean⟩
  | cons step rest ih =>
    obtain ⟨here, later⟩ := List.forall_mem_cons.1 each
    intro s
    rw [tryAll, keepFirst, bind_assoc, gives_bind]
    refine (here.attempt s).mono (fun second t caught => ?_) fun _ _ never => never
    have kept : ∀ e, (match first with
        | .ok _ => second
        | .error e => .error e) = .error e → E e := by
      cases first with
      | ok done => exact caught.2
      | error e => exact clean
    refine (ih kept later t).mono (fun _ _ both => ⟨p.trans caught.1 both.1, both.2⟩) fun _ _ never => never

include b

theorem stays_setSlot (position : Nat) (q : Parameter) (slot : Slot) :
    (setSlot position q slot).Stays R E := by
  unfold setSlot
  split
  · refine (stays_touch p b _).bind p fun cell => (stays_touch p b _).bind p fun _ => ?_
    exact stays_modifyFrame p _
  · exact stays_modifyFrame p _

theorem stays_setOutput (position : Nat) (q : Parameter) : (setOutput position q).Stays R E := by
  have cell : (allocCell q).Stays R E := by
    unfold allocCell
    split <;> exact (stays_touch p b _).bind p fun _ => stays_pure p _
  exact cell.bind p fun _ => stays_modifyFrame p _

/-! ### Results -/

theorem stays_current (position : Nat) (q : Parameter) : (current position q).Stays R E := by
  refine (stays_frame p).bind p fun f => ?_
  split
  · exact stays_touch p b _
  · exact stays_pure p _
  · exact stays_pure p _

theorem stays_lengthAt (plan : Plan) (position : Nat) : (lengthAt plan position).Stays R E := by
  unfold lengthAt
  split
  · exact stays_pure p _
  · exact (stays_current p b _ _).bind p fun _ => stays_pure p _

theorem stays_outputLength (plan : Plan) (q : Parameter) : (outputLength plan q).Stays R E := by
  unfold outputLength
  split
  · exact stays_lengthAt p b _ _
  · exact stays_pure p _

theorem stays_returnLength (plan : Plan) : (returnLength plan).Stays R E := by
  unfold returnLength
  split
  · exact stays_lengthAt p b _ _
  · exact stays_pure p _

theorem stays_liftOutput (held : List Value) (d : Descriptor) (slot : Slot) (length : Option Nat)
    (copy : Bool) : (liftOutput held d slot length copy).Stays R E :=
  (stays_frame p).bind p fun _ => stays_convert b (within_lift p _ _ _ _ _)

theorem stays_liftReturn (held : List Value) (plan : Plan) (ret : Slot) (receiver : Option Value) :
    (liftReturn held plan ret receiver).Stays R E := by
  unfold liftReturn
  split
  · refine (stays_returnLength p b plan).bind p fun length => ?_
    dsimp only
    split
    · exact (stays_pushOutput p _).bind p fun _ => stays_layout p b _
    · refine (stays_liftOutput p b _ _ _ _ _).bind p fun v => ?_
      exact (stays_pushOutput p v).bind p fun _ => stays_layout p b _
  · exact stays_pure p _

theorem stays_liftParameter (held : List Value) (plan : Plan) (position : Nat) (q : Parameter) :
    (liftParameter held plan position q).Stays R E := by
  refine (stays_outputLength p b plan q).bind p fun length => (stays_frame p).bind p fun f => ?_
  split
  · refine (stays_liftOutput p b _ _ _ _ _).bind p fun v => ?_
    exact (stays_pushOutput p v).bind p fun _ => stays_modifyFrame p _
  · refine (stays_current p b _ _).bind p fun slot => ?_
    refine (stays_liftOutput p b _ _ _ _ _).bind p fun v => ?_
    exact (stays_pushOutput p v).bind p fun _ => stays_layout p b _

theorem stays_liftParameters (held : List Value) (plan : Plan)
    (parameters : List (Parameter × Nat)) : (liftParameters held plan parameters).Stays R E := by
  induction parameters with
  | nil => exact stays_pure p _
  | cons q rest ih =>
    rw [liftParameters]
    split
    · exact (stays_liftParameter p b _ _ _ _).bind p fun _ => ih
    · exact ih

theorem stays_discardReturn (plan : Plan) (ret : Slot) : (discardReturn plan ret).Stays R E := by
  unfold discardReturn
  split
  · exact (stays_returnLength p b plan).bind p fun _ => stays_layout p b _
  · exact stays_pure p _

theorem stays_discardParameter (plan : Plan) (position : Nat) (q : Parameter) :
    (discardParameter plan position q).Stays R E := by
  refine (stays_frame p).bind p fun f => ?_
  split
  · exact (stays_modifyFrame p _).bind p fun _ => stays_touch p b _
  · refine (stays_outputLength p b plan q).bind p fun length => ?_
    exact (stays_current p b _ _).bind p fun slot => stays_layout p b _
  · exact stays_pure p _

theorem stays_discardParameters (plan : Plan) (lifted : Nat)
    (parameters : List (Parameter × Nat)) :
    (discardParameters plan lifted parameters).Stays R E := by
  induction parameters generalizing lifted with
  | nil => cases lifted <;> exact stays_pure p _
  | cons q rest ih =>
    unfold discardParameters
    split
    · exact ih lifted
    · split
      · exact ih _
      · exact (stays_discardParameter p b _ _ _).bind p fun _ => ih 0

theorem stays_discardOutputs (plan : Plan) (ret : Slot) (lifted : Nat) :
    (discardOutputs plan ret lifted).Stays R E := by
  unfold discardOutputs
  dsimp only
  split
  · exact (stays_discardReturn p b plan ret).bind p fun _ => stays_discardParameters p b _ _ _
  · exact stays_discardParameters p b _ _ _

theorem stays_assemble (held : List Value) (plan : Plan) (ret : Slot) (receiver : Option Value) :
    (assemble held plan ret receiver).Stays R E := by
  have lifts := (stays_liftReturn p b held plan ret receiver).bind p fun _ =>
    stays_liftParameters p b held plan plan.parameters.zipIdx
  refine lifts.attempt.bind p fun lifted clean => (stays_frame p).bind p fun f => ?_
  cases lifted with
  | ok done => exact stays_pure p _
  | error e =>
    refine (stays_discardOutputs p b _ _ _).attempt.bind p fun _ _ => ?_
    exact stays_fail p (clean e rfl)

theorem stays_drainErrorCell : drainErrorCell.Stays R E := by
  refine (stays_frame p).bind p fun f => ?_
  split
  · exact stays_pure p _
  · refine (stays_touch p b _).bind p fun address => ?_
    split
    · exact stays_pure p _
    · refine (stays_touch p b _).bind p fun record => ?_
      exact (stays_touch p b _).bind p fun _ => stays_pure p _

theorem stays_releaseInput (plan : Plan) (input : Lowered) :
    (releaseInput plan input).Stays R E := by
  unfold releaseInput
  split
  · exact stays_layout p b _
  · exact stays_pure p _

end

/-! ### Arguments -/

section

variable (p : Registering R) (b : Admits E)

include p b

theorem stays_lowerInput (env : Environment) (q : Parameter) (v : Value) :
    (lowerInput env q v).Stays R E := by
  unfold lowerInput
  split
  · refine Stays.bind p ?_ fun _ => stays_pure p _
    refine (stays_convert b (within_lowerCallback p _ _ _ _ _)).bind p fun slot => ?_
    exact (stays_modifyFrame p _).bind p fun _ => stays_pure p _
  · refine Stays.bind p ?_ fun _ => stays_pure p _
    refine (stays_convert b (within_lowerArray p _ _ _ _)).bind p fun packed => ?_
    dsimp only
    split
    · exact (stays_modifyFrame p _).bind p fun _ => stays_pure p _
    · exact (stays_pure p _).bind p fun _ => stays_pure p _
  · exact (stays_convert b (within_lower p _ _ _ _)).bind p fun _ => stays_pure p _

theorem stays_takeInput (env : Environment) (q : Parameter) (position : Nat) (v : Value) :
    (takeInput env q position v).Stays R E := by
  refine (stays_lowerInput p b _ _ _).bind p fun lowered => ?_
  exact (stays_modifyFrame p _).bind p fun _ => stays_setSlot p b _ _ _

theorem stays_hiddenSlot (env : Environment) (position : Nat) (q : Parameter) :
    (hiddenSlot env position q).Stays R E := by
  refine (stays_frame p).bind p fun f => ?_
  split
  · exact stays_convert b (within_lower p _ _ _ _)
  · exact stays_pure p _

theorem stays_putHidden (env : Environment) (q : Parameter) (position : Nat) :
    (putHidden env q position).Stays R E := by
  unfold putHidden
  split
  · exact stays_setOutput p b _ _
  · exact (stays_hiddenSlot p b _ _ _).bind p fun slot => stays_setSlot p b _ _ _

theorem stays_nativeSlots (env : Environment) (plan : Plan) (receiver : Option Nat)
    (arguments : List Value) : (nativeSlots env plan receiver arguments).Stays R E := by
  have steps : Sequential (Stays R E) := ⟨stays_pure p (), fun first rest => first.bind p rest⟩
  refine Stays.bind p (steps.fillVisible (fun _ _ _ => stays_setOutput p b _ _)
    fun _ _ _ v => stays_takeInput p b _ _ _ v) fun _ => ?_
  refine Stays.bind p (steps.fillHidden fun _ _ => stays_putHidden p b _ _ _) fun _ => ?_
  have cell : (allocErrorCell plan).Stays R E := by
    unfold allocErrorCell
    split
    · exact (stays_touch p b _).bind p fun _ => stays_modifyFrame p _
    · exact stays_pure p _
  exact cell.bind p fun _ => (stays_frame p).bind p fun _ => stays_pure p _

end

/-! ### Settling and releasing -/

theorem stays_releaseAll (p : Releasing R) (b : Admits E) (plan : Plan) :
    (releaseAll plan).Stays R E := by
  refine (stays_frame p).bind p fun f => ?_
  refine (gathers_tryAll p nofun ?_).bind p fun first clean => ?_
  · exact List.forall_mem_map.2 fun input _ => stays_releaseInput p b plan input
  refine (gathers_tryAll p clean ?_).bind p fun first clean => ?_
  · exact List.forall_mem_map.2 fun c _ => stays_touch p b _
  refine (gathers_tryAll p clean ?_).bind p fun first clean => ?_
  · exact List.forall_mem_map.2 fun cell _ => stays_touch p b _
  refine (gathers_tryAll p clean ?_).bind p fun first clean => ?_
  · refine List.forall_mem_map.2 fun address _ => ?_
    exact (stays_convert b (within_releaseTrampoline p address)).bind p fun _ => stays_pure p _
  · cases first with
    | ok done => exact stays_pure p done
    | error e => exact stays_fail p (clean e rfl)

/-! ### Whatever the errors are -/

theorem within_discardOutputs (p : Quiet R) (plan : Plan) (ret : Slot) (lifted : Nat) :
    (discardOutputs plan ret lifted).Within R :=
  (stays_discardOutputs p admits_any plan ret lifted).within

theorem within_assemble (p : Quiet R) (held : List Value) (plan : Plan) (ret : Slot)
    (receiver : Option Value) : (assemble held plan ret receiver).Within R :=
  (stays_assemble p admits_any held plan ret receiver).within

theorem within_drainErrorCell (p : Quiet R) : drainErrorCell.Within R :=
  (stays_drainErrorCell p admits_any).within

theorem within_tryAll (p : Quiet R) (first : Except CallError Unit) (steps : List (FrameM Unit))
    (each : ∀ step ∈ steps, step.Within R) : (tryAll first steps).Within R := fun s =>
  (gathers_tryAll p (fun _ _ => trivial) (fun step listed => (each step listed).stays) s).mono
    (fun _ _ both => both.1) fun _ _ never => never.elim

theorem within_releaseInput (p : Quiet R) (plan : Plan) (input : Lowered) :
    (releaseInput plan input).Within R :=
  (stays_releaseInput p admits_any plan input).within

theorem within_nativeSlots (p : Registering R) (env : Environment) (plan : Plan)
    (receiver : Option Nat) (arguments : List Value) :
    (nativeSlots env plan receiver arguments).Within R :=
  (stays_nativeSlots p admits_any env plan receiver arguments).within

theorem within_releaseAll (p : Releasing R) (plan : Plan) : (releaseAll plan).Within R :=
  (stays_releaseAll p admits_any plan).within

theorem within_settle (p : Quiet R) (taken : ∀ m pending, R m { m with pending := pending })
    (held : List Value) (plan : Plan) (ret : Slot)
    (receiver : Option Value) : (settle held plan ret receiver).Within R := by
  refine (within_drainErrorCell p).bind p fun record => ?_
  refine (within_onMemory (within_takePending p taken)).bind p fun pending => ?_
  split
  · exact (within_discardOutputs p _ _ _).bind p fun _ => within_fail p _
  · split
    · exact (within_discardOutputs p _ _ _).bind p fun _ => within_fail p _
    · exact within_assemble p _ _ _ _

end FrameM

/-! ### Programs -/

section

variable {σ ε α : Type}

theorem Session.within_onMemory {x : MemoryM ε α} (within : x.Within R) :
    (onMemory x : Action ε (Session σ) α).Within R := by
  intro s
  rw [Session.gives_onMemory]
  exact within s.memory

theorem Session.within_convert {x : ConversionM α} (within : x.Within R) :
    (convert x : SessionM σ α).Within R :=
  Session.within_onMemory within.mapError

theorem Session.within_frame {f : Frame} {x : FrameM α} (within : x.Within R) :
    (Session.within f x : SessionM σ _).Within R := by
  intro s
  rw [Session.gives_within]
  exact within ⟨f, s.memory⟩

theorem Session.within_heldNow (p : Quiet R) (w : World σ) (held : List Value) :
    (heldNow w held).Within R :=
  (within_get p).bind p fun _ => within_pure p _

theorem Session.within_bind (p : Quiet R) (w : World σ) (name : String) : (bind w name).Within R := by
  refine (within_get p).bind p fun s => ?_
  split
  · exact within_pure p _
  · split
    · exact within_fail p _
    · exact (within_modify fun s => p.refl s.memory).bind p fun _ => within_pure p _

theorem Session.within_prepare (p : Quiet R) (w : World σ) (name : String) (b : Binding) :
    (prepare w name b).Within R :=
  (within_modify fun s => p.refl s.memory).bind p fun _ => within_ofExcept p _

theorem within_native (p : Steady R)
    (raised : ∀ m e, R m { m with pending := some (m.pending.getD e) })
    {callback : Nat → List Slot → SessionM σ Slot}
    (calls : ∀ address slots, (callback address slots).Within R) (n : Native σ) :
    (n.run callback).Within R := by
  have raises (e : CallError) : (Session.onMemory (Memory.raise e) : SessionM σ Unit).Within R :=
    Session.within_onMemory (within_modify fun m => raised m e)
  induction n with
  | ret slot => exact within_pure p _
  | fault f => exact within_fail p _
  | heap op next ih =>
    exact (Session.within_onMemory (within_onHeap p _)).bind p fun answer => ih answer
  | callback function slots next ih =>
    rw [Native.run]
    refine (calls _ _).attempt.bind p fun answer => ?_
    split
    · exact ih _
    · exact (raises _).bind p fun _ => ih _
  | raise e next ih => exact (raises e).bind p fun _ => ih
  | note n next ih =>
    exact (Session.within_onMemory (within_record fun m => p.note m n)).bind p fun _ => ih
  | read next ih => exact (within_get p).bind p fun s => ih s.host
  | write state next ih => exact (within_modify fun s => p.refl s.memory).bind p fun _ => ih

section

variable (p : Steady R)

include p

theorem within_script {call : List Value → String → Option Value → List Value → SessionM σ Value}
    (calls : ∀ held name receiver arguments, (call held name receiver arguments).Within R)
    (held : List Value) (script : Script σ) : (script.run call held).Within R := by
  induction script generalizing held with
  | ret v => exact within_pure p _
  | throw e => exact within_fail p _
  | call name receiver arguments next ih =>
    exact (calls _ _ _ _).attempt.bind p fun answer => ih answer _
  | wrap address typeName adopts next ih =>
    exact (Session.within_onMemory (within_freshWrapper p _ _ _)).bind p fun w => ih w _
  | read next ih => exact (within_get p).bind p fun s => ih s.host held
  | write state next ih => exact (within_modify fun s => p.refl s.memory).bind p fun _ => ih held

variable {w : World σ}

theorem within_enterCallback {runScript : List Value → Script σ → SessionM σ Value}
    (runs : ∀ held script, (runScript held script).Within R) (held : List Value) (address : Nat)
    (slots : List Slot) : (enterCallback w runScript held address slots).Within R := by
  unfold enterCallback
  split
  · refine (Session.within_convert (within_releaseTrampoline p _)).bind p fun _ => ?_
    exact within_pure p _
  · refine (within_get p).bind p fun s => ?_
    split
    · exact within_fail p _
    · refine (Session.within_heldNow p w held).bind p fun around => ?_
      refine (Session.within_convert (within_liftArguments p _ _ _ _)).bind p fun arguments => ?_
      refine (Session.within_onMemory (within_record fun m => p.script m _ _)).bind p fun _ => ?_
      refine (runs _ _).attempt.bind p fun result => ?_
      refine (Session.within_convert (within_endInvocation p _)).bind p fun _ => ?_
      refine (within_ofExcept p result).bind p fun v => ?_
      exact Session.within_convert (within_lowerResult p p.retained _ _ _ _)

end

/-! ### Invocation -/

variable {callback : Nat → List Slot → SessionM σ Slot} {w : World σ}

theorem Session.within_invoke (p : Steady R) {held arguments : List Value} {receiver : Option Value}
    (executes : ∀ symbol plan address,
      (execute w callback held symbol plan receiver address arguments).Within R) (name : String) :
    (invoke w callback held name receiver arguments).Within R := by
  refine (within_bind p w name).bind p fun b => (within_prepare p w name b).bind p fun plan => ?_
  refine (within_ofExcept p _).bind p fun _ => (within_ofExcept p _).bind p fun address => ?_
  refine (executes _ _ _).bind p fun outcome => ?_
  refine (within_frame (FrameM.within_releaseAll p plan)).bind p fun released => ?_
  refine (within_ofExcept p _).bind p fun v => ?_
  exact (within_ofExcept p _).bind p fun _ => within_pure p _

variable (p : Progress R)

include p

theorem Session.within_enter (calls : ∀ address slots, (callback address slots).Within R)
    (symbol : String) (slots : List Slot) : (enter w callback symbol slots).Within R := by
  refine (within_onMemory (within_record fun m => p.native m _ _)).bind p fun _ => ?_
  split
  · exact within_native p (fun m _ => p.pending m _) calls _
  · exact within_fail p _

theorem Session.within_execute (calls : ∀ address slots, (callback address slots).Within R)
    (held : List Value) (symbol : String) (plan : Plan) (receiver : Option Value)
    (address : Option Nat) (arguments : List Value) :
    (execute w callback held symbol plan receiver address arguments).Within R := by
  refine (within_frame (FrameM.within_nativeSlots p _ _ _ _)).bind p fun filled => ?_
  dsimp only
  split
  · exact within_pure p _
  · refine (within_enter p calls symbol _).attempt.bind p fun ret => ?_
    split
    · exact within_pure p _
    · refine (within_heldNow p w held).bind p fun around => ?_
      exact within_frame (FrameM.within_settle p p.pending _ _ _ _)

theorem Session.within_callNested (w : World σ) (depth : Nat) (held : List Value) (name : String)
    (receiver : Option Value) (arguments : List Value) :
    (callNested w depth held name receiver arguments).Within R := by
  induction depth generalizing held name receiver arguments with
  | zero => exact within_endless
  | succ depth ih =>
    refine within_invoke p (fun _ _ _ => within_execute p (fun address slots => ?_) _ _ _ _ _ _) name
    exact within_enterCallback p (fun held script => within_script p ih held script) held _ _

theorem Session.within_runScript (w : World σ) (depth : Nat) (held : List Value) (s : Script σ) :
    (runScript w depth held s).Within R :=
  within_script p (within_callNested p w depth) held s

theorem Session.within_callback (w : World σ) (depth : Nat) (held : List Value) (address : Nat)
    (slots : List Slot) : (Session.callback w depth held address slots).Within R :=
  within_enterCallback p (within_runScript p w depth) held address slots

theorem Session.within_runNative (w : World σ) (depth : Nat) (held : List Value) (n : Native σ) :
    (runNative w depth held n).Within R :=
  within_native p (fun m _ => p.pending m _) (within_callback p w depth held) n

end

theorem steady_pending : Steady fun m t => t.pending = m.pending where
  refl _ := rfl
  trans first second := second.trans first
  heap _ _ := rfl
  registered _ _ _ _ := rfl
  released _ _ := rfl
  counted _ _ := rfl
  retained _ _ _ := rfl
  wrappers _ _ _ := rfl
  native _ _ _ := rfl
  script _ _ _ := rfl
  note _ _ := rfl

theorem progress_journal :
    Progress fun m t => m.journal.toList <+: t.journal.toList where
  refl _ := List.prefix_rfl
  trans := List.IsPrefix.trans
  heap _ _ := List.prefix_rfl
  registered _ _ _ _ := by simp
  released _ _ := by simp
  counted _ _ := List.prefix_rfl
  retained _ _ _ := List.prefix_rfl
  wrappers _ _ _ := List.prefix_rfl
  pending _ _ := List.prefix_rfl
  native _ _ _ := by simp
  script _ _ _ := by simp
  note _ _ := by simp

end ForeignCall
