import ForeignCall.Proofs.Call.Failure
import ForeignCall.Proofs.Call.Formed
import ForeignCall.Proofs.Conversion.Clearing

/-!
The scratch memory of a call does not outlive it.

A cell leaves the frame in two ways only: its block is lifted, or it is freed. Lifting comes first, and
from then on nothing is allocated, so that what is freed stays free. The release at the end tries
every cell that is left and every trampoline of the call, whichever of the steps before it failed.
-/

set_option autoImplicit false

namespace ForeignCall

open ForeignCall.Action

variable {plan : Plan} {p : Parameter} {c : Cell} {f g : Frame} {s t : Scratch} {position i : Nat}
  {around outputs : List Value}

/-! ### Lifted blocks -/

theorem Memory.gives_wrap {ε : Type} {m : Memory} {held : List Value} {address : Nat}
    {typeName : String} {adopts : Bool} {after : Wrapper → Memory → Prop}
    {failed : ε → Memory → Prop} {halted : Halt → Prop} :
    (Memory.wrap held address typeName adopts).Gives m after failed halted ↔
      after (m.wrappers.wrap held address typeName adopts).1
        { m with wrappers := (m.wrappers.wrap held address typeName adopts).2 } :=
  Iff.rfl

/-- A caller-allocated block is among the outputs as a wrapper for its address. The wrapper takes it
over, unless it is one that a value held by then refers to. -/
inductive Cell.LiftedInto (around outputs : List Value) : Cell → Prop where
  | block {address : Nat} {w : Wrapper} {before after : List Value}
      (place : outputs = before ++ .object w :: after) (stands : w.address = address)
      (adopts : Value.anyHolds w.id (before ++ around) = false → w.adopts = true) :
      LiftedInto around outputs (.block address)

theorem Cell.LiftedInto.grows {more : List Value} (lifted : c.LiftedInto around outputs)
    (grown : outputs <+: more) : c.LiftedInto around more := by
  obtain ⟨rest, rfl⟩ := grown
  cases lifted with
  | @block address w before after place stands adopts =>
    have place : outputs ++ rest = before ++ .object w :: (after ++ rest) := by simp [place]
    exact .block place stands adopts

/-- Every cell suits the parameter it is for. -/
def Frame.Typed (plan : Plan) (f : Frame) : Prop :=
  ∀ i c, f.cell? i = some c → ∃ p, plan.parameters[i]? = some p ∧ c.Suits p

theorem Frame.Formed.typed (formed : f.Formed plan) : f.Typed plan := by
  intro i c listed
  obtain ⟨p, source, -, -, suits⟩ := formed.cells i c listed
  exact ⟨p, source, suits⟩

/-- A cell only left the frame because its block was lifted. -/
structure Frame.Lifts (plan : Plan) (around : List Value) (f g : Frame) : Prop where
  typed : g.Typed plan
  errorCell : g.errorCell = f.errorCell
  callScoped : g.callScoped = f.callScoped
  outputs : f.outputs <+: g.outputs
  cells : ∀ i c, f.cell? i = some c → g.cell? i = some c ∨ c.LiftedInto around g.outputs

def Scratch.Lifts (plan : Plan) (around : List Value) (s t : Scratch) : Prop :=
  s.frame.Typed plan → s.frame.Lifts plan around t.frame

theorem Frame.Typed.lifts (typed : f.Typed plan) : f.Lifts plan around f :=
  ⟨typed, rfl, rfl, List.prefix_rfl, fun _ _ kept => .inl kept⟩

theorem Scratch.composes_same : Composes fun s t : Scratch => t = s :=
  ⟨fun _ => rfl, fun first second => second.trans first⟩

theorem Scratch.composes_lifts (plan : Plan) (around : List Value) :
    Composes (Scratch.Lifts plan around) where
  refl _ typed := typed.lifts
  trans first second typed := by
    have lifts := first typed
    have lifts' := second lifts.typed
    refine ⟨lifts'.typed, lifts'.errorCell.trans lifts.errorCell,
      lifts'.callScoped.trans lifts.callScoped, lifts.outputs.trans lifts'.outputs, ?_⟩
    intro i c listed
    rcases lifts.cells i c listed with kept | lifted
    · exact lifts'.cells i c kept
    · exact .inr (lifted.grows lifts'.outputs)

/-- Nothing but releases, of which the frame knows nothing. -/
structure Scratch.Clears (s t : Scratch) : Prop where
  frame : t.frame = s.frame
  memory : s.memory.Clears t.memory

theorem Scratch.composes_clears : Composes Scratch.Clears where
  refl s := ⟨rfl, Memory.composes_clears.refl s.memory⟩
  trans first second :=
    ⟨second.frame.trans first.frame, Memory.composes_clears.trans first.memory second.memory⟩

/-- Nothing was allocated, and a cell only left the frame because it was freed. -/
structure Scratch.Discards (s t : Scratch) : Prop where
  memory : s.memory.Clears t.memory
  errorCell : t.frame.errorCell = s.frame.errorCell
  callScoped : t.frame.callScoped = s.frame.callScoped
  outputs : t.frame.outputs = s.frame.outputs
  cells : ∀ i c, s.frame.cell? i = some c →
    t.frame.cell? i = some c ∨ t.memory.heap.isLive c.address = false

theorem Scratch.Clears.discards (clears : s.Clears t) : s.Discards t := by
  refine ⟨clears.memory, ?_, ?_, ?_, fun i c kept => .inl ?_⟩ <;> rw [clears.frame]
  exact kept

theorem Scratch.composes_discards : Composes Scratch.Discards where
  refl s := (Scratch.composes_clears.refl s).discards
  trans first second := by
    refine ⟨Memory.composes_clears.trans first.memory second.memory,
      second.errorCell.trans first.errorCell, second.callScoped.trans first.callScoped,
      second.outputs.trans first.outputs, fun i c listed => ?_⟩
    rcases first.cells i c listed with kept | freed
    · exact second.cells i c kept
    · exact .inr (second.memory.blocks.not_live freed)

theorem Frame.cell?_drop (f : Frame) (i : Nat) :
    ({ f with cells := f.cells.set position none } : Frame).cell? i =
      if i = position then none else f.cell? i := by
  simp only [Frame.cell?, List.getElem?_set]
  grind

namespace FrameM

/-! ### Reading -/

section Reading

variable {R : Scratch → Scratch → Prop} (comp : Composes R)

include comp

theorem across_touch_load (address size : Nat) : (touch (Heap.load address size)).Across R := by
  intro s
  rw [gives_touch]
  refine (across_load Heap.composes_same address size s.memory.heap).mono ?_ ?_
  · rintro _ _ rfl
    exact comp.refl s
  · rintro _ _ rfl
    exact comp.refl s

theorem across_current (position : Nat) (p : Parameter) : (current position p).Across R := by
  intro s
  rw [current, Action.gives_bind, gives_frame]
  split
  · exact across_touch_load comp _ _ s
  · exact comp.refl s
  · exact comp.refl s

theorem across_lengthAt (plan : Plan) (position : Nat) : (lengthAt plan position).Across R := by
  unfold lengthAt
  split
  · exact across_pure comp _
  · exact (across_current comp position _).bind comp fun _ => across_pure comp _

theorem across_outputLength (plan : Plan) (p : Parameter) : (outputLength plan p).Across R := by
  unfold outputLength
  split
  · exact across_lengthAt comp plan _
  · exact across_pure comp _

theorem across_returnLength (plan : Plan) : (returnLength plan).Across R := by
  unfold returnLength
  split
  · exact across_lengthAt comp plan _
  · exact across_pure comp _

end Reading

/-! ### Lifting -/

theorem across_convert {α : Type} {R : Scratch → Scratch → Prop} {x : ConversionM α}
    (still : ∀ s m, R s { s with memory := m }) : (convert x).Across R :=
  across_onMemory still

theorem lifts_still (s : Scratch) (m : Memory) : s.Lifts plan around { s with memory := m } :=
  fun typed => typed.lifts

theorem pushOutput_lifts (v : Value) : (pushOutput v).Across (Scratch.Lifts plan around) :=
  across_modify fun _ typed =>
    ⟨typed, rfl, rfl, List.prefix_append _ _, fun _ _ kept => .inl kept⟩

theorem liftOutput_lifts (d : Descriptor) (slot : Slot) (length : Option Nat) (copy : Bool) :
    (liftOutput around d slot length copy).Across (Scratch.Lifts plan around) := by
  have comp := Scratch.composes_lifts plan around
  exact Across.bind comp ((across_get comp).bind comp fun _ => across_pure comp _) fun f =>
    across_convert lifts_still

theorem liftReturn_lifts (ret : Slot) (receiver : Option Value) :
    (liftReturn around plan ret receiver).Across (Scratch.Lifts plan around) := by
  have comp := Scratch.composes_lifts plan around
  unfold liftReturn
  split
  · refine (across_returnLength comp plan).bind comp fun length => ?_
    dsimp only
    split
    · exact (pushOutput_lifts _).bind comp fun _ => across_convert lifts_still
    · refine (liftOutput_lifts _ _ _ _).bind comp fun v => ?_
      exact (pushOutput_lifts v).bind comp fun _ => across_convert lifts_still
  · exact across_pure comp ()

/-- The block of a struct is lifted as a wrapper for its address. -/
theorem lift_block {m : Memory} {held : List Value} {address : Nat}
    (suits : (Cell.block address).Suits p) :
    (lift held p.type.byReference (.ofNat address) none false).Gives m
      (fun v _ => ∃ w, v = .object w ∧ w.address = address ∧
        (Value.anyHolds w.id held = false → w.adopts = true))
      (fun _ _ => True) fun _ => True := by
  obtain ⟨positive, small, size, byValue, name, pointer, type⟩ := suits
  have nonnull : (Slot.ofNat address).toNat ≠ 0 := by
    rw [Slot.toNat_ofNat small]
    omega
  rw [type, Descriptor.byReference, lift, liftInstance, if_neg nonnull, Action.gives_bind,
    Action.gives_get, Slot.toNat_ofNat small]
  split
  · rename_i w found
    obtain ⟨stands, holds⟩ := WrapperTable.address_of_lookup? found
    exact ⟨w, rfl, stands, fun fresh => by simp [holds] at fresh⟩
  · rename_i missing
    have referred : (Descriptor.named (.structured (some size) byValue) name true).isInlineStruct =
        false := by cases byValue <;> rfl
    have fresh := WrapperTable.wrap_of_missing missing name true
    rw [referred, if_neg (by simp), Action.gives_bind, Memory.gives_wrap, Descriptor.displayName, fresh]
    exact ⟨_, rfl, rfl, fun _ => rfl⟩

theorem liftParameter_lifts (found : plan.parameters[position]? = some p) :
    (liftParameter around plan position p).Across (Scratch.Lifts plan around) := by
  have comp := Scratch.composes_lifts plan around
  intro s
  by_cases typed : s.frame.Typed plan
  · rw [liftParameter, Action.gives_bind]
    refine (across_outputLength Scratch.composes_same plan p s).mono ?_ ?_
    · rintro length _ rfl
      rw [Action.gives_bind, gives_frame]
      split
      · rename_i address listed
        obtain ⟨q, source, suits⟩ := typed position _ listed
        cases found.symm.trans source
        rw [Action.gives_bind, liftOutput, Action.gives_bind, gives_frame, gives_convert]
        refine (lift_block suits).mono ?_ fun _ _ _ => lifts_still _ _
        rintro v m ⟨w, rfl, stands, adopts⟩
        rw [Action.gives_bind, pushOutput, gives_modifyFrame, dropCell, gives_modifyFrame]
        intro _
        refine ⟨fun i c kept => ?_, rfl, rfl, List.prefix_append _ _, fun i c kept => ?_⟩
        · rw [Frame.cell?_drop] at kept
          split at kept
          · cases kept
          · exact typed i c kept
        · rw [Frame.cell?_drop]
          split
          · rename_i here
            subst here
            cases kept.symm.trans listed
            exact .inr (.block rfl stands adopts)
          · exact .inl kept
      · refine Across.bind comp (across_current comp position p) (fun slot => ?_) _
        refine (liftOutput_lifts _ _ _ _).bind comp fun v => ?_
        exact (pushOutput_lifts v).bind comp fun _ => across_convert lifts_still
    · rintro e _ rfl
      exact comp.refl _
  · exact (Action.gives_anyhow _ s).mono (fun _ _ _ absurd => (typed absurd).elim)
      fun _ _ _ absurd => (typed absurd).elim

theorem liftParameters_lifts {parameters : List (Parameter × Nat)}
    (inside : ∀ e ∈ parameters, plan.parameters[e.2]? = some e.1) :
    (liftParameters around plan parameters).Across (Scratch.Lifts plan around) := by
  have comp := Scratch.composes_lifts plan around
  induction parameters with
  | nil => exact across_pure comp ()
  | cons first rest ih =>
    obtain ⟨p, position⟩ := first
    obtain ⟨found, inside'⟩ := List.forall_mem_cons.1 inside
    rw [liftParameters]
    split
    · exact (liftParameter_lifts found).bind comp fun _ => ih inside'
    · exact ih inside'

/-! ### Discarding -/

theorem convert_clears {α : Type} {x : ConversionM α} (clears : x.Across Memory.Clears) :
    (convert x).Across Scratch.Clears := by
  intro s
  rw [gives_convert]
  exact (clears s.memory).mono (fun _ _ memory => ⟨rfl, memory⟩) fun _ _ memory => ⟨rfl, memory⟩

theorem touch_clears {α : Type} {x : HeapM α} (clears : x.Across Heap.Clears) :
    (touch x).Across Scratch.Clears := by
  intro s
  rw [gives_touch]
  exact (clears s.memory.heap).mono (fun _ _ blocks => ⟨rfl, .of_heap blocks⟩)
    fun _ _ blocks => ⟨rfl, .of_heap blocks⟩

theorem freeValue_clears (d : Descriptor) (slot : Slot) (transfer : Transfer)
    (direction : Direction) (length : Option Nat) :
    (convert (Memory.onHeap (freeValue d slot transfer direction length))).Across Scratch.Clears :=
  convert_clears (Memory.across_onHeap (across_release d slot _ length))

theorem freeValue_discards (d : Descriptor) (slot : Slot) (transfer : Transfer)
    (direction : Direction) (length : Option Nat) :
    (convert (Memory.onHeap (freeValue d slot transfer direction length))).Across
      Scratch.Discards :=
  (freeValue_clears d slot transfer direction length).weaken fun _ _ => Scratch.Clears.discards

theorem discardReturn_discards (ret : Slot) : (discardReturn plan ret).Across Scratch.Discards := by
  have comp := Scratch.composes_discards
  unfold discardReturn
  split
  · exact (across_returnLength comp plan).bind comp fun length => freeValue_discards _ _ _ _ _
  · exact across_pure comp ()

/-- After an attempt to free an address it is not live. -/
theorem touch_free_gone (address : Nat) (s : Scratch) :
    (touch (Heap.free address)).Gives s
      (fun _ t => s.Clears t ∧ t.memory.heap.isLive address = false)
      (fun _ t => s.Clears t ∧ t.memory.heap.isLive address = false) fun _ => True := by
  rw [gives_touch]
  exact ((Heap.gives_free address s.memory.heap).mono
    (fun _ _ ⟨blocks, gone⟩ => ⟨⟨rfl, .of_heap blocks⟩, gone⟩)
    fun _ _ ⟨blocks, gone⟩ => ⟨⟨rfl, .of_heap blocks⟩, gone⟩).partly

theorem discardParameter_discards : (discardParameter plan position p).Across Scratch.Discards := by
  have comp := Scratch.composes_discards
  intro s
  rw [discardParameter, Action.gives_bind, gives_frame]
  split
  · rename_i address listed
    let dropped : Scratch := { s with frame := { s.frame with cells := s.frame.cells.set position none } }
    have freed (t : Scratch) : dropped.Clears t ∧ t.memory.heap.isLive address = false →
        s.Discards t := by
      rintro ⟨⟨frame, memory⟩, gone⟩
      refine ⟨memory, by rw [frame], by rw [frame], by rw [frame], fun i c kept => ?_⟩
      rw [frame, Frame.cell?_drop]
      split
      · rename_i here
        subst here
        cases kept.symm.trans listed
        exact .inr gone
      · exact .inl kept
    rw [Action.gives_bind, dropCell, gives_modifyFrame]
    exact (touch_free_gone address dropped).mono (fun _ => freed) fun _ => freed
  · refine Across.bind comp (across_outputLength comp plan p) (fun length => ?_) s
    exact (across_current comp position p).bind comp fun slot => freeValue_discards _ _ _ _ _
  · exact comp.refl s

theorem discardParameters_discards (lifted : Nat) (parameters : List (Parameter × Nat)) :
    (discardParameters plan lifted parameters).Across Scratch.Discards := by
  have comp := Scratch.composes_discards
  induction parameters generalizing lifted with
  | nil => exact across_pure comp ()
  | cons first rest ih =>
    obtain ⟨p, position⟩ := first
    unfold discardParameters
    split
    · exact ih lifted
    · cases lifted with
      | zero => exact discardParameter_discards.bind comp fun _ => ih 0
      | succ lifted => exact ih lifted

theorem discardOutputs_discards (ret : Slot) (lifted : Nat) :
    (discardOutputs plan ret lifted).Across Scratch.Discards := by
  have comp := Scratch.composes_discards
  unfold discardOutputs
  dsimp only
  by_cases first : lifted = 0
  · rw [if_pos first]
    exact (discardReturn_discards ret).bind comp fun _ => discardParameters_discards _ _
  · rw [if_neg first]
    exact discardParameters_discards _ _

/-! ### Settling -/

/-- A cell only left the frame because it was freed or because its block was lifted. -/
structure Settles (around : List Value) (f : Frame) (t : Scratch) : Prop where
  errorCell : t.frame.errorCell = f.errorCell
  callScoped : t.frame.callScoped = f.callScoped
  cells : ∀ i c, f.cell? i = some c → t.frame.cell? i = some c ∨
    t.memory.heap.isLive c.address = false ∨ c.LiftedInto around t.frame.outputs

theorem settles_of_discards {u : Scratch} (frame : u.frame = f) (discards : u.Discards t) :
    Settles around f t := by
  refine ⟨by rw [discards.errorCell, frame], by rw [discards.callScoped, frame], fun i c listed => ?_⟩
  rw [← frame] at listed
  rcases discards.cells i c listed with kept | freed
  · exact .inl kept
  · exact .inr (.inl freed)

theorem settles_of_lifts {u v : Scratch} (frame : u.frame = f)
    (lifts : u.frame.Lifts plan around v.frame) (discards : v.Discards t) :
    Settles around f t := by
  refine ⟨by rw [discards.errorCell, lifts.errorCell, frame],
    by rw [discards.callScoped, lifts.callScoped, frame], fun i c listed => ?_⟩
  rw [← frame] at listed
  rw [discards.outputs]
  rcases lifts.cells i c listed with kept | lifted
  · rcases discards.cells i c kept with kept | freed
    · exact .inl kept
    · exact .inr (.inl freed)
  · exact .inr (.inr lifted)

theorem assemble_settles {u : Scratch} {ret : Slot} {receiver : Option Value}
    (frame : u.frame = f) (typed : f.Typed plan) :
    (assemble around plan ret receiver).Gives u
      (fun v t => v = resultOf t.frame.outputs ∧ Settles around f t)
      (fun _ t => Settles around f t) fun _ => True := by
  have lifts : (do
      liftReturn around plan ret receiver
      liftParameters around plan plan.parameters.zipIdx).Across (Scratch.Lifts plan around) :=
    (liftReturn_lifts ret receiver).bind (Scratch.composes_lifts plan around) fun _ =>
      liftParameters_lifts plan.getElem?_position
  rw [← frame] at typed
  rw [assemble, Action.gives_bind, Action.gives_attempt]
  refine (lifts u).mono (fun _ v lifted => ?_) fun e v lifted => ?_
  · rw [Action.gives_bind, gives_frame]
    exact ⟨rfl, settles_of_lifts frame (lifted typed) (Scratch.composes_discards.refl v)⟩
  · rw [Action.gives_bind, gives_frame]
    dsimp only
    rw [Action.gives_bind, Action.gives_attempt]
    exact (discardOutputs_discards ret _ v).mono
      (fun _ _ discards => settles_of_lifts frame (lifted typed) discards)
      fun _ _ discards => settles_of_lifts frame (lifted typed) discards

theorem drainErrorCell_clears : drainErrorCell.Across Scratch.Clears := by
  have comp := Scratch.composes_clears
  have reads := Heap.composes_clears
  intro s
  rw [drainErrorCell, Action.gives_bind, gives_frame]
  split
  · exact comp.refl s
  · rename_i cell _
    refine Across.bind comp (touch_clears (across_loadPointer reads cell)) (fun address => ?_) s
    split
    · exact across_pure comp none
    · refine (touch_clears (across_readError reads address)).bind comp fun record => ?_
      exact (touch_clears (Heap.across_freeError address)).bind comp fun _ => across_pure comp _

theorem takePending_clears :
    (onMemory Memory.takePending : FrameM (Option CallError)).Across Scratch.Clears := by
  intro s
  rw [gives_onMemory]
  exact ⟨rfl, fun _ live => live, fun _ none => none⟩

theorem settle_settles {ret : Slot} {receiver : Option Value} (typed : s.frame.Typed plan) :
    (settle around plan ret receiver).Gives s
      (fun v t => v = resultOf t.frame.outputs ∧ Settles around s.frame t)
      (fun _ t => Settles around s.frame t) fun _ => True := by
  rw [settle, Action.gives_bind]
  refine (drainErrorCell_clears s).mono (fun record t drained => ?_) fun _ t drained =>
    settles_of_discards rfl drained.discards
  rw [Action.gives_bind]
  refine (takePending_clears t).mono (fun pending u taken => ?_) fun _ u taken =>
    settles_of_discards drained.frame taken.discards
  have frame : u.frame = s.frame := taken.frame.trans drained.frame
  have discarded (e : CallError) : (do
      discardOutputs plan ret 0
      Action.fail e : FrameM Value).Gives u
        (fun v t => v = resultOf t.frame.outputs ∧ Settles around s.frame t)
        (fun _ t => Settles around s.frame t) fun _ => True := by
    rw [Action.gives_bind]
    exact (discardOutputs_discards ret 0 u).mono
      (fun _ _ discards => settles_of_discards frame discards)
      fun _ _ discards => settles_of_discards frame discards
  cases pending with
  | some e => exact discarded e
  | none =>
    cases record with
    | some record => exact discarded (.native record)
    | none => exact assemble_settles frame typed

/-! ### The release -/

section Release

variable {α : Type} {step : α → FrameM Unit} {first : Except CallError Unit}
  {done : α → Scratch → Prop}

/-- Every step is tried, so that what each step does is done, if no other step undoes it. -/
theorem tryAll_reaches (todo : List α)
    (each : ∀ a ∈ todo, ∀ s, (step a).Gives s (fun _ t => s.Clears t ∧ done a t)
      (fun _ t => s.Clears t ∧ done a t) fun _ => True)
    (stays : ∀ a s t, s.Clears t → done a s → done a t) (s : Scratch) :
    (tryAll first (todo.map step)).Gives s (fun _ t => s.Clears t ∧ ∀ a ∈ todo, done a t)
      (fun _ _ => False) fun _ => True := by
  have comp := Scratch.composes_clears
  induction todo generalizing s first with
  | nil => exact ⟨comp.refl s, fun _ absurd => nomatch absurd⟩
  | cons a rest ih =>
    obtain ⟨here, later⟩ := List.forall_mem_cons.1 each
    have tried : ∀ (second : Except CallError Unit) (t : Scratch), s.Clears t ∧ done a t →
        (tryAll second (rest.map step)).Gives t
          (fun _ u => s.Clears u ∧ ∀ b ∈ a :: rest, done b u) (fun _ _ => False) fun _ => True := by
      rintro second t ⟨clears, reached⟩
      refine (ih later t).mono (fun _ u ⟨clears', all⟩ => ⟨comp.trans clears clears', ?_⟩)
        fun _ _ never => never
      exact List.forall_mem_cons.2 ⟨stays a t u clears' reached, all⟩
    rw [List.map_cons, tryAll, Action.gives_bind, keepFirst, Action.gives_bind, Action.gives_attempt]
    refine (here s).mono (fun _ t => ?_) fun e t => ?_
    · rw [Action.gives_pure]
      exact tried _ t
    · rw [Action.gives_pure]
      exact tried _ t

end Release

theorem Frame.mem_cells (listed : f.cell? i = some c) : c ∈ f.cells.filterMap id := by
  rw [Frame.cell?, Option.join_eq_some_iff] at listed
  exact List.mem_filterMap.2 ⟨some c, List.mem_of_getElem? listed, rfl⟩

/-- Nothing that a frame knows of is there any more. -/
structure Gone (f : Frame) (m : Memory) : Prop where
  cells : ∀ i c, f.cell? i = some c → m.heap.isLive c.address = false
  errorCell : ∀ a ∈ f.errorCell, m.heap.isLive a = false
  callScoped : ∀ a ∈ f.callScoped, m.trampolines.get? a = none

theorem releaseInput_clears (input : Lowered) : (releaseInput plan input).Across Scratch.Clears := by
  unfold releaseInput
  split
  · exact freeValue_clears _ _ _ _ _
  · exact across_pure Scratch.composes_clears ()

theorem releaseScoped_gone (a : Nat) (s : Scratch) :
    (do let _ ← convert (releaseTrampoline a) : FrameM Unit).Gives s
      (fun _ t => s.Clears t ∧ t.memory.trampolines.get? a = none)
      (fun _ t => s.Clears t ∧ t.memory.trampolines.get? a = none) fun _ => True := by
  rw [Action.gives_bind, gives_convert]
  exact (gives_releaseTrampoline a s.memory).mono
    (fun _ _ ⟨memory, gone⟩ => ⟨⟨rfl, memory⟩, gone⟩)
    fun _ _ ⟨memory, gone⟩ => ⟨⟨rfl, memory⟩, gone⟩

/-- The release tries everything, and leaves nothing whether or not it reports an error. -/
theorem releaseAll_gone (s : Scratch) :
    (releaseAll plan).Gives s (fun _ t => s.Clears t ∧ Gone s.frame t.memory)
      (fun _ t => s.Clears t ∧ Gone s.frame t.memory) fun _ => True := by
  have comp := Scratch.composes_clears
  have inputs (first : Except CallError Unit) (t : Scratch) :
      (tryAll first (s.frame.inputs.map (releaseInput plan))).Gives t
        (fun _ u => t.Clears u ∧ ∀ x ∈ s.frame.inputs, True) (fun _ _ => False) fun _ => True :=
    tryAll_reaches _ (fun input _ t => (releaseInput_clears input t).mono
      (fun _ _ clears => ⟨clears, trivial⟩) fun _ _ clears => ⟨clears, trivial⟩)
      (fun _ _ _ _ _ => trivial) t
  have freed (a : Nat) (t u : Scratch) (clears : t.Clears u)
      (gone : t.memory.heap.isLive a = false) : u.memory.heap.isLive a = false :=
    clears.memory.blocks.not_live gone
  have cells (first : Except CallError Unit) (t : Scratch) :
      (tryAll first ((s.frame.cells.filterMap id).map fun c => touch (Heap.free c.address))).Gives t
        (fun _ u => t.Clears u ∧
          ∀ c ∈ s.frame.cells.filterMap id, u.memory.heap.isLive c.address = false)
        (fun _ _ => False) fun _ => True :=
    tryAll_reaches _ (fun c _ => touch_free_gone c.address) (fun c => freed c.address) t
  have errorCell (first : Except CallError Unit) (t : Scratch) :
      (tryAll first (s.frame.errorCell.toList.map fun cell => touch (Heap.free cell))).Gives t
        (fun _ u => t.Clears u ∧ ∀ a ∈ s.frame.errorCell.toList, u.memory.heap.isLive a = false)
        (fun _ _ => False) fun _ => True :=
    tryAll_reaches _ (fun a _ => touch_free_gone a) freed t
  have callScoped (first : Except CallError Unit) (t : Scratch) :
      (tryAll first (s.frame.callScoped.map fun address => do
          let _ ← convert (releaseTrampoline address))).Gives t
        (fun _ u => t.Clears u ∧ ∀ a ∈ s.frame.callScoped, u.memory.trampolines.get? a = none)
        (fun _ _ => False) fun _ => True :=
    tryAll_reaches _ (fun a _ => releaseScoped_gone a)
      (fun a _ _ clears gone => clears.memory.trampolines a gone) t
  rw [releaseAll, Action.gives_bind, gives_frame, Action.gives_bind]
  refine (inputs _ s).mono ?_ fun _ _ never => never.elim
  rintro first t ⟨clears, -⟩
  rw [Action.gives_bind]
  refine (cells first t).mono ?_ fun _ _ never => never.elim
  rintro first t₁ ⟨clears₁, cells⟩
  rw [Action.gives_bind]
  refine (errorCell first t₁).mono ?_ fun _ _ never => never.elim
  rintro first t₂ ⟨clears₂, errorCell⟩
  rw [Action.gives_bind]
  refine (callScoped first t₂).mono ?_ fun _ _ never => never.elim
  rintro first t₃ ⟨clears₃, callScoped⟩
  have all : s.Clears t₃ := comp.trans clears (comp.trans clears₁ (comp.trans clears₂ clears₃))
  have gone : Gone s.frame t₃.memory := by
    refine ⟨fun i c listed => ?_, fun a listed => ?_, callScoped⟩
    · exact freed _ _ _ (comp.trans clears₂ clears₃) (cells c (Frame.mem_cells listed))
    · exact freed _ _ _ clears₃ (errorCell a (Option.mem_toList.2 listed))
  rw [Action.gives_ofExcept]
  split <;> exact ⟨all, gone⟩

end FrameM

/-- What is left of the frame of a call: the blocks that were lifted, and nothing else. -/
structure Frame.Swept (f : Frame) (around outputs : List Value) (m : Memory) : Prop where
  cells : ∀ i c, f.cell? i = some c →
    m.heap.isLive c.address = false ∨ c.LiftedInto around outputs
  errorCell : ∀ a ∈ f.errorCell, m.heap.isLive a = false
  callScoped : ∀ a ∈ f.callScoped, m.trampolines.get? a = none

theorem FrameM.Settles.swept (settles : Settles around f t) {u : Scratch} (clears : t.Clears u)
    (gone : Gone t.frame u.memory) : f.Swept around t.frame.outputs u.memory where
  cells i c listed := by
    rcases settles.cells i c listed with kept | freed | lifted
    · exact .inl (gone.cells i c kept)
    · exact .inl (clears.memory.blocks.not_live freed)
    · exact .inr lifted
  errorCell := settles.errorCell ▸ gone.errorCell
  callScoped := settles.callScoped ▸ gone.callScoped

end ForeignCall
