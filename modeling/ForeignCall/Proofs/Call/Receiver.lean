import ForeignCall.Proofs.Call.Confinement
import ForeignCall.Proofs.Call.FailedLift
import ForeignCall.Proofs.Call.NativeError

/-!
Methods that return their receiver.

The script is given the receiver itself, and nothing is done to native memory for that. When the native
function reports an error, or an exception waits, the result is discarded like any other: if the transfer
hands it over, the block of the receiver is freed.
-/

set_option autoImplicit false

namespace ForeignCall

open ForeignCall.Action

namespace FrameM

variable {plan : Plan} {s : Scratch} {ret : Slot} {receiver : Value} {held : List Value}
  {length : Option Nat}

/-- Carrying an answer out: the release follows, and its error is reported if there is none before. -/
theorem finish_gives {x : FrameM Value} {ok : Value → Scratch → Prop}
    {failed : CallError → Scratch → Prop} {halted : Halt → Prop}
    (gives : x.Gives s
      (fun v t => (releaseAll plan).Gives t (fun _ y => ok v y) failed halted)
      (fun e t => (releaseAll plan).Gives t (fun _ y => failed e y) (fun _ y => failed e y) halted)
      halted) : (finish plan x).Gives s ok failed halted := by
  rw [finish, gives_bind, gives_attempt]
  refine gives.mono (fun v t released => ?_) fun e t released => ?_
  · rw [gives_bind, gives_attempt]
    exact released
  · rw [gives_bind, gives_attempt]
    exact released

/-- Lifting the outputs: if one fails, those that are left are discarded. -/
theorem assemble_gives {ok : Value → Scratch → Prop} {failed : CallError → Scratch → Prop}
    {halted : Halt → Prop}
    (lifts : (do
      liftReturn held plan ret (some receiver)
      liftParameters held plan plan.parameters.zipIdx : FrameM Unit).Gives s
      (fun _ t => ok (resultOf t.frame.outputs) t)
      (fun e t => (discardOutputs plan ret t.frame.outputs.length).Gives t
        (fun _ d => failed e d) (fun _ d => failed e d) halted)
      halted) : (assemble held plan ret (some receiver)).Gives s ok failed halted := by
  rw [assemble, gives_bind, gives_attempt]
  refine lifts.mono (fun _ t given => ?_) fun e t discards => ?_
  · rw [gives_bind, gives_frame]
    exact given
  · rw [gives_bind, gives_frame, gives_bind, gives_attempt]
    exact discards

end FrameM

/-! ### Structs and objects behind pointers -/

namespace Descriptor

variable {d : Descriptor} {h : Heap} {slot : Slot} {count : Nat} {owned whole : Footprint}

theorem mayBeReceiver (reference : d.isReference = true) : FrameM.mayBeReceiver d = true := by
  cases d with
  | named type name pointer => cases type <;> first | rfl | cases reference
  | _ => cases reference

theorem asBlocks_of_isReference (reference : d.isReference = true) :
    d.asBlocks = .basic (.string false) true := by
  cases d with
  | named type name pointer =>
    cases type with
    | object => rfl
    | structured size byValue => cases byValue <;> cases pointer <;> first | rfl | cases reference
    | _ => cases reference
  | _ => cases reference

theorem owns_of_isReference (reference : d.isReference = true) (owns : Owns h d slot count owned) :
    owned = .empty := by
  cases null : slot.isNull with
  | true => exact (owns_null null).1 owns
  | false =>
    cases d with
    | named type name pointer =>
      cases type with
      | object => simpa [Owns, null] using owns
      | structured size byValue =>
        cases byValue <;> cases pointer <;> first | (simpa [Owns, null] using owns) | cases reference
      | _ => cases reference
    | _ => cases reference

/-- To free what is left of a struct or an object once it was lifted, nothing is done. -/
theorem freeLifted_eq (reference : d.isReference = true) (slot : Slot) (transfer : Transfer)
    (length : Option Nat) : freeLifted d slot transfer length = pure () := by
  cases null : slot.isNull with
  | true => exact release_null null _ _
  | false =>
    unfold freeLifted release
    cases d with
    | named type name pointer =>
      cases type with
      | object => simp [null, Holding.withoutReferences]
      | structured size byValue =>
        cases byValue <;> cases pointer <;>
          first | (simp [null, Holding.withoutReferences]; done) | cases reference
      | _ => cases reference
    | _ => cases reference

end Descriptor

theorem Heap.Live.nonnull {h : Heap} {slot : Slot} {size : Nat} (live : h.Live ⟨slot.toNat, size⟩) :
    slot.isNull = false := by
  have guarded := live.inside.1
  simp only [Heap.guardSize] at guarded
  rw [Slot.isNull, beq_eq_false_iff_ne]
  omega

/-- The block of the receiver is handed over by a result that is the receiver, unless nothing is. -/
theorem Output.Sound.handed_reference {h : Heap} {type : Descriptor} {transfer : Transfer}
    {ret : Slot} {length : Option Nat} {owned whole : Footprint} {size : Nat}
    (sound : (Output.value type transfer ret length owned whole).Sound h)
    (reference : type.isReference = true) (live : h.Live ⟨ret.toNat, size⟩)
    (keeps : h.Keeps (Output.value type transfer ret length owned whole).handed) :
    owned = .empty ∧
      (⟨ret.toNat, size⟩ ∈ (Output.value type transfer ret length owned whole).handed ↔
        transfer ≠ .nothing) := by
  obtain ⟨count, owns, blocks, -, -⟩ := sound
  refine ⟨type.owns_of_isReference reference owns, ?_⟩
  rw [type.asBlocks_of_isReference reference, owns_string live.nonnull] at blocks
  obtain ⟨b, start, rfl⟩ := blocks
  cases transfer with
  | nothing => exact ⟨fun listed => (List.not_mem_nil listed).elim, fun other => (other rfl).elim⟩
  | _ =>
    refine ⟨fun _ => by decide, fun _ => ?_⟩
    have same : b = ⟨ret.toNat, size⟩ := (keeps.1 b (List.mem_singleton_self b)).eq_of_address live start
    exact same ▸ List.mem_singleton_self b

namespace FrameM

variable {plan : Plan} {s : Scratch} {ret : Slot} {receiver : Value} {held : List Value}
  {length : Option Nat}

/-- The receiver is given to the script as it is, and native memory is left as it is. -/
theorem liftReturn_receiver (shown : plan.skipReturn = false) (method : plan.isMethod = true)
    (reference : plan.returnType.isReference = true) (nonnull : ret.isNull = false)
    (returned : receiver.address? = some ret.toNat)
    (measures : returnLength plan s = .ok length s) :
    liftReturn held plan ret (some receiver) s =
      .ok () { s with frame := { s.frame with outputs := s.frame.outputs ++ [receiver] } } := by
  have itself : returnedReceiver? plan ret (some receiver) = some receiver := by
    simp [returnedReceiver?, method, plan.returnType.mayBeReceiver reference, nonnull, returned]
  rw [liftReturn, shown, Bool.not_false, if_pos rfl, bind_of_ok measures, itself]
  simp only [settleLifted, Descriptor.freeLifted_eq reference]
  rfl

theorem outputs_receiver (formed : s.frame.Formed plan) (method : plan.isMethod = true)
    (returned : receiver.address? = some ret.toNat) (reference : plan.returnType.isReference = true)
    (nonnull : ret.isNull = false)
    (measures : plan.skipReturn = false → ∃ length, returnLength plan s = .ok length s) :
    (do
      liftReturn held plan ret (some receiver)
      liftParameters held plan plan.parameters.zipIdx : FrameM Unit).Gives s
      (fun _ t => plan.skipReturn = false → ∃ others, t.frame.outputs = receiver :: others)
      (fun _ t => plan.skipReturn = false → ∃ others, t.frame.outputs = receiver :: others)
      fun _ => True := by
  cases shown : plan.skipReturn with
  | true =>
    refine (gives_anyhow _ s).mono ?_ ?_
    · exact fun _ _ _ hidden => by cases hidden
    · exact fun _ _ _ hidden => by cases hidden
  | false =>
  obtain ⟨length, measures⟩ := measures shown
  have first (t : Scratch) (lifts : Scratch.Lifts plan held
      { s with frame := { s.frame with outputs := s.frame.outputs ++ [receiver] } } t) :
      ∃ others, t.frame.outputs = receiver :: others := by
    obtain ⟨others, rest⟩ := (lifts formed.typed).outputs
    rw [formed.outputs] at rest
    exact ⟨others, rest.symm⟩
  rw [gives_bind]
  apply gives_of_ok (liftReturn_receiver shown method reference nonnull returned measures)
  exact (liftParameters_lifts plan.getElem?_position _).mono (fun _ t lifts _ => first t lifts)
    fun _ t lifts _ => first t lifts

end FrameM

/-- The outputs besides the result. -/
def Plan.besides (plan : Plan) (outs : List Output) : List Output :=
  if plan.skipReturn then outs else outs.tail

namespace Scratch.Delivers

variable {s : Scratch} {plan : Plan} {ret : Slot} {outs : List Output} {size : Nat}
  (delivers : s.Delivers plan ret outs) (reference : plan.returnType.isReference = true)
  (live : s.memory.heap.Live ⟨ret.toNat, size⟩)

include delivers reference live

/-- The first output of a method that returns its receiver. -/
theorem returns_receiver (shown : plan.skipReturn = false) :
    ∃ o, outs = o :: plan.besides outs ∧ o.settled = [] ∧
      (⟨ret.toNat, size⟩ ∈ o.handed ↔ plan.returnTransfer ≠ .nothing) ∧
        ∃ length, FrameM.returnLength plan s = .ok length s := by
  have read := delivers.read
  rw [Plan.sources, shown] at read
  obtain ⟨o, rest, delivered, -, rfl⟩ := List.forall₂_cons_left_iff.1 read
  refine ⟨o, by rw [Plan.besides, shown]; rfl, ?_⟩
  cases delivered with
  | @result length owned whole measures =>
    have keeps := delivers.keeps
    rw [List.flatMap_cons] at keeps
    obtain ⟨rfl, handed⟩ := (delivers.sound _ List.mem_cons_self).handed_reference reference live
      keeps.left
    refine ⟨?_, handed, length, measures⟩
    cases transfer : plan.returnTransfer <;> rfl

variable (alone : ⟨ret.toNat, size⟩ ∉ (plan.besides outs).flatMap Output.handed)

include alone

/-- The result alone may hand the block of the receiver over. -/
theorem hands_receiver_iff : ⟨ret.toNat, size⟩ ∈ outs.flatMap Output.handed ↔
    ¬ (plan.skipReturn = true ∨ plan.returnTransfer = .nothing) := by
  cases shown : plan.skipReturn with
  | true =>
    rw [Plan.besides, shown] at alone
    simpa using alone
  | false =>
    obtain ⟨o, split, -, handed, -⟩ := delivers.returns_receiver reference live shown
    rw [split, List.flatMap_cons, List.mem_append, handed]
    simp [alone]

/-- What is settled of the outputs is handed over by others than the result. -/
theorem not_mem_settled (n : Nat) : ⟨ret.toNat, size⟩ ∉ (outs.take n).flatMap Output.settled := by
  intro settled
  obtain ⟨o, earlier, freed⟩ := List.mem_flatMap.1 settled
  have listed := List.mem_of_mem_take earlier
  have own := (delivers.sound o listed).settled_sublist.subset freed
  refine alone (List.mem_flatMap.2 ⟨o, ?_, own⟩)
  cases shown : plan.skipReturn with
  | true =>
    rw [Plan.besides, shown]
    exact listed
  | false =>
    obtain ⟨result, split, unsettled, -⟩ := delivers.returns_receiver reference live shown
    rw [split] at listed
    refine (List.mem_cons.1 listed).resolve_left fun same => ?_
    rw [same, unsettled] at freed
    cases freed

omit delivers reference live in
/-- Once the result was lifted, the outputs that are left are others. -/
theorem not_mem_later {n : Nat} (lifted : plan.skipReturn = false → 0 < n) :
    ⟨ret.toNat, size⟩ ∉ (outs.drop n).flatMap Output.handed := by
  intro handed
  obtain ⟨o, after, own⟩ := List.mem_flatMap.1 handed
  refine alone (List.mem_flatMap.2 ⟨o, ?_, own⟩)
  rw [Plan.besides]
  split
  · exact List.mem_of_mem_drop after
  · rename_i shown
    obtain ⟨k, rfl⟩ := Nat.exists_eq_add_one.2 (lifted (Bool.eq_false_iff.2 shown))
    rw [← List.drop_one]
    rw [Nat.add_comm, ← List.drop_drop] at after
    exact List.mem_of_mem_drop after

end Scratch.Delivers

/-! ### What a call finds when its native function returned -/

/-- What a call finds in its error cell, and the blocks of that. -/
inductive Scratch.Finds (s : Scratch) : Option ErrorRecord → List Block → Prop where
  | nothing (empty : FrameM.NoError s) : s.Finds none []
  | error {cell : Nat} {record : ErrorRecord} {b : Block} {texts : List Block}
      (given : s.frame.errorCell = some cell)
      (loaded : Heap.loadPointer cell s.memory.heap = .ok b.address s.memory.heap)
      (error : s.memory.heap.ErrorAt b texts)
      (read : Heap.readError b.address s.memory.heap = .ok record s.memory.heap) :
      s.Finds (some record) (texts ++ [b])

theorem Scratch.Finds.drains {s : Scratch} {record : Option ErrorRecord} {blocks : List Block}
    (finds : s.Finds record blocks) (keeps : s.memory.heap.Keeps blocks) :
    ∃ g, FrameM.drainErrorCell s = .ok record { s with memory := { s.memory with heap := g } } ∧
      s.memory.heap.Sheds g blocks ∧ (record = none → blocks = [] ∧ g = s.memory.heap) := by
  cases finds with
  | nothing empty => exact ⟨s.memory.heap, empty.drain, .refl _, fun _ => ⟨rfl, rfl⟩⟩
  | @error cell record b texts given loaded error read =>
    obtain ⟨g, freed, sheds⟩ := error.freeError keeps
    have guarded := error.guarded
    simp only [Heap.guardSize] at guarded
    refine ⟨g, ?_, sheds, fun absent => by cases absent⟩
    have drains : FrameM.drainErrorCell.Gives s
        (fun found t => found = some record ∧ t = { s with memory := { s.memory with heap := g } })
        (fun _ _ => False) fun _ => False := by
      rw [FrameM.drainErrorCell, gives_bind, FrameM.gives_frame, given]
      dsimp only
      rw [gives_bind, FrameM.gives_touch]
      apply gives_of_ok loaded
      rw [if_neg (by omega), gives_bind, FrameM.gives_touch]
      apply gives_of_ok read
      rw [gives_bind, FrameM.gives_touch]
      exact gives_of_ok freed ⟨rfl, rfl⟩
    obtain ⟨_, _, run, rfl, rfl⟩ := drains.exists_ok
    exact run

section

variable {plan : Plan} {m₀ m v : Memory} {f : Frame} {ret : Slot} {outs : List Output}
  {owed : Nat → List Block} {rest blocks cells : List Block} {size : Nat} {receiver : Value}
  (confined : Scratch.Confined plan m₀.heap ⟨f, m⟩ blocks cells)
  (left : Unwindable plan m₀ m v f ret outs owed rest) (formed : f.Formed plan)

include confined left formed

/-- The outputs are discarded, and the release at the end follows. Of the blocks that were there before
the call, those of the outputs are freed. -/
theorem FrameM.unwind_leaves_old {g : Heap} {p : Option CallError} {b : Block}
    (sheds : v.heap.Sheds g rest) (live : v.heap.Live b) (old : m₀.heap.Live b)
    (alone : b ∉ rest ++ f.callScoped.flatMap owed) :
    (unwind plan ret).Gives ⟨f, { v with heap := g, pending := p }⟩
      (fun _ t => t.memory.heap.Live b ↔ b ∉ outs.flatMap Output.handed) (fun _ _ => False)
      fun _ => True := by
  rw [List.mem_append, not_or] at alone
  refine Gives.mono (unwind_discards left formed sheds ?_) (fun _ t ended => ended.2)
    fun _ _ never => never
  intro u all hands
  have stays : u.memory.heap.Live b ↔ b ∉ outs.flatMap Output.handed := by
    rw [all.live_iff, List.mem_append, not_or]
    simp only [live, alone.1, not_false_eq_true, true_and]
  refine (releaseAll_leaves_others confined left hands fun b => all.keeps_live).mono ?_ ?_
  · exact fun _ t leaves => (leaves b live (fun _ => old) alone.2).trans stays
  · exact fun _ t leaves => (leaves b live (fun _ => old) alone.2).trans stays

section Returned

variable (reference : plan.returnType.isReference = true) (old : m₀.heap.Live ⟨ret.toNat, size⟩)
  (live : v.heap.Live ⟨ret.toNat, size⟩)
  (alone : ⟨ret.toNat, size⟩ ∉
    rest ++ ((plan.besides outs).flatMap Output.handed ++ f.callScoped.flatMap owed))

include reference old live alone

/-- If the outputs are discarded, the block of the receiver stays just if the result hands nothing over. -/
theorem FrameM.unwind_frees_receiver {g : Heap} {p : Option CallError}
    (sheds : v.heap.Sheds g rest) :
    (unwind plan ret).Gives ⟨f, { v with heap := g, pending := p }⟩
      (fun _ t => t.memory.heap.Live ⟨ret.toNat, size⟩ ↔
        plan.skipReturn = true ∨ plan.returnTransfer = .nothing)
      (fun _ _ => False) fun _ => True := by
  simp only [List.mem_append, not_or] at alone
  have handed := left.delivers.hands_receiver_iff reference live alone.2.1
  refine (unwind_leaves_old confined left formed sheds live old ?_).mono (fun _ t leaves => ?_)
    fun _ _ never => never
  · exact fun listed => (List.mem_append.1 listed).elim alone.1 alone.2.2
  · rw [leaves, handed, not_not]

/-- If the outputs are lifted, all of them or up to one that fails, the block of the receiver stays. -/
theorem FrameM.finish_returns_receiver (unset : rest = []) (method : plan.isMethod = true)
    (returned : receiver.address? = some ret.toNat) (around : List Value) :
    (finish plan (assemble around plan ret (some receiver))).Gives ⟨f, v⟩
      (fun value t => t.memory.heap.Live ⟨ret.toNat, size⟩ ∧
        (plan.skipReturn = false → ∃ others, others.length = (plan.besides outs).length ∧
          value = resultOf (receiver :: others)))
      (fun _ t => t.memory.heap.Live ⟨ret.toNat, size⟩) fun _ => True := by
  subst unset
  simp only [List.nil_append, List.mem_append, not_or] at alone
  have spares {u : Scratch} (hands : Scratch.Hands ⟨f, v⟩ u (outs.flatMap Output.lent))
      (there : ∀ b, v.heap.Live b → b ∉ outs.flatMap Output.handed → u.memory.heap.Live b)
      (kept : u.memory.heap.Live ⟨ret.toNat, size⟩) : (releaseAll plan).Gives u
        (fun _ t => t.memory.heap.Live ⟨ret.toNat, size⟩)
        (fun _ t => t.memory.heap.Live ⟨ret.toNat, size⟩) fun _ => True :=
    (releaseAll_leaves_others confined left hands there).mono
      (fun _ t leaves => (leaves _ live (fun _ => old) alone.2).2 kept)
      fun _ t leaves => (leaves _ live (fun _ => old) alone.2).2 kept
  have unsettled := left.delivers.not_mem_settled reference live alone.1
  refine finish_gives (assemble_gives ?_)
  refine ((left.delivers.lifts formed around (some receiver)).both
    (outputs_receiver (s := ⟨f, v⟩) formed method returned reference live.nonnull fun shown => ?_)).mono
      ?_ ?_
  · obtain ⟨o, -, -, -, measures⟩ := left.delivers.returns_receiver reference live shown
    exact measures
  · rintro _ t ⟨⟨copies, lifted⟩, first⟩
    have hands := lifted.hands
    rw [List.take_length] at hands
    have kept (b : Block) (there : v.heap.Live b)
        (other : b ∉ (outs.take outs.length).flatMap Output.settled) : t.memory.heap.Live b :=
      (lifted.heap.live_iff b).2 (.inl ⟨there, other⟩)
    refine (spares hands (fun b there other => kept b there fun settled => other ?_)
      (kept _ live (unsettled _))).mono (fun _ y stays => ⟨stays, fun shown => ?_⟩)
        fun _ _ stays => stays
    · have handed := left.delivers.handed_of_settled settled
      rwa [List.take_length] at handed
    · obtain ⟨others, outputs⟩ := first shown
      obtain ⟨o, split, -⟩ := left.delivers.returns_receiver reference live shown
      have count := lifted.outputs
      rw [outputs, formed.outputs, split] at count
      exact ⟨others, by simpa using count, by rw [outputs]⟩
  · rintro e t ⟨⟨n, copies, inside, lifted⟩, first⟩
    have count : t.frame.outputs.length = n := by
      rw [lifted.outputs, formed.outputs, List.length_nil, Nat.zero_add]
    have later : ⟨ret.toNat, size⟩ ∉ (outs.drop n).flatMap Output.handed := by
      refine Scratch.Delivers.not_mem_later alone.1 fun shown => ?_
      obtain ⟨others, outputs⟩ := first shown
      rw [← count, outputs]
      exact Nat.succ_pos _
    rw [count]
    refine (left.delivers.discards formed inside.le lifted.hands
      (lifted.keeps left.delivers)).mono ?_ fun _ _ never => never.elim
    rintro _ d ⟨sheds, hands⟩
    have stays := (lifted.live_discarded sheds).2 ⟨.inl ⟨live, unsettled n⟩, later⟩
    exact spares hands (fun b there other => lifted.other_stays left.delivers sheds there other) stays

end Returned

end

/-! ### The call -/

/-- A method that returns its receiver gives the receiver itself as the first output, unless its result
is skipped, and the block of the receiver stays. It also stays if another output cannot be lifted. If the
native function reports an error, or if an exception waits, the result is discarded: then the block is
freed, unless the transfer is nothing or the result is skipped. -/
theorem receiver_stays {σ : Type} {w : World σ} {depth : Nat} {held : List Value} {name : String}
    {receiver : Value} {arguments : List Value} {s s₁ u v : Session σ} {b : Binding} {plan : Plan}
    {function : List Slot → Native σ} {slots : List Slot} {f : Frame} {m : Memory} {ret : Slot}
    {size : Nat} {record : Option ErrorRecord} {blocks : List Block} {outs : List Output}
    {owed : Nat → List Block}
    (bound : Session.bind w name s = .ok b s₁) (prepared : Session.prepare w name b s₁ = .ok plan u)
    (accepted : checkArguments w.environment.repository plan arguments = .ok ())
    (method : plan.isMethod = true) (reference : plan.returnType.isReference = true)
    (old : s.memory.heap.Live ⟨ret.toNat, size⟩)
    (filled : FrameM.nativeSlots w.environment plan (some ret.toNat) arguments
      ⟨.start plan.parameters.length, u.memory⟩ = .ok slots ⟨f, m⟩)
    (defined : w.library b.callable.symbolName = some function)
    (ran : (function slots).run (Session.callback w depth held)
      (u.entering m b.callable.symbolName slots) = .ok ret v)
    (returned : receiver.address? = some ret.toNat) (live : v.memory.heap.Live ⟨ret.toNat, size⟩)
    (finds : Scratch.Finds ⟨f, v.memory⟩ record blocks)
    (left : Unwindable plan s.memory m v.memory f ret outs owed blocks)
    (alone : ⟨ret.toNat, size⟩ ∉
      blocks ++ ((plan.besides outs).flatMap Output.handed ++ f.callScoped.flatMap owed)) :
    (Session.callNested w (depth + 1) held name (some receiver) arguments).Gives s
      (fun value t => v.memory.pending = none ∧ record = none ∧
        t.memory.heap.Live ⟨ret.toNat, size⟩ ∧
        (plan.skipReturn = false → ∃ others, others.length = (plan.besides outs).length ∧
          value = FrameM.resultOf (receiver :: others)))
      (fun _ t => t.memory.heap.Live ⟨ret.toNat, size⟩ ↔
        (plan.skipReturn = true ∨ plan.returnTransfer = .nothing) ∨
          v.memory.pending = none ∧ record = none)
      fun _ => True := by
  have memory : u.memory = s.memory :=
    (Session.prepare_keeps.of_ok prepared).1.trans (Session.bind_keeps.of_ok bound).1
  have located : Session.receiverAddress plan (some receiver) = .ok (some ret.toNat) := by
    simp [Session.receiverAddress, method, returned]
  obtain ⟨g, drains, sheds, unchanged⟩ := finds.drains left.keeps.left
  obtain ⟨own, cells, confined⟩ :=
    (FrameM.nativeSlots_confined w.environment plan (some ret.toNat) arguments u.memory).of_ok filled
  have formed :=
    (FrameM.nativeSlots_formed w.environment plan (some ret.toNat) arguments u.memory).of_ok filled
  rw [memory] at confined
  have unwinds := FrameM.unwind_frees_receiver (p := none) confined left formed reference old live alone
    sheds
  have discarded (x : Scratch) (quiet : Prop) (loud : ¬ quiet)
      (stays : x.memory.heap.Live ⟨ret.toNat, size⟩ ↔
        plan.skipReturn = true ∨ plan.returnTransfer = .nothing) :
      x.memory.heap.Live ⟨ret.toNat, size⟩ ↔
        (plan.skipReturn = true ∨ plan.returnTransfer = .nothing) ∨ quiet :=
    stays.trans (or_iff_left loud).symm
  rw [Action.Gives, Session.callNested_eq bound prepared accepted located, ← Action.Gives]
  refine Session.carryOut_finishes filled defined ran drains ?_
  cases waits : v.memory.pending with
  | some e =>
    exact FrameM.finish_unwinds (unwinds.mono
      (fun _ x => discarded x _ fun quiet => Option.some_ne_none _ quiet.1) fun _ _ never => never)
  | none =>
    cases record with
    | some record =>
      exact FrameM.finish_unwinds (unwinds.mono
        (fun _ x => discarded x _ fun quiet => Option.some_ne_none _ quiet.2) fun _ _ never => never)
    | none =>
      obtain ⟨unset, rfl⟩ := unchanged rfl
      have same : ({ v.memory with pending := none } : Memory) = v.memory := by rw [← waits]
      dsimp only [FrameM.answer]
      rw [same]
      refine (FrameM.finish_returns_receiver confined left formed reference old live alone unset method
        returned (held ++ w.kept v.host)).mono ?_ ?_
      · exact fun value x stays => ⟨rfl, rfl, stays⟩
      · exact fun _ x stays => ⟨fun _ => .inr ⟨rfl, rfl⟩, fun _ => stays⟩

/-! ### Two such calls -/

/-- The methods `self` and `fail` of a class give their receiver and hand it over. The second one reports
an error. -/
def receiverWorld : World Unit where
  environment :=
    let method (name : String) : CallableRecord := CallableRecord.methodOf
      { namespaceName := "T", name := name, throws := true
        returnType := TypeRecord.byPointer (.named "T.O"), returnTransfer := .everything } "O"
    let types := Repository.initial.insertEntry
      { namespaceName := "T", name := "O", kind := .object, methods := [method "self", method "fail"] }
    ⟨types, .pin⟩
  library
    | "self" => some fun slots => .ret (slots.headD .null)
    | _ => some fun slots => .setError (slots.getD 1 .null) failure (.ret (slots.headD .null))
  script _ _ := .ret .undefined
  kept _ := []

def receiverPlan : Plan where
  name := "T.O.self"
  parameters := []
  returnType := .named .object "T.O" true
  returnTransfer := .everything
  mayReturnNull := false
  returnLength := none
  skipReturn := false
  isMethod := true
  canThrow := true

/-- A session with one block. -/
def blockSession : Session Unit :=
  match Heap.alloc 8 8 Heap.empty with
  | .ok _ h | .error _ h => { Session.start () with memory := { Memory.empty with heap := h } }

def receiverObject : Value := .object ⟨0, 16, "T.O", true⟩

/-- The receiver, as it is given back. -/
def receiverOutput : Output :=
  .value (.named .object "T.O" true) .everything (.ofNat 16) none .empty ⟨[⟨16, 8⟩], []⟩

/-- A function that does nothing but give its receiver back. -/
theorem unwindable_receiver {m₀ m v : Memory} {f : Frame} (old : m₀.heap.Live ⟨16, 8⟩)
    (same : v.heap = m.heap) (live : v.heap.Live ⟨16, 8⟩) (none : f.callScoped = []) :
    Unwindable receiverPlan m₀ m v f (.ofNat 16) [receiverOutput] (fun _ => []) [] := by
  have object : Owns v.heap (.named .object "T.O" true) (.ofNat 16) 0 .empty :=
    owns_empty_of_bare rfl rfl _ 0
  have block : Owns v.heap (.basic (.string false) true) (.ofNat 16) 0 ⟨[⟨16, 8⟩], []⟩ :=
    (owns_string rfl).2 ⟨⟨16, 8⟩, rfl, rfl⟩
  have handed : [receiverOutput].flatMap Output.handed ++ f.callScoped.flatMap (fun _ => []) =
      [⟨16, 8⟩] := by
    rw [none]
    rfl
  have keeps : v.heap.Keeps [⟨16, 8⟩] :=
    ⟨fun b listed => by rwa [List.mem_singleton.1 listed], List.nodup_singleton _⟩
  refine ⟨⟨fun _ there _ => same ▸ there, fun _ _ _ _ _ _ _ => by rw [same]⟩, ⟨?_, ?_, keeps⟩,
    ?_, ?_, ?_⟩
  · exact .cons (.result rfl) .nil
  · refine List.forall_mem_singleton.2 ⟨0, object, block, ?_, fun _ _ => .inl trivial⟩
    exact ⟨List.nil_sublist _, .refl _⟩
  · rw [none]
    exact fun _ absurd => by cases absurd
  · rwa [handed]
  · rw [handed]
    rintro b listed - -
    rwa [List.mem_singleton.1 listed]

/-- The method `self` gives its receiver, the block of which stays. -/
theorem receiver_stays_self :
    ∃ t, Session.callNested receiverWorld 1 [receiverObject] "T.O.self" (some receiverObject) []
        blockSession = .ok receiverObject t ∧ t.memory.heap.Live ⟨16, 8⟩ := by
  obtain ⟨b, s₁, bound, binding⟩ :=
    Action.exists_ok_such (x := Session.bind receiverWorld "T.O.self") (s := blockSession)
      (fun b s₁ => b.callable.symbolName == "self" &&
        (Session.prepare receiverWorld "T.O.self" b).succeeds s₁ fun plan u => plan == receiverPlan &&
          (FrameM.nativeSlots receiverWorld.environment receiverPlan (some 16) []).succeeds
            ⟨.start 0, u.memory⟩ fun slots x => slots.headD .null == .ofNat 16 &&
              x.frame.errorCell == some 24 && x.frame.callScoped == [] &&
              x.memory.heap.blockSize? 16 == some 8 &&
              (Heap.loadPointer 24).succeeds x.memory.heap fun a _ => a == 0) (by decide +kernel)
  simp only [Bool.and_eq_true, beq_iff_eq] at binding
  obtain ⟨symbol, prepares⟩ := binding
  obtain ⟨plan, u, prepared, facts⟩ := Action.exists_ok_such _ prepares
  simp only [Bool.and_eq_true, beq_iff_eq] at facts
  obtain ⟨rfl, fills⟩ := facts
  obtain ⟨slots, ⟨f, m⟩, filled, facts⟩ := Action.exists_ok_such _ fills
  simp only [Bool.and_eq_true, beq_iff_eq] at facts
  obtain ⟨⟨⟨⟨result, errorCell⟩, nothing⟩, live⟩, reads⟩ := facts
  obtain ⟨a, g, loaded, null⟩ := Action.exists_ok_such _ reads
  obtain rfl := beq_iff_eq.1 null
  obtain rfl := (across_loadPointer Heap.composes_same 24 _).of_ok loaded
  have accepted : checkArguments receiverWorld.environment.repository receiverPlan [] = .ok () := rfl
  have defined : receiverWorld.library b.callable.symbolName =
      some fun slots => .ret (slots.headD .null) := by
    rw [symbol]
    rfl
  have ran : (Native.ret (slots.headD .null)).run (Session.callback receiverWorld 0 [receiverObject])
      (u.entering m b.callable.symbolName slots) =
        .ok (.ofNat 16) (u.entering m b.callable.symbolName slots) := by
    rw [result]
    rfl
  have old : blockSession.memory.heap.Live ⟨16, 8⟩ := by
    rw [Heap.Live]
    decide +kernel
  have live : m.heap.Live ⟨16, 8⟩ := live
  obtain ⟨value, t, answered, -⟩ :=
    Action.exists_ok_such (x := Session.callNested receiverWorld 1 [receiverObject] "T.O.self"
      (some receiverObject) []) (s := blockSession) (fun _ _ => true) (by decide +kernel)
  have empty : FrameM.NoError ⟨f, (u.entering m b.callable.symbolName slots).memory⟩ := by
    intro cell listed
    rw [errorCell] at listed
    cases listed
    exact loaded
  have left : Unwindable receiverPlan blockSession.memory m
      (u.entering m b.callable.symbolName slots).memory f (.ofNat 16) [receiverOutput] (fun _ => []) [] :=
    unwindable_receiver old rfl live nothing
  have alone : ⟨16, 8⟩ ∉ [] ++ ((receiverPlan.besides [receiverOutput]).flatMap Output.handed ++
      f.callScoped.flatMap fun _ => ([] : List Block)) := by
    rw [nothing]
    exact List.not_mem_nil
  generalize receiverWorld = w at *
  generalize blockSession = s₀ at *
  have place : (Slot.ofNat 16).toNat = 16 := rfl
  rw [← place] at old filled live alone
  obtain ⟨-, -, stays, first⟩ := (receiver_stays bound prepared accepted rfl rfl old filled defined ran
    rfl live (.nothing empty) left alone).of_ok answered
  obtain ⟨others, alike, rfl⟩ := first rfl
  obtain rfl := List.eq_nil_of_length_eq_zero alike
  exact ⟨t, answered, stays⟩

/-- The error of `fail` frees the block of its receiver. -/
theorem receiver_freed_by_error :
    blockSession.memory.heap.Live ⟨16, 8⟩ ∧
    ∃ t, Session.callNested receiverWorld 1 [receiverObject] "T.O.fail" (some receiverObject) []
        blockSession = .error (.error (.native failure)) t ∧ ¬ t.memory.heap.Live ⟨16, 8⟩ := by
  refine ⟨by rw [Heap.Live]; decide +kernel, ?_⟩
  obtain ⟨e, t, failed, freed⟩ :=
    Action.exists_error_such (x := Session.callNested receiverWorld 1 [receiverObject] "T.O.fail"
      (some receiverObject) []) (s := blockSession)
      (fun e t => e == .native failure && t.memory.heap.blockSize? 16 == none) (by decide +kernel)
  simp only [Bool.and_eq_true, beq_iff_eq] at freed
  refine ⟨t, freed.1 ▸ failed, fun live => ?_⟩
  rw [Heap.Live, freed.2] at live
  cases live

end ForeignCall
