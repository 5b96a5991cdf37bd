import ForeignCall.Proofs.Call.Nesting
import ForeignCall.Proofs.Call.Unwinding

/-!
Calls of which an output cannot be lifted.

The outputs from that one on are discarded. Those before it were lifted: what was left of them to free is
freed, and the rest belongs to wrappers, as do the structs that were copied. The script is given none of
these wrappers.
-/

set_option autoImplicit false

namespace ForeignCall

open ForeignCall.Action

/-- `u` came from `t` by giving `count` values to the script, while structs were copied and the blocks
were freed. -/
structure Scratch.Receives (s t u : Scratch) (lent freed : List Block) (count : Nat) : Prop where
  hands : s.Hands u lent
  outputs : u.frame.outputs.length = t.frame.outputs.length + count
  heap : ∃ copies g, t.memory.heap.Grows g copies ∧ g.Sheds u.memory.heap freed

namespace FrameM

variable {s t u : Scratch} {lent freed : List Block} {plan : Plan} {ret : Slot}
  {receiver : Option Value} {held : List Value} {x : Source} {o : Output}

theorem liftOutput_receives (hands : s.Hands t lent) (d : Descriptor) (slot : Slot)
    (length : Option Nat) (copy : Bool) :
    (liftOutput held d slot length copy).Gives t
      (fun _ u => s.Receives t u lent [] 0) (fun _ u => s.Receives t u lent [] 0)
      fun _ => True := by
  have lifted (m : Memory) (copied : t.memory.Copied m) :
      s.Receives t { t with memory := m } lent [] 0 := by
    obtain ⟨⟨copies, grows⟩, same⟩ := copied
    refine ⟨?_, rfl, copies, _, grows, .refl _⟩
    rw [← List.append_nil lent]
    exact hands.trans (.of_memory m t.frame.outputs same grows.toProlongs)
  rw [liftOutput, gives_bind, gives_frame, gives_convert]
  exact (across_lift Memory.copies_copied _ d slot length copy t.memory).mono
    (fun _ m copied => lifted m copied) fun _ m copied => lifted m copied

theorem pushOutput_receives {count : Nat} (receives : s.Receives t u lent freed count) (v : Value) :
    (pushOutput v).Gives u (fun _ w => s.Receives t w lent freed (count + 1)) (fun _ _ => False)
      fun _ => True := by
  rw [pushOutput, gives_modifyFrame]
  refine ⟨?_, ?_, receives.heap⟩
  · rw [← List.append_nil lent]
    exact receives.hands.trans (.of_memory u.memory _ rfl (.refl _))
  · simp only [List.length_append, List.length_singleton, receives.outputs]
    omega

section Value

variable {type : Descriptor} {transfer : Transfer} {slot : Slot} {length : Option Nat}
  {owned whole : Footprint} (sound : (Output.value type transfer slot length owned whole).Sound
    s.memory.heap)
  (keeps : t.memory.heap.Keeps (owned.held (.of transfer .output)))

include sound keeps

theorem settleLifted_receives {count : Nat} (receives : s.Receives t u lent [] count) :
    (settleLifted type slot transfer length).Gives u
      (fun _ w => s.Receives t w lent (owned.held (.of transfer .output)) count)
      (fun _ _ => False) fun _ => True := by
  obtain ⟨copies, g, grows, sheds⟩ := receives.heap
  have kept : u.memory.heap.Keeps (owned.held (.of transfer .output)) :=
    ⟨fun b listed => sheds.keeps_live (grows.keeps_live (keeps.1 b listed)) List.not_mem_nil, keeps.2⟩
  rw [settleLifted]
  refine (convert_sheds receives.hands
    ((sound.prolongs receives.hands.prolongs).settles kept)).mono ?_ fun _ _ never => never
  rintro _ w ⟨frame, freed, hands⟩
  exact ⟨hands, by rw [frame, receives.outputs], copies, g, grows, sheds.trans freed⟩

/-- A value is lifted, given to the script, and what was left of it to free is freed. -/
theorem value_receives (hands : s.Hands t lent) (copy : Bool) :
    (do
      pushOutput (← liftOutput held type slot length copy)
      settleLifted type slot transfer length).Gives t
      (fun _ w => s.Receives t w lent (owned.held (.of transfer .output)) 1)
      (fun _ w => s.Receives t w lent [] 0) fun _ => True := by
  rw [gives_bind]
  refine (liftOutput_receives hands type slot length copy).mono ?_ fun _ _ failed => failed
  rintro v u receives
  rw [gives_bind]
  refine (pushOutput_receives receives v).mono (fun _ w given => ?_) fun _ _ never => never.elim
  exact (settleLifted_receives sound keeps given).mono (fun _ _ settled => settled)
    fun _ _ never => never.elim

end Value

section Step

variable (listed : x ∈ plan.sources) (hands : s.Hands t lent) (formed : s.frame.Formed plan)
  (delivered : o.At plan s ret x) (sound : o.Sound s.memory.heap)
  (apart : ∀ b ∈ o.lent, b.address ∉ lent.map Block.address)

include listed hands formed delivered sound apart

theorem liftSource_receives (keeps : t.memory.heap.Keeps o.settled) :
    (liftSource held plan ret receiver x).Gives t
      (fun _ u => s.Receives t u (lent ++ o.lent) o.settled 1)
      (fun _ u => s.Receives t u lent [] 0) fun _ => True := by
  have start : s.Receives t t lent [] 0 := ⟨hands, rfl, [], _, .refl _, .refl _⟩
  cases delivered with
  | result measures =>
    have skip := skipReturn_of_result listed
    rw [liftSource, liftReturn, skip, Bool.not_false, if_pos rfl, gives_bind, Output.lent,
      List.append_nil]
    apply gives_of_ok (returnLength_later hands formed measures)
    cases returnedReceiver? plan ret receiver with
    | none => exact value_receives sound keeps hands _
    | some v =>
      rw [gives_bind]
      refine (pushOutput_receives start v).mono (fun _ w given => ?_) fun _ _ never => never.elim
      exact (settleLifted_receives sound keeps given).mono (fun _ _ settled => settled)
        fun _ _ never => never.elim
  | cell stored reads measures =>
    rw [liftSource, liftParameter, gives_bind, Output.lent, List.append_nil]
    apply gives_of_ok (outputLength_later hands formed measures)
    rw [gives_bind, gives_frame, hands.cell_value stored, gives_bind]
    apply gives_of_ok (current_later hands formed reads)
    exact value_receives sound keeps hands _
  | @block p position b stored =>
    have present := hands.cell_block stored (apart b (List.mem_singleton_self b))
    rw [liftSource, liftParameter, gives_bind]
    refine (across_outputLength Scratch.composes_same plan p t).mono (fun length _ same => ?_) fun _ _ same => ?_
    · rw [same, gives_bind, gives_frame, present, gives_bind]
      refine (liftOutput_receives hands _ _ none false).mono ?_ fun _ _ failed => failed
      rintro v u receives
      rw [gives_bind]
      refine (pushOutput_receives receives v).mono (fun _ w given => ?_) fun _ _ never => never.elim
      have here := given.hands.cell_block stored (apart b (List.mem_singleton_self b))
      have dropped := given.hands.trans (.drop w.memory w.frame.outputs here rfl (.refl _))
      rw [dropCell, gives_modifyFrame]
      exact ⟨dropped, given.outputs, given.heap⟩
    · exact same ▸ start

end Step

end FrameM

/-! ### All outputs -/

theorem flatMap_handed_split (outs : List Output) (n : Nat) : outs.flatMap Output.handed =
    (outs.take n).flatMap Output.handed ++ (outs.drop n).flatMap Output.handed := by
  rw [← List.flatMap_append, List.take_append_drop]

namespace Scratch.Delivers

variable {s : Scratch} {plan : Plan} {ret : Slot} {outs : List Output} {n : Nat} {b : Block}

theorem handed_of_settled (delivers : s.Delivers plan ret outs)
    (settled : b ∈ (outs.take n).flatMap Output.settled) :
    b ∈ (outs.take n).flatMap Output.handed := by
  obtain ⟨o, earlier, freed⟩ := List.mem_flatMap.1 settled
  have sound := delivers.sound o (List.mem_of_mem_take earlier)
  exact List.mem_flatMap.2 ⟨o, earlier, sound.settled_sublist.subset freed⟩

/-- What was handed over was so by the outputs before the `n`-th one or by the others, not by both. -/
theorem not_mem_drop_iff (delivers : s.Delivers plan ret outs)
    (handed : b ∈ outs.flatMap Output.handed) :
    b ∉ (outs.drop n).flatMap Output.handed ↔ b ∈ (outs.take n).flatMap Output.handed := by
  have distinct := delivers.keeps.2
  rw [flatMap_handed_split outs n] at distinct handed
  refine ⟨fun later => (List.mem_append.1 handed).resolve_right later, fun earlier later => ?_⟩
  exact List.disjoint_of_nodup_append distinct earlier later

end Scratch.Delivers

/-- `t` came from `s` by lifting the first `n` outputs, and `copies` were made of structs. -/
structure Scratch.Lifted (s t : Scratch) (outs : List Output) (n : Nat) (copies : List Block) :
    Prop where
  hands : s.Hands t ((outs.take n).flatMap Output.lent)
  outputs : t.frame.outputs.length = s.frame.outputs.length + n
  heap : s.memory.heap.Trades t.memory.heap ((outs.take n).flatMap Output.settled) copies

namespace Scratch.Lifted

variable {s t u : Scratch} {outs : List Output} {n : Nat} {copies : List Block} {o : Output}
  {plan : Plan} {ret : Slot}

theorem start (s : Scratch) (outs : List Output) : s.Lifted s outs 0 [] := ⟨.refl s, rfl, .refl _⟩

theorem failed (lifted : s.Lifted t outs n copies)
    (receives : s.Receives t u ((outs.take n).flatMap Output.lent) [] 0) :
    ∃ copies, s.Lifted u outs n copies := by
  obtain ⟨more, g, grows, sheds⟩ := receives.heap
  have traded := (lifted.heap.grows grows).sheds sheds (by simp)
  rw [List.append_nil] at traded
  exact ⟨_, receives.hands, by rw [receives.outputs, lifted.outputs]; rfl, traded⟩

section Delivered

variable (delivers : s.Delivers plan ret outs) (lifted : s.Lifted t outs n copies)

include delivers lifted

/-- What the other outputs handed over is still there. -/
theorem keeps : t.memory.heap.Keeps ((outs.drop n).flatMap Output.handed) := by
  have keeps := delivers.keeps
  rw [flatMap_handed_split outs n] at keeps
  refine ⟨fun b listed => (lifted.heap.live_iff b).2 (.inl ⟨?_, fun settled => ?_⟩), ?_⟩
  · exact keeps.1 b (List.mem_append_right _ listed)
  · exact List.disjoint_of_nodup_append keeps.2 (delivers.handed_of_settled settled) listed
  · exact (List.nodup_append.1 keeps.2).2.1

section Discarded

variable {g : Heap} {b : Block}
  (sheds : t.memory.heap.Sheds g ((outs.drop n).flatMap Output.handed))

include sheds

omit delivers in
theorem live_discarded : g.Live b ↔
    (s.memory.heap.Live b ∧ b ∉ (outs.take n).flatMap Output.settled ∨ b ∈ copies) ∧
      b ∉ (outs.drop n).flatMap Output.handed := by
  rw [sheds.live_iff, lifted.heap.live_iff]

/-- Once the other outputs are discarded, of what was handed over those blocks stay that were lifted and
not settled. -/
theorem handed_stays_iff (handed : b ∈ outs.flatMap Output.handed) : g.Live b ↔
    b ∈ (outs.take n).flatMap Output.handed ∧ b ∉ (outs.take n).flatMap Output.settled := by
  have old := delivers.keeps.1 b handed
  have other : b ∉ copies := fun new => lifted.heap.not_live new old
  rw [lifted.live_discarded sheds, delivers.not_mem_drop_iff handed, and_comm]
  simp only [old, other, true_and, or_false]

/-- The copies stay. -/
theorem copy_stays (new : b ∈ copies) : g.Live b :=
  (lifted.live_discarded sheds).2 ⟨.inr new, fun later => lifted.heap.not_live new
    (delivers.keeps.1 b (flatMap_handed_split outs n ▸ List.mem_append_right _ later))⟩

/-- Nothing else is touched. -/
theorem other_stays (old : s.memory.heap.Live b) (other : b ∉ outs.flatMap Output.handed) :
    g.Live b := by
  rw [flatMap_handed_split outs n, List.mem_append, not_or] at other
  exact (lifted.live_discarded sheds).2
    ⟨.inl ⟨old, fun settled => other.1 (delivers.handed_of_settled settled)⟩, other.2⟩

end Discarded

theorem next (here : outs[n]? = some o)
    (receives : s.Receives t u ((outs.take n).flatMap Output.lent ++ o.lent) o.settled 1) :
    ∃ copies, s.Lifted u outs (n + 1) copies := by
  have sound := delivers.sound o (List.mem_of_getElem? here)
  have old : ∀ b ∈ o.settled, s.memory.heap.Live b := fun b listed =>
    delivers.keeps.1 b (List.mem_flatMap.2
      ⟨o, List.mem_of_getElem? here, sound.settled_sublist.subset listed⟩)
  obtain ⟨more, g, grows, sheds⟩ := receives.heap
  have longer := (Delivers.split here (Nat.zero_le n)).1
  rw [List.drop_zero, List.drop_zero] at longer
  refine ⟨copies ++ more, ?_, by rw [receives.outputs, lifted.outputs, Nat.add_assoc], ?_⟩
  · rw [longer, List.flatMap_append, List.flatMap_singleton]
    exact receives.hands
  · rw [longer, List.flatMap_append, List.flatMap_singleton]
    exact (lifted.heap.grows grows).sheds sheds old

end Delivered

end Scratch.Lifted

namespace Scratch.Delivers

variable {s : Scratch} {outs : List Output} {plan : Plan} {ret : Slot}

/-- The outputs are lifted one after the other, all of them or up to one that cannot be lifted. -/
theorem lifts (delivers : s.Delivers plan ret outs) (formed : s.frame.Formed plan)
    (held : List Value) (receiver : Option Value) :
    (do
      FrameM.liftReturn held plan ret receiver
      FrameM.liftParameters held plan plan.parameters.zipIdx : FrameM Unit).Gives s
      (fun _ t => ∃ copies, s.Lifted t outs outs.length copies)
      (fun _ t => ∃ n copies, n < outs.length ∧ s.Lifted t outs n copies) fun _ => True := by
  have long := delivers.length_eq
  rw [FrameM.lift_forM, ← long]
  refine FrameM.forM_drop_gives (fun n t => ∃ copies, s.Lifted t outs n copies) ?_ (Nat.zero_le _)
    ⟨[], .start s outs⟩
  rintro n x source t ⟨copies, lifted⟩
  obtain ⟨o, here, delivered⟩ := exists_getElem?_of_forall₂ delivers.read source
  have sound := delivers.sound o (List.mem_of_getElem? here)
  have left := (split here (Nat.le_refl n)).2
  have keeps := lifted.keeps delivers
  rw [left, List.drop_take_self, List.nil_append, List.flatMap_cons] at keeps
  refine (FrameM.liftSource_receives (List.mem_of_getElem? source) lifted.hands formed delivered
    sound (delivers.apart here) (keeps.left.sublist sound.settled_sublist)).mono ?_ ?_
  · exact fun _ u receives => lifted.next delivers here receives
  · rintro _ u receives
    obtain ⟨copies, same⟩ := lifted.failed receives
    exact ⟨n, copies, by simpa [long] using (List.getElem?_eq_some_iff.1 here).1, same⟩

end Scratch.Delivers

theorem FrameM.assemble_failed {held : List Value} {plan : Plan} {ret : Slot} {receiver : Option Value}
    {s x d : Scratch} {e : CallError}
    (failed : (do
      liftReturn held plan ret receiver
      liftParameters held plan plan.parameters.zipIdx : FrameM Unit) s = .error (.error e) x)
    (discarded : discardOutputs plan ret x.frame.outputs.length x = .ok () d) :
    assemble held plan ret receiver s = .error (.error e) d := by
  have shown : (frame : FrameM Frame) x = .ok x.frame x := rfl
  rw [assemble, bind_of_ok (attempt_of_error failed), bind_of_ok shown]
  dsimp only
  rw [bind_of_ok (attempt_of_ok discarded)]
  rfl

/-- A call that failed releases what it made for itself, and reports its error whatever comes of that. -/
theorem FrameM.finish_failed {plan : Plan} {x : FrameM Value} {s d : Scratch} {e : CallError}
    {ok : Value → Scratch → Prop} {failed : CallError → Scratch → Prop} {halted : Halt → Prop}
    (run : x s = .error (.error e) d)
    (releases : (releaseAll plan).Gives d (fun _ y => failed e y) (fun _ y => failed e y) halted) :
    (finish plan x).Gives s ok failed halted := by
  rw [finish, gives_bind]
  apply gives_of_ok (attempt_of_error run)
  rw [gives_bind, gives_attempt]
  exact releases

/-! ### The call -/

/-- A call of which an output cannot be lifted fails with the error of that. The outputs from that one on
are discarded, and of the others what was left of them to free was freed. So of what the outputs handed
over, at most those blocks stay for which wrappers stand. If the call finds what it made for itself, they
all stay, and so do the copies of structs. -/
theorem failed_lift_leaves {σ : Type} {w : World σ} {depth : Nat} {held : List Value} {name : String}
    {receiver : Option Value} {arguments : List Value} {s s₁ u v : Session σ} {b : Binding}
    {plan : Plan} {address : Option Nat} {function : List Slot → Native σ} {slots : List Slot}
    {f : Frame} {m : Memory} {ret : Slot} {outs : List Output} {e : CallError} {x : Scratch}
    (bound : Session.bind w name s = .ok b s₁) (prepared : Session.prepare w name b s₁ = .ok plan u)
    (accepted : checkArguments w.environment.repository plan arguments = .ok ())
    (located : Session.receiverAddress plan receiver = .ok address)
    (filled : FrameM.nativeSlots w.environment plan address arguments
      ⟨.start plan.parameters.length, u.memory⟩ = .ok slots ⟨f, m⟩)
    (defined : w.library b.callable.symbolName = some function)
    (ran : (function slots).run (Session.callback w depth held)
      (u.entering m b.callable.symbolName slots) = .ok ret v)
    (calm : v.memory.pending = none) (empty : FrameM.NoError ⟨f, v.memory⟩)
    (delivers : Scratch.Delivers ⟨f, v.memory⟩ plan ret outs)
    (failed : (do
      FrameM.liftReturn (held ++ w.kept v.host) plan ret receiver
      FrameM.liftParameters (held ++ w.kept v.host) plan plan.parameters.zipIdx : FrameM Unit)
        ⟨f, v.memory⟩ = .error (.error e) x) :
    let lifted := outs.take x.frame.outputs.length
    x.frame.outputs.length < outs.length ∧ ∃ copies,
      (∀ b ∈ copies, ¬ v.memory.heap.Live b) ∧
      (∀ b, x.memory.heap.Live b ↔
        v.memory.heap.Live b ∧ b ∉ lifted.flatMap Output.settled ∨ b ∈ copies) ∧
      (Session.callNested w (depth + 1) held name receiver arguments).Gives s (fun _ _ => False)
        (fun e' t => e' = e ∧ t.memory.pending = none ∧
          (∀ b, t.memory.heap.Live b → v.memory.heap.Live b ∨ b ∈ copies) ∧
          (∀ b ∈ outs.flatMap Output.handed, t.memory.heap.Live b →
            b ∈ lifted.flatMap Output.handed ∧ b ∉ lifted.flatMap Output.settled) ∧
          ∀ owed, Unwindable plan s.memory m v.memory f ret outs owed [] →
            (∀ p ∈ plan.inputs, p.type.isMeasuredWithin = true) →
            ∀ b ∈ outs.flatMap Output.handed ++ copies, t.memory.heap.Live b ↔
              b ∈ copies ∨ b ∈ lifted.flatMap Output.handed ∧ b ∉ lifted.flatMap Output.settled)
        fun h => ∃ d y, FrameM.discardOutputs plan ret x.frame.outputs.length x = .ok () d ∧
          FrameM.releaseAll plan d = .error (.halt h) y := by
  intro lifted
  have memory : u.memory = s.memory :=
    (Session.prepare_keeps.of_ok prepared).1.trans (Session.bind_keeps.of_ok bound).1
  have formed := (FrameM.nativeSlots_formed w.environment plan address arguments u.memory).of_ok filled
  obtain ⟨n, copies, inside, lifts⟩ :=
    (delivers.lifts formed (held ++ w.kept v.host) receiver).of_error failed
  have count : x.frame.outputs.length = n := by
    rw [lifts.outputs, formed.outputs, List.length_nil, Nat.zero_add]
  subst count
  have discards : (FrameM.discardOutputs plan ret x.frame.outputs.length).Gives x
      (fun _ d => x.memory.heap.Sheds d.memory.heap
        ((outs.drop x.frame.outputs.length).flatMap Output.handed) ∧
          Scratch.Hands ⟨f, v.memory⟩ d (outs.flatMap Output.lent))
      (fun _ _ => False) fun _ => False :=
    delivers.discards formed (Nat.le_of_lt inside) lifts.hands (lifts.keeps delivers)
  obtain ⟨_, d, discarded, sheds, hands⟩ := discards.exists_ok
  have fresh : ∀ b ∈ copies, ¬ v.memory.heap.Live b := fun b => lifts.heap.not_live
  refine ⟨inside, copies, fresh, lifts.heap.live_iff, ?_⟩
  rw [Action.Gives, Session.callNested_eq bound prepared accepted located, ← Action.Gives]
  refine Session.carryOut_finishes filled defined ran empty.drain ?_
  have same : ({ v.memory with pending := none } : Memory) = v.memory := by rw [← calm]
  simp only [calm, FrameM.answer, same]
  have ended := FrameM.assemble_failed failed discarded
  have still : d.memory.pending = none := ((FrameM.within_assemble steady_pending.toQuiet
    (held ++ w.kept v.host) plan ret receiver ⟨f, v.memory⟩).of_error ended).trans calm
  have within (b : Block) (live : d.memory.heap.Live b) : v.memory.heap.Live b ∨ b ∈ copies :=
    ((lifts.live_discarded sheds).1 live).1.imp_left And.left
  -- What the release at the end frees is neither handed over nor copied.
  have exactly (owed : Nat → List Block)
      (unwindable : Unwindable plan s.memory m v.memory f ret outs owed [])
      (measured : ∀ p ∈ plan.inputs, p.type.isMeasuredWithin = true) :
      (FrameM.releaseAll plan).Gives d
        (fun _ y => ∀ b ∈ outs.flatMap Output.handed ++ copies, y.memory.heap.Live b ↔
          b ∈ copies ∨ b ∈ lifted.flatMap Output.handed ∧ b ∉ lifted.flatMap Output.settled)
        (fun _ _ => False) fun _ => False := by
    obtain ⟨entries, -, ledger⟩ := (FrameM.nativeSlots_accounts (m := u.memory) measured
      (FrameM.firstMismatch_of_accepted accepted)).of_ok filled
    rw [memory] at ledger
    obtain ⟨freed, others, -, released⟩ := FrameM.releaseAll_sheds ledger unwindable hands
      (fun b live other => lifts.other_stays delivers sheds live other) fun _ => False
    refine released.mono (fun _ y sheds' b listed => ?_) fun _ _ never => never
    rw [sheds'.live_iff]
    rcases List.mem_append.1 listed with handed | new
    · have kept : b ∉ freed := fun gone => (others b gone).2 handed
      have other : b ∉ copies := fun new => fresh b new (delivers.keeps.1 b handed)
      simp only [lifts.handed_stays_iff delivers sheds handed, kept, other, not_false_eq_true,
        and_true, false_or, lifted]
    · have kept : b ∉ freed := fun gone => fresh b new (others b gone).1
      simp only [lifts.copy_stays delivers sheds new, kept, new, not_false_eq_true, and_true, true_or]
  have stays (y : Scratch) (clears : d.Clears y) (same : y.memory.pending = d.memory.pending)
      (exact' : ∀ owed, Unwindable plan s.memory m v.memory f ret outs owed [] →
        (∀ p ∈ plan.inputs, p.type.isMeasuredWithin = true) →
        ∀ b ∈ outs.flatMap Output.handed ++ copies, y.memory.heap.Live b ↔
          b ∈ copies ∨ b ∈ lifted.flatMap Output.handed ∧ b ∉ lifted.flatMap Output.settled) :
      y.memory.pending = none ∧
        (∀ b, y.memory.heap.Live b → v.memory.heap.Live b ∨ b ∈ copies) ∧
        (∀ b ∈ outs.flatMap Output.handed, y.memory.heap.Live b →
          b ∈ lifted.flatMap Output.handed ∧ b ∉ lifted.flatMap Output.settled) ∧
        ∀ owed, Unwindable plan s.memory m v.memory f ret outs owed [] →
          (∀ p ∈ plan.inputs, p.type.isMeasuredWithin = true) →
          ∀ b ∈ outs.flatMap Output.handed ++ copies, y.memory.heap.Live b ↔
            b ∈ copies ∨ b ∈ lifted.flatMap Output.handed ∧ b ∉ lifted.flatMap Output.settled := by
    refine ⟨same.trans still, fun b live => within b (clears.memory.blocks b live),
      fun b handed live => ?_, exact'⟩
    exact (lifts.handed_stays_iff delivers sheds handed).1 (clears.memory.blocks b live)
  refine FrameM.finish_failed ended ?_
  refine ((((gives_outcome _ _).both (FrameM.releaseAll_gone d)).both
    (FrameM.within_releaseAll steady_pending.toReleasing plan d)).mono ?_ ?_).mono_halted ?_
  · rintro _ y ⟨⟨run, clears, -⟩, same⟩
    exact ⟨rfl, stays y clears same fun owed unwindable measured =>
      (exactly owed unwindable measured).of_ok run⟩
  · rintro _ y ⟨⟨run, clears, -⟩, same⟩
    exact ⟨rfl, stays y clears same fun owed unwindable measured =>
      ((exactly owed unwindable measured).of_error run).elim⟩
  · rintro h ⟨y, run⟩
    exact ⟨d, y, discarded, run⟩

/-! ### Two such calls -/

/-- Gives a new text, and a character that is none. -/
def charFunction (slots : List Slot) : Native Unit :=
  .request (.duplicate "text") fun text =>
    .request (.store (slots.headD .null).toNat 4 (.ofNat 0xd800)) fun () => .ret (.ofNat text)

/-- The functions `text` and `new` give a character that is none, after a new text or a new struct. -/
def charWorld : World Unit where
  environment :=
    let char : ArgumentRecord := { name := "c", type := { tag := .unichar }, direction := .output }
    let text : CallableRecord :=
      { namespaceName := "T", name := "text", arguments := [char], returnType := .utf8
        returnTransfer := .everything }
    let new : CallableRecord :=
      { namespaceName := "T", name := "new", arguments := [char]
        returnType := TypeRecord.byPointer (.named "T.P"), returnTransfer := .everything }
    let types := Repository.initial.insertEntry
      { namespaceName := "T", name := "P", kind := .struct, size := some 8 }
    ⟨(types.insertFunction text).insertFunction new, .pin⟩
  library
    | "text" => some charFunction
    | _ => some fun slots =>
      .request (.alloc 8 8) fun block =>
        .request (.store (slots.headD .null).toNat 4 (.ofNat 0xd800)) fun () => .ret (.ofNat block)
  script _ _ := .ret .undefined
  kept _ := []

def charParameter : Parameter :=
  ⟨"c", .normal, .output, .nothing, false, false, none, .basic .unichar false⟩

def charPlan : Plan where
  name := "T.text"
  parameters := [charParameter]
  returnType := .basic (.string false) true
  returnTransfer := .everything
  mayReturnNull := false
  returnLength := none
  skipReturn := false
  isMethod := false
  canThrow := false

/-- The text and the character, as they are given back. -/
def charOutputs : List Output :=
  [.value (.basic (.string false) true) .everything (.ofNat 24) none ⟨[⟨24, 5⟩], []⟩ ⟨[⟨24, 5⟩], []⟩,
    .value (.basic .unichar false) .nothing (.ofNat 0xd800) none .empty .empty]

theorem delivers_char {s : Scratch} (stored : s.frame.cell? 0 = some (.value 16))
    (reads : FrameM.current 0 charParameter s = .ok (.ofNat 0xd800) s)
    (text : s.memory.heap.Live ⟨24, 5⟩) : s.Delivers charPlan (.ofNat 24) charOutputs := by
  have owned : Owns s.memory.heap (.basic (.string false) true) (.ofNat 24) 0 ⟨[⟨24, 5⟩], []⟩ :=
    (owns_string rfl).2 ⟨⟨24, 5⟩, rfl, rfl⟩
  have bare : Owns s.memory.heap (.basic .unichar false) (.ofNat 0xd800) 0 .empty :=
    owns_empty_of_bare rfl rfl _ 0
  refine ⟨?_, ?_, ?_, ?_⟩
  · exact .cons (.result rfl) (.cons (.cell stored reads rfl) .nil)
  · refine List.forall_mem_cons.2 ⟨?_, List.forall_mem_singleton.2 ?_⟩
    · exact ⟨0, owned, owned, .refl _, fun _ _ => .inl trivial⟩
    · exact ⟨0, bare, bare, .refl _, fun everything => by cases everything⟩
  · rintro b listed
    rwa [List.mem_singleton.1 listed]
  · exact List.nodup_singleton _

/-- The text of `text` is given to the script before its character turns out to be none. It is freed. -/
theorem failed_lift_leaves_nothing :
    ∃ t, Session.callNested charWorld 1 [] "T.text" none [] (.start ()) =
        .error (.error (.conversion (.invalidChar 0xd800))) t ∧ ¬ t.memory.heap.Live ⟨24, 5⟩ := by
  obtain ⟨b, s₁, bound, binding⟩ :=
    Action.exists_ok_such (x := Session.bind charWorld "T.text") (s := .start ())
      (fun b s₁ => b.callable.symbolName == "text" &&
        (Session.prepare charWorld "T.text" b).succeeds s₁ fun plan u => plan == charPlan &&
          (FrameM.nativeSlots charWorld.environment charPlan none []).succeeds
            ⟨.start 1, u.memory⟩ fun slots x =>
              x.frame.cell? 0 == some (.value 16) && x.frame.errorCell == none &&
              ((charFunction slots).run (Session.callback charWorld 0 [])).succeeds
                (u.entering x.memory "text" slots) fun ret v =>
                  ret == .ofNat 24 && v.memory.heap.blockSize? 24 == some 5 &&
                  v.memory.pending == none &&
                  (FrameM.current 0 charParameter).succeeds ⟨x.frame, v.memory⟩
                    (fun slot _ => slot == .ofNat 0xd800) &&
                  (do
                    FrameM.liftReturn [] charPlan ret none
                    FrameM.liftParameters [] charPlan charPlan.parameters.zipIdx : FrameM Unit).fails
                    ⟨x.frame, v.memory⟩ fun e y =>
                      e == .conversion (.invalidChar 0xd800) && y.frame.outputs.length == 1)
      (by decide +kernel)
  simp only [Bool.and_eq_true, beq_iff_eq] at binding
  obtain ⟨symbol, prepares⟩ := binding
  obtain ⟨plan, u, prepared, facts⟩ := Action.exists_ok_such _ prepares
  simp only [Bool.and_eq_true, beq_iff_eq] at facts
  obtain ⟨rfl, fills⟩ := facts
  obtain ⟨slots, ⟨f, m⟩, filled, facts⟩ := Action.exists_ok_such _ fills
  simp only [Bool.and_eq_true, beq_iff_eq] at facts
  obtain ⟨⟨stored, noCell⟩, runs⟩ := facts
  obtain ⟨ret, v, ran, facts⟩ := Action.exists_ok_such _ runs
  simp only [Bool.and_eq_true, beq_iff_eq] at facts
  obtain ⟨⟨⟨⟨rfl, text⟩, calm⟩, shows⟩, lifts⟩ := facts
  obtain ⟨slot, y, reads, char⟩ := Action.exists_ok_such _ shows
  obtain rfl := beq_iff_eq.1 char
  have same : Action.Composes fun s t : Scratch => t = s :=
    ⟨fun _ => rfl, fun first second => second.trans first⟩
  obtain rfl := (FrameM.across_current same 0 charParameter _).of_ok reads
  obtain ⟨e, x, refused, facts⟩ := Action.exists_error_such _ lifts
  simp only [Bool.and_eq_true, beq_iff_eq] at facts
  obtain ⟨rfl, count⟩ := facts
  have accepted : checkArguments charWorld.environment.repository charPlan [] = .ok () := rfl
  have defined : charWorld.library b.callable.symbolName = some charFunction := by
    rw [symbol]
    rfl
  have empty : FrameM.NoError ⟨f, v.memory⟩ := by
    intro cell listed
    rw [noCell] at listed
    cases listed
  obtain ⟨e, t, failed, -⟩ :=
    Action.exists_error_such (x := Session.callNested charWorld 1 [] "T.text" none [])
      (s := .start ()) (fun _ _ => true) (by decide +kernel)
  have kept : charWorld.kept v.host = [] := rfl
  generalize charWorld = w at *
  obtain ⟨-, copies, -, -, ends⟩ := failed_lift_leaves bound prepared accepted rfl filled defined
    (symbol ▸ ran) calm empty (delivers_char stored reads text) (kept ▸ refused)
  obtain ⟨rfl, -, -, left, -⟩ := ends.of_error failed
  refine ⟨t, failed, fun live => ?_⟩
  have settled := (left ⟨24, 5⟩ (by decide) live).2
  rw [count] at settled
  exact settled (by decide)

/-- The struct of `new` is given to the script before its character turns out to be none. The script is
not given the wrapper that owns it, and it stays. -/
theorem failed_lift_strands :
    ∃ t, Session.callNested charWorld 1 [] "T.new" none [] (.start ()) =
      .error (.error (.conversion (.invalidChar 0xd800))) t ∧ t.memory.heap.Live ⟨24, 8⟩ := by
  obtain ⟨e, t, failed, left⟩ :=
    Action.exists_error_such (x := Session.callNested charWorld 1 [] "T.new" none [])
      (s := .start ()) (fun e t => e == .conversion (.invalidChar 0xd800) &&
        t.memory.heap.blockSize? 24 == some 8) (by decide +kernel)
  simp only [Bool.and_eq_true, beq_iff_eq] at left
  exact ⟨t, left.1 ▸ failed, left.2⟩

end ForeignCall
