import ForeignCall.Proofs.Call.Convention
import ForeignCall.Proofs.Call.Roles
import ForeignCall.Proofs.Call.Transferred

/-!
What a call that succeeds gives to the script.

The outputs are counted when the plan is derived and lifted one after the other when the native function
returned. Both go over the same sources: the return value unless it is skipped, and then every visible
argument that goes out, in the order of the declaration, each with a cell of its own.
-/

set_option autoImplicit false

namespace ForeignCall

open ForeignCall.Action

variable {plan : Plan} {p : Parameter} {position : Nat} {s t : Scratch} {source : Source}

/-- The argument that holds the length of an array. -/
def Parameter.lengthLink? (p : Parameter) : Option Nat :=
  match p.role with
  | .array length => some length
  | _ => none

namespace Frame

variable (f : Frame) (h : Heap)

/-- What an argument holds: the content of its cell, the address of its block, or its slot. -/
def presentSlot (position : Nat) (p : Parameter) : Slot :=
  match f.cell? position with
  | some (.value cell) => h.slotAt cell p.type.slotSize
  | some (.block address) => .ofNat address
  | none => f.slot position

/-- The length that the linked argument holds. -/
def presentLength (plan : Plan) (link : Option Nat) : Option Nat := do
  let position ← link
  let p ← plan.parameters[position]?
  return lengthValue p.type (f.presentSlot h position p)

/-- The function was given the address of the cell for the argument, and for no other one. -/
structure Lends (position : Nat) (c : Cell) : Prop where
  cell : f.cell? position = some c
  slot : f.slot position = .ofNat c.address
  alone : ∀ (i : Nat) (d : Cell), f.cell? i = some d → f.slot i = f.slot position → i = position

end Frame

namespace Source

/-- The argument that a source stands for. -/
def position? : Source → Option Nat
  | .result => none
  | .parameter _ position => some position

/-- The argument that holds the length of what a source delivers. -/
def link? (plan : Plan) : Source → Option Nat
  | .result => plan.returnLength
  | .parameter p _ => p.lengthLink?

/-- Two sources do not stand for the same argument. -/
def Apart (x y : Source) : Prop :=
  ∀ i, x.position? = some i → y.position? ≠ some i

/-- The value that a source gives with a frame and a memory, among the values that are held. A method may
return its receiver. A result and the content of a cell are lifted with the length that their linked
argument holds, and a block of the caller is lifted by reference. -/
inductive Gives (plan : Plan) (held : List Value) (ret : Slot) (receiver : Option Value) (f : Frame)
    (m : Memory) : Source → Value → Prop
  | receiver {v : Value} (returned : FrameM.returnedReceiver? plan ret receiver = some v) :
      Gives plan held ret receiver f m .result v
  | result {v : Value} {u : Memory} (other : FrameM.returnedReceiver? plan ret receiver = none)
      (lifted : lift held plan.returnType ret (f.presentLength m.heap plan plan.returnLength)
        (plan.returnTransfer != .everything) m = .ok v u) :
      Gives plan held ret receiver f m .result v
  | value {p : Parameter} {position cell : Nat} {v : Value} {u : Memory}
      (stored : f.cell? position = some (.value cell))
      (within : m.heap.Accessible cell p.type.slotSize)
      (lifted : lift held p.type (m.heap.slotAt cell p.type.slotSize)
        (f.presentLength m.heap plan p.lengthLink?) (p.transfer != .everything) m = .ok v u) :
      Gives plan held ret receiver f m (.parameter p position) v
  | block {p : Parameter} {position address : Nat} {v : Value} {u : Memory}
      (stored : f.cell? position = some (.block address))
      (lifted : lift held p.type.byReference (.ofNat address) none false m = .ok v u) :
      Gives plan held ret receiver f m (.parameter p position) v

end Source

/-- The frame has the same slots and cells, but for the cells of some sources. -/
structure Frame.Drops (f g : Frame) (sources : List Source) : Prop where
  slots : g.slots = f.slots
  cells : ∀ i, (∀ x ∈ sources, x.position? ≠ some i) → g.cell? i = f.cell? i

theorem Frame.Drops.trans {f g k : Frame} {sources more : List Source} (first : f.Drops g sources)
    (second : g.Drops k more) : f.Drops k (sources ++ more) where
  slots := second.slots.trans first.slots
  cells i other := by
    obtain ⟨other, other'⟩ := List.forall_mem_append.1 other
    rw [second.cells i other', first.cells i other]

/-- A value was pushed, and no cell was dropped but that of its source. -/
structure Scratch.Pushes (s t : Scratch) (source : Source) (v : Value) : Prop where
  drops : s.frame.Drops t.frame [source]
  outputs : t.frame.outputs = s.frame.outputs ++ [v]

section Congruence

variable {f g : Frame} {h : Heap} {m : Memory} {ret : Slot} {receiver : Option Value}
  {held : List Value} {v : Value}

theorem Frame.presentSlot_congr (slots : g.slots = f.slots)
    (cell : g.cell? position = f.cell? position) :
    g.presentSlot h position p = f.presentSlot h position p := by
  rw [presentSlot, presentSlot, cell, Frame.slot, slots, Frame.slot]

theorem Frame.presentLength_congr {link : Option Nat} (slots : g.slots = f.slots)
    (cells : ∀ i, link = some i → g.cell? i = f.cell? i) :
    g.presentLength h plan link = f.presentLength h plan link := by
  cases link with
  | none => rfl
  | some i =>
    rw [presentLength, presentLength]
    simp only [Option.bind_eq_bind, Option.bind_some, presentSlot_congr slots (cells i rfl)]

/-- What a source gives depends on its own cell and on the argument that holds its length. -/
theorem Source.Gives.congr (slots : g.slots = f.slots)
    (own : ∀ i, source.position? = some i → g.cell? i = f.cell? i)
    (linked : ∀ i, source.link? plan = some i → g.cell? i = f.cell? i)
    (gives : source.Gives plan held ret receiver g m v) :
    source.Gives plan held ret receiver f m v := by
  have length : g.presentLength m.heap plan (source.link? plan) =
      f.presentLength m.heap plan (source.link? plan) :=
    Frame.presentLength_congr slots linked
  cases gives with
  | receiver returned => exact .receiver returned
  | result other lifted =>
    rw [link?] at length
    exact .result other (length ▸ lifted)
  | value stored within lifted =>
    rw [link?] at length
    exact .value ((own _ rfl).symm.trans stored) within (length ▸ lifted)
  | block stored lifted => exact .block ((own _ rfl).symm.trans stored) lifted

end Congruence

namespace FrameM

variable {around : List Value} {ret : Slot} {receiver : Option Value} {slot : Slot}

/-! ### Reading -/

theorem load_reads {address size : Nat} {h : Heap} : (Heap.load address size).Gives h
    (fun slot g => g = h ∧ h.Accessible address size ∧ slot = h.slotAt address size)
    (fun _ _ => True) fun _ => True := by
  by_cases within : h.Accessible address size
  · exact gives_of_ok (Heap.load_eq within) ⟨rfl, within, rfl⟩
  · rw [Heap.load, gives_bind]
    simp only [Gives, Heap.read, if_neg within]

theorem current_reads : (current position p).Gives s
    (fun slot t => t = s ∧ slot = s.frame.presentSlot s.memory.heap position p ∧
      ∀ cell, s.frame.cell? position = some (.value cell) →
        s.memory.heap.Accessible cell p.type.slotSize) (fun _ _ => True) fun _ => True := by
  rw [current, gives_bind, gives_frame]
  cases stored : s.frame.cell? position with
  | none => exact ⟨rfl, by rw [Frame.presentSlot, stored], by rintro _ ⟨⟩⟩
  | some c =>
    cases c with
    | value cell =>
      dsimp only
      rw [gives_touch]
      refine load_reads.mono ?_ fun _ _ _ => trivial
      rintro slot _ ⟨rfl, within, rfl⟩
      refine ⟨rfl, by rw [Frame.presentSlot, stored], ?_⟩
      rintro _ ⟨⟩
      exact within
    | block address => exact ⟨rfl, by rw [Frame.presentSlot, stored], by rintro _ ⟨⟩⟩

theorem lengthAt_reads : (lengthAt plan position).Gives s
    (fun length t => t = s ∧ length = s.frame.presentLength s.memory.heap plan (some position))
    (fun _ _ => True) fun _ => True := by
  unfold lengthAt
  cases found : plan.parameters[position]? with
  | none => exact ⟨rfl, by simp [Frame.presentLength, found]⟩
  | some p =>
    rw [gives_bind]
    refine current_reads.mono ?_ fun _ _ _ => trivial
    rintro slot _ ⟨rfl, rfl, -⟩
    exact ⟨rfl, by simp [Frame.presentLength, found]⟩

theorem outputLength_reads : (outputLength plan p).Gives s
    (fun length t => t = s ∧ length = s.frame.presentLength s.memory.heap plan p.lengthLink?)
    (fun _ _ => True) fun _ => True := by
  unfold outputLength
  cases role : p.role with
  | array length =>
    rw [Parameter.lengthLink?, role]
    exact lengthAt_reads
  | _ => exact ⟨rfl, by rw [Parameter.lengthLink?, role]; rfl⟩

theorem returnLength_reads : (returnLength plan).Gives s
    (fun length t => t = s ∧ length = s.frame.presentLength s.memory.heap plan plan.returnLength)
    (fun _ _ => True) fun _ => True := by
  unfold returnLength
  cases plan.returnLength with
  | none => exact ⟨rfl, rfl⟩
  | some position => exact lengthAt_reads

/-! ### One output -/

theorem liftOutput_lifts_now (d : Descriptor) (length : Option Nat) (copy : Bool) :
    (liftOutput around d slot length copy).Gives s
      (fun v t => t.frame = s.frame ∧
        ∃ m, lift (s.frame.outputs ++ around) d slot length copy s.memory = .ok v m)
      (fun _ _ => True) fun _ => True := by
  rw [liftOutput, gives_bind, gives_frame, gives_convert]
  exact (gives_self _ _).mono (fun v m lifted => ⟨rfl, m, lifted⟩) fun _ _ _ => trivial

/-- What is left to do for a value that was lifted: it is pushed and settled. -/
theorem push_settled {d : Descriptor} {transfer : Transfer} {length : Option Nat} {v : Value}
    (kept : t.frame = s.frame) : (do
      pushOutput v
      settleLifted d slot transfer length : FrameM Unit).Gives t
      (fun _ u => s.Pushes u source v) (fun _ _ => True) fun _ => True := by
  rw [gives_bind, pushOutput, gives_modifyFrame, settleLifted, gives_convert, gives_onHeap, kept]
  exact (gives_anyhow _ _).mono (fun _ _ _ => ⟨⟨rfl, fun _ _ => rfl⟩, rfl⟩) fun _ _ _ => trivial

theorem push_dropped {v : Value} (kept : t.frame = s.frame) : (do
      pushOutput v
      dropCell position : FrameM Unit).Gives t
      (fun _ u => s.Pushes u (.parameter p position) v) (fun _ _ => True) fun _ => True := by
  rw [gives_bind, pushOutput, gives_modifyFrame, dropCell, gives_modifyFrame, kept]
  refine ⟨⟨rfl, fun i other => ?_⟩, rfl⟩
  have elsewhere : i ≠ position := fun same =>
    other _ (List.mem_singleton_self _) (congrArg some same.symm)
  rw [Frame.cell?_drop, if_neg elsewhere]
  rfl

/-- Every output gives the script the value of its source. -/
theorem liftSource_gives (listed : source ∈ plan.sources)
    (occupied : ∀ i, source.position? = some i → (s.frame.cell? i).isSome = true) :
    (liftSource around plan ret receiver source).Gives s
      (fun _ t => ∃ v, s.Pushes t source v ∧
        source.Gives plan (s.frame.outputs ++ around) ret receiver s.frame s.memory v)
      (fun _ _ => True) fun _ => True := by
  cases source with
  | result =>
    rw [liftSource, liftReturn, skipReturn_of_result listed, Bool.not_false, if_pos rfl, gives_bind]
    refine returnLength_reads.mono ?_ fun _ _ _ => trivial
    rintro length _ ⟨rfl, rfl⟩
    dsimp only
    split
    · rename_i v returned
      exact (push_settled rfl).mono (fun _ _ pushes => ⟨v, pushes, .receiver returned⟩)
        fun _ _ _ => trivial
    · rename_i other
      rw [gives_bind]
      refine (liftOutput_lifts_now _ _ _).mono ?_ fun _ _ _ => trivial
      rintro v t ⟨kept, m, lifted⟩
      exact (push_settled kept).mono (fun _ _ pushes => ⟨v, pushes, .result other lifted⟩)
        fun _ _ _ => trivial
  | parameter p position =>
    obtain ⟨c, stored⟩ := Option.isSome_iff_exists.1 (occupied position rfl)
    rw [liftSource, liftParameter, gives_bind]
    refine outputLength_reads.mono ?_ fun _ _ _ => trivial
    rintro length _ ⟨rfl, rfl⟩
    rw [gives_bind, gives_frame, stored]
    cases c with
    | block address =>
      dsimp only
      rw [gives_bind]
      refine (liftOutput_lifts_now _ _ _).mono ?_ fun _ _ _ => trivial
      rintro v t ⟨kept, m, lifted⟩
      exact (push_dropped kept).mono (fun _ _ pushes => ⟨v, pushes, .block stored lifted⟩)
        fun _ _ _ => trivial
    | value cell =>
      dsimp only
      rw [gives_bind]
      refine current_reads.mono ?_ fun _ _ _ => trivial
      rintro slot _ ⟨rfl, shown, within⟩
      rw [Frame.presentSlot, stored] at shown
      subst shown
      rw [gives_bind]
      refine (liftOutput_lifts_now _ _ _).mono ?_ fun _ _ _ => trivial
      rintro v t ⟨kept, m, lifted⟩
      exact (push_settled kept).mono
        (fun _ _ pushes => ⟨v, pushes, .value stored (within cell stored) lifted⟩) fun _ _ _ => trivial

/-! ### All outputs -/

/-- Lifting some outputs drops no cell but theirs. -/
theorem liftSources_drop {sources : List Source} (inside : ∀ x ∈ sources, x ∈ plan.sources)
    (apart : sources.Pairwise Source.Apart)
    (occupied : ∀ x ∈ sources, ∀ i, x.position? = some i → (s.frame.cell? i).isSome = true)
    (ran : sources.forM (liftSource around plan ret receiver) s = .ok () t) :
    s.frame.Drops t.frame sources := by
  induction sources generalizing s with
  | nil =>
    cases ran
    exact ⟨rfl, fun _ _ => rfl⟩
  | cons first rest ih =>
    obtain ⟨listed, inside⟩ := List.forall_mem_cons.1 inside
    obtain ⟨own, occupied⟩ := List.forall_mem_cons.1 occupied
    obtain ⟨ahead, apart⟩ := List.pairwise_cons.1 apart
    rw [List.forM] at ran
    obtain ⟨_, u, lifted, ran⟩ := exists_of_bind ran
    obtain ⟨v, pushes, -⟩ := (liftSource_gives listed own).of_ok lifted
    refine pushes.drops.trans (ih inside apart (fun x later i here => ?_) ran)
    have elsewhere : first.position? ≠ some i := fun there => ahead x later i there here
    rw [pushes.drops.cells i (by simpa using elsewhere)]
    exact occupied x later i here

end FrameM

/-! ### Sources and their cells -/

section Sources

theorem Plan.position_of_source (listed : .parameter p position ∈ plan.sources) :
    plan.parameters[position]? = some p ∧ p.isOutput = true := by
  rcases List.mem_append.1 listed with first | second
  · split at first
    · cases first
    · rw [List.mem_singleton] at first
      cases first
  · obtain ⟨e, kept, same⟩ := List.mem_map.1 second
    obtain ⟨member, output⟩ := List.mem_filter.1 kept
    cases same
    exact ⟨plan.getElem?_position e member, output⟩

theorem Plan.sources_apart (plan : Plan) : plan.sources.Pairwise Source.Apart := by
  have positions : (plan.parameters.zipIdx.filter (·.1.isOutput)).Pairwise fun a b => a.2 ≠ b.2 := by
    refine List.Pairwise.filter _ ?_
    exact List.pairwise_map.1 plan.nodup_positions
  rw [sources, List.pairwise_append]
  refine ⟨?_, ?_, ?_⟩
  · split
    · exact .nil
    · exact List.pairwise_singleton _ _
  · rw [List.pairwise_map]
    exact positions.imp fun different i here there =>
      different (Option.some.inj (here.trans there.symm))
  · intro x first y _ i here
    split at first
    · cases first
    · rw [List.mem_singleton.1 first] at here
      cases here

theorem Plan.length_sources (plan : Plan) : plan.sources.length = plan.outputCount := by
  have outputs : plan.outputs = (plan.parameters.zipIdx.filter (·.1.isOutput)).map Prod.fst := by
    conv_lhs => rw [Plan.outputs, ← List.zipIdx_map_fst 0 plan.parameters, List.filter_map]
    rfl
  rw [sources, outputCount, outputs, List.length_append, List.length_map, List.length_map,
    Nat.add_comm]
  congr 1
  split <;> rfl

/-- The argument that holds a length is no output itself. -/
theorem Plan.link_apart {r : Repository} {c : CallableRecord} {l : Nat}
    (derived : derive r c = .ok plan) (listed : source ∈ plan.sources)
    (linked : source.link? plan = some l) : ∀ x ∈ plan.sources, x.position? ≠ some l := by
  obtain ⟨claimed, origin⟩ := exists_derivedFrom derived
  have hidden : ∃ q : Parameter, plan.parameters[l]? = some q ∧ q.role = .skip := by
    cases source with
    | result =>
      refine origin.hidden (origin.mem_absorbed_iff.1 (List.mem_append_right _ ?_))
      exact Option.mem_toList.2 linked
    | parameter p position =>
      refine (origin.links (position_of_source listed).1 ?_).2
      rw [Source.link?, Parameter.lengthLink?] at linked
      rw [Parameter.LinksTo]
      split at linked <;> simp_all
  obtain ⟨q, found, skip⟩ := hidden
  rintro (_ | ⟨p, position⟩) member ⟨⟩
  obtain ⟨found', output⟩ := position_of_source member
  cases found.symm.trans found'
  simp [Parameter.isOutput, Parameter.isVisible, skip] at output

variable {env : Environment} {receiver : Option Nat} {arguments : List Value} {m : Memory}
  {slots : List Slot}

theorem FrameM.nativeSlots_slots (filled : nativeSlots env plan receiver arguments s = .ok slots t) :
    slots = receiver.toList.map .ofNat ++ t.frame.slots ++ t.frame.errorCell.toList.map .ofNat := by
  unfold nativeSlots at filled
  obtain ⟨_, _, -, filled⟩ := exists_of_bind filled
  obtain ⟨_, _, -, filled⟩ := exists_of_bind filled
  obtain ⟨_, _, -, filled⟩ := exists_of_bind filled
  cases filled
  rfl

/-- The cell of every argument that is not only an input is lent to the function. -/
theorem FrameM.nativeSlots_lends (wired : plan.Wired)
    (filled : nativeSlots env plan receiver arguments ⟨.start plan.parameters.length, m⟩ = .ok slots t)
    (found : plan.parameters[position]? = some p) (direction : p.direction ≠ .input) :
    ∃ c, t.frame.Lends position c := by
  have formed := (nativeSlots_formed env plan receiver arguments m).of_ok filled
  obtain ⟨declared, own, error, conveys, same⟩ :=
    (nativeSlots_conveys env receiver arguments wired m).of_ok filled
  obtain rfl : declared = t.frame.slots := by
    rw [nativeSlots_slots filled, List.append_assoc, List.append_assoc] at same
    have long : t.frame.slots.length = declared.length := by
      rw [formed.lengths, formed.sized, conveys.length]
    exact (List.append_inj (List.append_cancel_left same) long).1.symm
  have placed {i : Nat} {q : Parameter} (found : plan.parameters[i]? = some q)
      (direction : q.direction ≠ .input) : ∃ b : Block, own i = some b ∧
        t.frame.slot i = .ofNat b.address ∧ t.memory.heap.Live b := by
    have passed := conveys.passed i q found
    rw [Frame.slot]
    generalize t.frame.slots.getD i .null = slot, own i = block at passed ⊢
    cases passed with
    | input input _ => exact absurd input direction
    | output _ new => exact ⟨_, rfl, rfl, new.live⟩
    | inout _ new => exact ⟨_, rfl, rfl, new.live⟩
  obtain ⟨b, mine, shown, live⟩ := placed found direction
  cases stored : t.frame.cell? position with
  | none =>
    -- without a cell the slot is null, but it has the address of the argument's own block
    have null := formed.unfilled position p found direction stored
    have zero : b.address = 0 := by
      rw [← live.toNat_ofNat, ← shown, null]
      rfl
    have guarded := live.inside.1
    rw [zero] at guarded
    cases guarded
  | some c =>
    obtain ⟨-, -, -, put, -⟩ := formed.cells position c stored
    refine ⟨c, stored, put, fun i d stored' same => ?_⟩
    obtain ⟨q, found', direction', -, -⟩ := formed.cells i d stored'
    obtain ⟨b', mine', shown', live'⟩ := placed found' direction'
    refine conveys.distinct i position b' b mine' mine ?_
    rw [← live'.toNat_ofNat, ← live.toNat_ofNat, ← shown', ← shown, same]

end Sources

/-! ### The call -/

namespace FrameM

/-- One of the outputs, with the state it is lifted in. It is lifted with the frame of before. -/
theorem liftSources_at {around : List Value} {ret : Slot} {receiver : Option Value}
    {before after : List Source} (split : plan.sources = before ++ source :: after)
    (occupied : ∀ z ∈ plan.sources, ∀ i, z.position? = some i → (s.frame.cell? i).isSome = true)
    (linked : ∀ l, source.link? plan = some l → ∀ z ∈ plan.sources, z.position? ≠ some l)
    (empty : s.frame.outputs = [])
    (ran : plan.sources.forM (liftSource around plan ret receiver) s = .ok () t) :
    ∃ a v, before.forM (liftSource around plan ret receiver) s = .ok () a ∧
      t.frame.outputs[before.length]? = some v ∧
      source.Gives plan (t.frame.outputs.take before.length ++ around) ret receiver s.frame a.memory
        v := by
  have earlier : ∀ z ∈ before, z ∈ plan.sources := fun z listed =>
    split ▸ List.mem_append_left _ listed
  have later : ∀ z ∈ source :: after, z ∈ plan.sources := fun z listed =>
    split ▸ List.mem_append_right _ listed
  have listed := later source List.mem_cons_self
  have apart := plan.sources_apart
  rw [split, List.pairwise_append] at apart
  obtain ⟨apart, -, across⟩ := apart
  rw [split] at ran
  obtain ⟨a, b, first, here, rest⟩ := exists_of_forM_append ran
  -- earlier sources drop their own cells only, so this one still finds its cell and that of its length
  have drops : s.frame.Drops a.frame before :=
    liftSources_drop earlier apart (fun z member => occupied z (earlier z member)) first
  have own : ∀ i, source.position? = some i → a.frame.cell? i = s.frame.cell? i := fun i mine =>
    drops.cells i fun z member theirs => across z member source List.mem_cons_self i theirs mine
  have stored : ∀ i, source.position? = some i → (a.frame.cell? i).isSome = true := fun i mine =>
    own i mine ▸ occupied source listed i mine
  obtain ⟨v, pushes, gives⟩ := (liftSource_gives listed stored).of_ok here
  obtain ⟨values, many, began⟩ := liftSources_yield earlier first
  obtain ⟨more, -, ended⟩ :=
    liftSources_yield (fun z member => later z (List.mem_cons_of_mem _ member)) rest
  have outputs : t.frame.outputs = values ++ v :: more := by
    rw [ended.outputs, pushes.outputs, began.outputs, empty]
    simp
  refine ⟨a, v, first, by simp [outputs, ← many], ?_⟩
  rw [outputs, ← many, List.take_left, ← List.nil_append values, ← empty, ← began.outputs]
  refine gives.congr drops.slots own fun l reads => drops.cells l fun z member => ?_
  exact linked l reads z (earlier z member)

theorem resultOf_shape (outputs : List Value) :
    (outputs.length = 0 → resultOf outputs = .undefined) ∧
      (outputs.length = 1 → outputs = [resultOf outputs]) ∧
      (1 < outputs.length → resultOf outputs = .array outputs) := by
  match outputs with
  | [] => exact ⟨fun _ => rfl, nofun, nofun⟩
  | [v] => exact ⟨nofun, fun _ => rfl, fun two => absurd two (Nat.lt_irrefl 1)⟩
  | v :: w :: rest => exact ⟨nofun, fun one => absurd one (by simp), fun _ => rfl⟩

end FrameM

section Call

variable {σ : Type} {w : World σ} {depth : Nat} {held : List Value} {name : String}
  {receiver : Option Value} {arguments : List Value} {s t u x : Session σ} {f : Frame} {ret : Slot}
  {value : Value}

theorem Session.Returns.plan_eq {plan' : Plan}
    (returns : Returns w depth held name receiver arguments s plan' f ret x)
    (planned : planOf w name s = .ok plan u) : plan' = plan := by
  cases returns with
  | intro bound prepared _ _ _ _ _ =>
    rw [planOf, bind_of_ok bound, prepared] at planned
    cases planned
    rfl

theorem Session.Returns.lends (wired : plan.Wired)
    (returns : Returns w depth held name receiver arguments s plan f ret x)
    (listed : .parameter p position ∈ plan.sources) : ∃ c, f.Lends position c := by
  obtain ⟨found, output⟩ := Plan.position_of_source listed
  cases returns with
  | intro _ _ _ _ filled _ _ =>
    refine FrameM.nativeSlots_lends wired filled found fun input => ?_
    rw [Parameter.isOutput, input] at output
    simp [Direction.isOut] at output

/-- A call that succeeds gives as many values as its plan counts: none, a single one, or all of them as
an array. They are those of its sources in order, each with the memory of when it is its turn, and those
of the arguments from the cells that the function was lent for them. -/
theorem results_in_order {c : CallableRecord} (planned : Session.planOf w name s = .ok plan u)
    (derived : Plan.derive w.environment.repository c = .ok plan)
    (ran : Session.callNested w (depth + 1) held name receiver arguments s = .ok value t) :
    ∃ f ret x outputs,
      Session.Returns w depth held name receiver arguments s plan f ret x ∧
      outputs.length = plan.outputCount ∧
      (plan.outputCount = 0 → value = .undefined) ∧
      (plan.outputCount = 1 → outputs = [value]) ∧
      (1 < plan.outputCount → value = .array outputs) ∧
      (∀ p position, .parameter p position ∈ plan.sources → ∃ c, f.Lends position c) ∧
      ∀ before source after, plan.sources = before ++ source :: after →
        ∃ a v, Session.Lifts w held plan receiver f ret x before a ∧
          outputs[before.length]? = some v ∧
          source.Gives plan (outputs.take before.length ++ (held ++ w.kept x.host)) ret receiver f
            a.memory v := by
  obtain ⟨plan', f, ret, x, returns, total, lifts, rfl, -⟩ := Session.returns_of_ok ran
  obtain rfl := returns.plan_eq planned
  have empty := returns.wraps.1
  have lends : ∀ p position, .parameter p position ∈ plan'.sources → ∃ c, f.Lends position c :=
    fun p position listed => returns.lends (Plan.wired_of_derive derived) listed
  have occupied : ∀ z ∈ plan'.sources, ∀ i, z.position? = some i → (f.cell? i).isSome = true := by
    rintro (_ | ⟨p, position⟩) listed i ⟨⟩
    obtain ⟨c, lent⟩ := lends p position listed
    rw [lent.cell]
    rfl
  have count : total.frame.outputs.length = plan'.outputCount := by
    obtain ⟨values, long, yields⟩ := FrameM.liftSources_yield (fun _ listed => listed) lifts
    rw [yields.outputs, empty, List.nil_append, long, plan'.length_sources]
  obtain ⟨undefined, single, array⟩ := FrameM.resultOf_shape total.frame.outputs
  rw [count] at undefined single array
  refine ⟨f, ret, x, total.frame.outputs, returns, count, undefined, single, array, lends, ?_⟩
  intro before source after split
  have listed : source ∈ plan'.sources := by
    rw [split]
    exact List.mem_append_right before List.mem_cons_self
  exact FrameM.liftSources_at split occupied (fun l => Plan.link_apart derived listed) empty lifts

def pickRecord : CallableRecord :=
  let int : TypeRecord := { tag := .integer ⟨.w32, true⟩ }
  { namespaceName := "T", name := "pick", returnType := int
    arguments :=
      [{ name := "numbers", type := { int.cArray with arrayLength := some 1 }, direction := .output
         transfer := .everything },
        { name := "count", type := int, direction := .output }] }

/-- The function `pick` gives a number and, in an argument, an array. A hidden argument has the length. -/
def pickWorld : World Unit where
  environment := ⟨Repository.initial.insertFunction pickRecord, .pin⟩
  library _ := some fun slots =>
    .request (.alloc 8 4) fun block =>
      .request (.store block 4 (.ofNat 10)) fun () =>
        .request (.store (block + 4) 4 (.ofNat 20)) fun () =>
          .request (.store (slots.headD .null).toNat 8 (.ofNat block)) fun () =>
            .request (.store (slots.getLastD .null).toNat 4 (.ofNat 2)) fun () => .ret (.ofNat 7)
  script _ _ := .ret .undefined
  kept _ := []

def numbersParameter : Parameter :=
  ⟨"numbers", .array 1, .output, .everything, false, false, none,
    .array (.basic (.integer ⟨.w32, true⟩) false) (.parameter 1) .c true⟩

def pickPlan : Plan where
  name := "T.pick"
  parameters :=
    [numbersParameter,
      ⟨"count", .skip, .output, .nothing, false, false, none, .basic (.integer ⟨.w32, true⟩) false⟩]
  returnType := .basic (.integer ⟨.w32, true⟩) false
  returnTransfer := .nothing
  mayReturnNull := false
  returnLength := none
  skipReturn := false
  isMethod := false
  canThrow := false

theorem results_in_order_pick :
    ∃ (v numbers : Value) (t : Session Unit) (f : Frame) (ret : Slot) (m : Memory),
      Session.callNested pickWorld 1 [] "T.pick" none [] (.start ()) = .ok (.array [v, numbers]) t ∧
        v.number? = some (.ofNat 7) ∧
        numbers.items?.map (·.map Value.number?) = some [some (.ofNat 10), some (.ofNat 20)] ∧
        (∃ c, f.Lends 0 c) ∧
        (Source.parameter numbersParameter 0).Gives pickPlan [v] ret none f m numbers := by
  obtain ⟨plan, u, planned, same⟩ :=
    exists_ok_such (x := Session.planOf pickWorld "T.pick") (s := .start ())
      (fun plan _ => plan == pickPlan) (by decide +kernel)
  obtain rfl := beq_iff_eq.1 same
  have derived : Plan.derive pickWorld.environment.repository pickRecord = .ok pickPlan := rfl
  obtain ⟨value, t, picked, shape⟩ :=
    exists_ok_such (x := Session.callNested pickWorld 1 [] "T.pick" none []) (s := .start ())
      (fun value _ =>
        let items := value.items?.getD []
        (items.headD .null).number? == some (.ofNat 7) &&
          (items.getLastD .null).items?.map (·.map Value.number?) ==
            some [some (.ofNat 10), some (.ofNat 20)]) (by decide +kernel)
  obtain ⟨f, ret, x, outputs, -, count, -, -, array, lends, each⟩ :=
    results_in_order planned derived picked
  obtain rfl := array (by decide)
  obtain ⟨v, numbers, rfl⟩ := List.length_eq_two.1 count
  simp only [Bool.and_eq_true, beq_iff_eq] at shape
  obtain ⟨y, given, -, second, gives⟩ := each [.result] (.parameter numbersParameter 0) [] rfl
  cases second
  exact ⟨v, numbers, t, f, ret, y.memory, picked, shape.1, shape.2,
    lends numbersParameter 0 (.tail _ (.head _)), gives⟩

end Call

end ForeignCall
