import ForeignCall.Proofs.Call.Cleanup
import ForeignCall.Proofs.Conversion.Copying
import ForeignCall.Proofs.Ownership.References

/-!
What a native function delivers, and who has it after a call worked it off.

An output is a value that is read from the return slot or a cell, or the struct block of the caller.
Its transfer hands blocks of it to the caller. Discarding an output frees these. Lifting frees of them
only what the value owns by itself: its structs and objects go to wrappers, and a struct may be copied.
-/

set_option autoImplicit false

namespace ForeignCall

open ForeignCall.Action

/-- Where an output comes from. -/
inductive Source where
  | result
  | parameter (p : Parameter) (position : Nat)

/-- Where the outputs of a call come from, in order. -/
def Plan.sources (plan : Plan) : List Source :=
  (if plan.skipReturn then [] else [.result]) ++
    (plan.parameters.zipIdx.filter (·.1.isOutput)).map fun x => .parameter x.1 x.2

/-- An output, with the blocks that belong to it. -/
inductive Output where
  /-- A value, with what it owns by itself and what it owns when its structs and objects count as
  blocks. -/
  | value (type : Descriptor) (transfer : Transfer) (slot : Slot) (length : Option Nat)
      (owned whole : Footprint)
  /-- The struct block of the caller. -/
  | block (b : Block)

namespace Output

/-- What is handed to the caller. -/
def handed : Output → List Block
  | .value _ transfer _ _ _ whole => whole.held (.of transfer .output)
  | .block b => [b]

/-- What of it is freed when the output was lifted. -/
def settled : Output → List Block
  | .value _ transfer _ _ owned _ => owned.held (.of transfer .output)
  | .block _ => []

def lent : Output → List Block
  | .value .. => []
  | .block b => [b]

/-- The value owns what is listed, and the count of its elements is known if they are handed over. -/
def Sound (h : Heap) : Output → Prop
  | .value type transfer slot length owned whole => ∃ count, Owns h type slot count owned ∧
    Owns h type.asBlocks slot count whole ∧ owned.Within whole ∧
    (transfer = .everything → type.asBlocks.Counted h slot length count)
  | .block _ => True

/-- The output is what is read for a source. -/
inductive At (plan : Plan) (s : Scratch) (ret : Slot) : Source → Output → Prop where
  | result {length : Option Nat} {owned whole : Footprint}
      (measures : FrameM.returnLength plan s = .ok length s) :
      At plan s ret .result (.value plan.returnType plan.returnTransfer ret length owned whole)
  | cell {p : Parameter} {position cell : Nat} {slot : Slot} {length : Option Nat}
      {owned whole : Footprint} (stored : s.frame.cell? position = some (.value cell))
      (reads : FrameM.current position p s = .ok slot s)
      (measures : FrameM.outputLength plan p s = .ok length s) :
      At plan s ret (.parameter p position) (.value p.type p.transfer slot length owned whole)
  | block {p : Parameter} {position : Nat} {b : Block}
      (stored : s.frame.cell? position = some (.block b.address)) :
      At plan s ret (.parameter p position) (.block b)

variable {o : Output} {outs : List Output} {h g : Heap}

theorem Sound.prolongs (sound : o.Sound h) (prolongs : h.Prolongs g) : o.Sound g := by
  cases o with
  | block b => trivial
  | value type transfer slot length owned whole =>
    obtain ⟨count, part, owns, within, counted⟩ := sound
    exact ⟨count, part.prolongs prolongs, owns.prolongs prolongs, within, fun everything =>
      prolongs.counted (counted everything)⟩

theorem Sound.settled_sublist (sound : o.Sound h) : o.settled.Sublist o.handed := by
  cases o with
  | block b => exact List.nil_sublist _
  | value type transfer slot length owned whole =>
    obtain ⟨count, -, -, within, -⟩ := sound
    exact within.held _

theorem lent_sublist (o : Output) : o.lent.Sublist o.handed := by
  cases o with
  | block b => exact .refl _
  | value type transfer slot length owned whole => exact List.nil_sublist _

section Value

variable {type : Descriptor} {transfer : Transfer} {slot : Slot} {length : Option Nat}
  {owned whole : Footprint}

/-- Being sound asks no more of a value than that it owns its blocks when references count: what it
owns by itself is a part of these. -/
theorem exists_sound {count : Nat} (owns : Owns h type.asBlocks slot count whole)
    (counted : transfer = .everything → type.asBlocks.Counted h slot length count) :
    ∃ owned, (value type transfer slot length owned whole).Sound h := by
  obtain ⟨owned, part, within⟩ := owns.exists_within
  exact ⟨owned, count, part, owns, within, counted⟩

/-- Discarding a value frees all that was handed over of it. -/
theorem Sound.frees (sound : (value type transfer slot length owned whole).Sound h)
    (keeps : h.Keeps (whole.held (.of transfer .output))) :
    Heap.Frees (freeValue type slot transfer .output length) h (whole.held (.of transfer .output)) := by
  obtain ⟨count, -, owns, -, counted⟩ := sound
  cases transfer with
  | everything => exact release_seen owns (fun _ => counted rfl) keeps
  | _ => exact release_seen owns (fun elements => by cases elements) keeps

/-- Once a value was lifted, what it owns by itself is freed. -/
theorem Sound.settles (sound : (value type transfer slot length owned whole).Sound h)
    (keeps : h.Keeps (owned.held (.of transfer .output))) :
    Heap.Frees (freeLifted type slot transfer length) h (owned.held (.of transfer .output)) := by
  obtain ⟨count, owns, -, -, counted⟩ := sound
  have same : owned.held (.of transfer .output) =
      owned.held (Holding.of transfer .output).withoutReferences := rfl
  rw [same] at keeps ⊢
  cases transfer with
  | everything =>
    exact release_seen owns (fun _ => Descriptor.counted_of_asBlocks (counted rfl)) keeps
  | _ => exact release_seen owns (fun elements => by cases elements) keeps

end Value

end Output

/-! ### Working outputs off -/

/-- Of the frame, only cells of struct blocks were dropped, and outputs added; of the native state,
nothing that was there was changed. -/
structure Scratch.Hands (s t : Scratch) (lent : List Block) : Prop where
  slots : t.frame.slots = s.frame.slots
  inputs : t.frame.inputs = s.frame.inputs
  errorCell : t.frame.errorCell = s.frame.errorCell
  callScoped : t.frame.callScoped = s.frame.callScoped
  trampolines : t.memory.trampolines = s.memory.trampolines
  prolongs : s.memory.heap.Prolongs t.memory.heap
  cells : ∀ i, t.frame.cell? i = s.frame.cell? i ∨
    t.frame.cell? i = none ∧ ∃ b ∈ lent, s.frame.cell? i = some (.block b.address)
  addresses : s.frame.cellAddresses.Perm (t.frame.cellAddresses ++ lent.map Block.address)

theorem Frame.filterMap_drop {cells : List (Option Cell)} {i : Nat} {c : Cell}
    (present : cells[i]? = some (some c)) :
    (cells.filterMap id).Perm ((cells.set i none).filterMap id ++ [c]) := by
  obtain ⟨inside, same⟩ := List.getElem?_eq_some_iff.1 present
  have vacant : (cells.set i none)[i]? = some none := by simp [inside]
  have put := filterMap_set c vacant
  rwa [List.set_set, ← same, List.set_getElem_self] at put

namespace Scratch.Hands

variable {s t u : Scratch} {lent more : List Block} {plan : Plan}

theorem refl (s : Scratch) : s.Hands s [] :=
  ⟨rfl, rfl, rfl, rfl, rfl, .refl _, fun _ => .inl rfl, by simp⟩

theorem trans (first : s.Hands t lent) (second : t.Hands u more) : s.Hands u (lent ++ more) where
  slots := second.slots.trans first.slots
  inputs := second.inputs.trans first.inputs
  errorCell := second.errorCell.trans first.errorCell
  callScoped := second.callScoped.trans first.callScoped
  trampolines := second.trampolines.trans first.trampolines
  prolongs := first.prolongs.trans second.prolongs
  cells i := by
    rcases second.cells i with same | ⟨none, b, listed, present⟩
    · rw [same]
      refine (first.cells i).imp_right (And.imp_right ?_)
      rintro ⟨b, listed, present⟩
      exact ⟨b, List.mem_append_left _ listed, present⟩
    · rcases first.cells i with same | ⟨gone, -⟩
      · exact .inr ⟨none, b, List.mem_append_right _ listed, same ▸ present⟩
      · rw [gone] at present
        cases present
  addresses := by
    rw [List.map_append, ← List.append_assoc]
    refine first.addresses.trans ((second.addresses.append_right _).trans ?_)
    rw [List.append_assoc, List.append_assoc]
    exact List.perm_append_comm.append_left _

theorem of_memory (m : Memory) (outputs : List Value)
    (trampolines : m.trampolines = s.memory.trampolines)
    (prolongs : s.memory.heap.Prolongs m.heap) :
    s.Hands ⟨{ s.frame with outputs := outputs }, m⟩ [] :=
  ⟨rfl, rfl, rfl, rfl, trampolines, prolongs, fun _ => .inl rfl, by simp [Frame.cellAddresses]⟩

/-- Dropping the cell of a struct block. -/
theorem drop (m : Memory) (outputs : List Value) {position : Nat} {b : Block}
    (present : s.frame.cell? position = some (.block b.address))
    (trampolines : m.trampolines = s.memory.trampolines)
    (prolongs : s.memory.heap.Prolongs m.heap) :
    s.Hands ⟨{ s.frame with outputs := outputs, cells := s.frame.cells.set position none }, m⟩
      [b] where
  slots := rfl
  inputs := rfl
  errorCell := rfl
  callScoped := rfl
  trampolines := trampolines
  prolongs := prolongs
  cells i := by
    have dropped : ({ s.frame with cells := s.frame.cells.set position none } : Frame).cell? i =
      if i = position then none else s.frame.cell? i := s.frame.cell?_drop i
    by_cases here : i = position
    · subst here
      exact .inr ⟨dropped.trans (if_pos rfl), b, List.mem_singleton_self b, present⟩
    · exact .inl (dropped.trans (if_neg here))
  addresses := by
    rw [Frame.cell?, Option.join_eq_some_iff] at present
    have dropped := (Frame.filterMap_drop present).map Cell.address
    rw [List.map_append] at dropped
    simp only [Frame.cellAddresses]
    refine (dropped.append_right _).trans ?_
    rw [List.append_assoc, List.append_assoc]
    exact List.perm_append_comm.append_left _

/-- The cell of a struct block is there until the block is handed on. -/
theorem cell_block {position : Nat} {b : Block} (hands : s.Hands t lent)
    (stored : s.frame.cell? position = some (.block b.address))
    (apart : b.address ∉ lent.map Block.address) :
    t.frame.cell? position = some (.block b.address) := by
  rcases hands.cells position with same | ⟨-, c, listed, present⟩
  · rw [same, stored]
  · rw [stored] at present
    simp only [Option.some.injEq, Cell.block.injEq] at present
    exact (apart (List.mem_map.2 ⟨c, listed, present.symm⟩)).elim

theorem cell_value {position cell : Nat} (hands : s.Hands t lent)
    (stored : s.frame.cell? position = some (.value cell)) :
    t.frame.cell? position = some (.value cell) := by
  rcases hands.cells position with same | ⟨-, c, -, present⟩
  · rw [same, stored]
  · rw [stored] at present
    cases present

end Scratch.Hands

namespace FrameM

variable {s t : Scratch} {lent : List Block} {plan : Plan} {slot : Slot} {length : Option Nat}

/-! ### Reading later -/

theorem current_eq (position : Nat) (p : Parameter) (s : Scratch) :
    current position p s = match s.frame.cell? position with
      | some (.value cell) => touch (Heap.load cell p.type.slotSize) s
      | some (.block block) => .ok (.ofNat block) s
      | none => .ok (s.frame.slot position) s := by
  have shown : (frame : FrameM Frame) s = .ok s.frame s := rfl
  rw [current, bind_of_ok shown]
  rcases s.frame.cell? position with _ | _ | _ <;> rfl

theorem touch_of_ok {α : Type} {x : HeapM α} {a : α} (run : x s.memory.heap = .ok a s.memory.heap) :
    touch x s = .ok a s := by
  rw [touch, onMemory, Memory.touch, Memory.onHeap, Heap.act, Action.mapError, run]

theorem load_of_touch {address size : Nat}
    (run : touch (Heap.load address size) s = .ok slot s) :
    Heap.load address size s.memory.heap = .ok slot s.memory.heap := by
  have loads : (touch (Heap.load address size)).Gives s (fun found t => found = slot ∧ t = s)
      (fun _ _ => False) fun _ => False := gives_of_ok run ⟨rfl, rfl⟩
  rw [gives_touch] at loads
  obtain ⟨_, h, loaded, rfl, same⟩ := loads.exists_ok
  have kept : h = s.memory.heap := congrArg (fun t => t.memory.heap) same
  rwa [kept] at loaded

section Later

variable (hands : s.Hands t lent) (formed : s.frame.Formed plan)

include hands formed

theorem current_later {position : Nat} {p : Parameter} (reads : current position p s = .ok slot s) :
    current position p t = .ok slot t := by
  rw [current_eq] at reads ⊢
  have placed := formed.cells position
  rcases hands.cells position with same | ⟨none, b, -, present⟩
  · rw [same]
    cases found : s.frame.cell? position with
    | none =>
      rw [found] at reads
      cases reads
      simp only [Frame.slot, hands.slots]
    | some c =>
      rw [found] at reads
      cases c with
      | value cell => exact touch_of_ok (hands.prolongs.load (load_of_touch reads))
      | block block =>
        cases reads
        rfl
  · rw [present] at reads
    obtain ⟨q, -, -, shows, -⟩ := placed _ present
    cases reads
    rw [none]
    simp only [Frame.slot] at shows
    simp only [Frame.slot, hands.slots, shows, Cell.address]

theorem lengthAt_later {position : Nat} (measures : lengthAt plan position s = .ok length s) :
    lengthAt plan position t = .ok length t := by
  cases found : plan.parameters[position]? with
  | none =>
    simp only [lengthAt, found] at measures ⊢
    cases measures
    rfl
  | some p =>
    simp only [lengthAt, found] at measures ⊢
    obtain ⟨slot, u, reads, same⟩ := exists_of_bind measures
    cases same
    exact bind_of_ok (current_later hands formed reads)

theorem outputLength_later {p : Parameter} (measures : outputLength plan p s = .ok length s) :
    outputLength plan p t = .ok length t := by
  cases role : p.role <;> simp only [outputLength, role] at measures ⊢
  case array => exact lengthAt_later hands formed measures
  all_goals
    cases measures
    rfl

theorem returnLength_later (measures : returnLength plan s = .ok length s) :
    returnLength plan t = .ok length t := by
  cases found : plan.returnLength <;> simp only [returnLength, found] at measures ⊢
  case some => exact lengthAt_later hands formed measures
  cases measures
  rfl

end Later

/-! ### One output after the other -/

/-- A step for each member of a list, from the `n`-th on, where `inv n` holds before the step for the
`n`-th. -/
theorem forM_drop_gives {α : Type} {xs : List α} {step : α → FrameM Unit}
    {failed : CallError → Scratch → Prop} {halted : Halt → Prop} (inv : Nat → Scratch → Prop)
    (each : ∀ n x, xs[n]? = some x → ∀ t, inv n t →
      (step x).Gives t (fun _ u => inv (n + 1) u) failed halted)
    {n : Nat} (within : n ≤ xs.length) (start : inv n t) :
    ((xs.drop n).forM step).Gives t (fun _ u => inv xs.length u) failed halted := by
  obtain ⟨rest, total⟩ := Nat.exists_eq_add_of_le within
  induction rest generalizing n t with
  | zero =>
    rw [List.drop_of_length_le (by omega)]
    exact (show xs.length = n from total) ▸ start
  | succ rest ih =>
    have inside : n < xs.length := by omega
    rw [List.drop_eq_getElem_cons inside, List.forM, gives_bind]
    refine (each n xs[n] (List.getElem?_eq_getElem inside) t start).mono (fun _ u later => ?_)
      fun _ _ refused => refused
    exact ih (by omega) later (by omega)

def discardSource (plan : Plan) (ret : Slot) : Source → FrameM Unit
  | .result => discardReturn plan ret
  | .parameter p position => discardParameter plan position p

def liftSource (held : List Value) (plan : Plan) (ret : Slot) (receiver : Option Value) :
    Source → FrameM Unit
  | .result => liftReturn held plan ret receiver
  | .parameter p position => liftParameter held plan position p

theorem discardParameters_forM (lifted : Nat) (parameters : List (Parameter × Nat)) (ret : Slot) :
    discardParameters plan lifted parameters =
      (((parameters.filter (·.1.isOutput)).map fun x => Source.parameter x.1 x.2).drop lifted).forM
        (discardSource plan ret) := by
  induction parameters generalizing lifted with
  | nil => cases lifted <;> rfl
  | cons first rest ih =>
    obtain ⟨p, position⟩ := first
    unfold discardParameters
    cases output : p.isOutput with
    | false => simpa [output] using ih lifted
    | true =>
      cases lifted with
      | zero =>
        simp only [Bool.not_true, Bool.false_eq_true, if_false, output, if_true, List.filter_cons,
          List.map_cons, List.drop_zero, List.forM, ih 0]
        rfl
      | succ lifted => simpa [output] using ih lifted

theorem liftParameters_forM (held : List Value) (parameters : List (Parameter × Nat)) (ret : Slot)
    (receiver : Option Value) :
    liftParameters held plan parameters =
      ((parameters.filter (·.1.isOutput)).map fun x => Source.parameter x.1 x.2).forM
        (liftSource held plan ret receiver) := by
  induction parameters with
  | nil => rfl
  | cons first rest ih =>
    rw [liftParameters, List.filter_cons, ih]
    cases first.1.isOutput with
    | false => rfl
    | true => rfl

theorem discardOutputs_forM (plan : Plan) (ret : Slot) (lifted : Nat) :
    discardOutputs plan ret lifted =
      (plan.sources.drop lifted).forM (discardSource plan ret) := by
  unfold discardOutputs Plan.sources
  simp only [discardParameters_forM _ _ ret]
  cases skip : plan.skipReturn with
  | true =>
    have nothing : discardReturn plan ret = pure () := by
      rw [discardReturn, skip]
      rfl
    rw [nothing]
    split <;> rfl
  | false =>
    cases lifted <;> rfl

theorem lift_forM (held : List Value) (plan : Plan) (ret : Slot) (receiver : Option Value) :
    (do
      liftReturn held plan ret receiver
      liftParameters held plan plan.parameters.zipIdx) =
      plan.sources.forM (liftSource held plan ret receiver) := by
  rw [liftParameters_forM held _ ret receiver, Plan.sources]
  cases skip : plan.skipReturn with
  | true =>
    have nothing : liftReturn held plan ret receiver = pure () := by
      rw [liftReturn, skip]
      rfl
    rw [nothing]
    rfl
  | false => rfl

theorem skipReturn_of_result (listed : .result ∈ plan.sources) : plan.skipReturn = false := by
  unfold Plan.sources at listed
  cases skip : plan.skipReturn with
  | false => rfl
  | true => simp [skip] at listed

section Step

variable {ret : Slot} {receiver : Option Value} {held : List Value} {x : Source} {o : Output}
  {halted : Halt → Prop}

theorem convert_sheds {x : LayoutM Unit} {blocks : List Block} (hands : s.Hands t lent)
    (frees : Heap.Frees x t.memory.heap blocks) :
    (convert (Memory.onHeap x)).Gives t
      (fun _ u => u.frame = t.frame ∧ t.memory.heap.Sheds u.memory.heap blocks ∧ s.Hands u lent)
      (fun _ _ => False) halted := by
  obtain ⟨g, run, sheds⟩ := frees
  rw [gives_convert, gives_onHeap]
  refine gives_of_ok run ⟨rfl, sheds, ?_⟩
  rw [← List.append_nil lent]
  exact hands.trans (.of_memory { t.memory with heap := g } _ rfl sheds.prolongs)

variable (listed : x ∈ plan.sources) (hands : s.Hands t lent) (formed : s.frame.Formed plan)
  (delivered : o.At plan s ret x) (sound : o.Sound s.memory.heap)
  (apart : ∀ b ∈ o.lent, b.address ∉ lent.map Block.address)

include listed hands formed delivered sound apart

theorem discardSource_sheds (keeps : t.memory.heap.Keeps o.handed) :
    (discardSource plan ret x).Gives t
      (fun _ u => t.memory.heap.Sheds u.memory.heap o.handed ∧ s.Hands u (lent ++ o.lent))
      (fun _ _ => False) halted := by
  have sound := sound.prolongs hands.prolongs
  cases delivered with
  | result measures =>
    have skip := skipReturn_of_result listed
    rw [discardSource, discardReturn, skip, Bool.not_false, if_pos rfl, gives_bind]
    apply gives_of_ok (returnLength_later hands formed measures)
    rw [Output.lent, List.append_nil]
    exact (convert_sheds hands (sound.frees keeps)).mono (fun _ _ freed => freed.2)
      fun _ _ never => never
  | cell stored reads measures =>
    rw [discardSource, discardParameter, gives_bind, gives_frame, hands.cell_value stored, gives_bind]
    apply gives_of_ok (outputLength_later hands formed measures)
    rw [gives_bind]
    apply gives_of_ok (current_later hands formed reads)
    rw [Output.lent, List.append_nil]
    exact (convert_sheds hands (sound.frees keeps)).mono (fun _ _ freed => freed.2)
      fun _ _ never => never
  | @block p position b stored =>
    have present := hands.cell_block stored (apart b (List.mem_singleton_self b))
    obtain ⟨g, freed, sheds⟩ := Heap.free_eq (keeps.1 b (List.mem_singleton_self b))
    rw [discardSource, discardParameter, gives_bind, gives_frame, present, gives_bind, dropCell,
      gives_modifyFrame, gives_touch]
    refine gives_of_ok freed ⟨sheds, hands.trans ?_⟩
    exact .drop { t.memory with heap := g } _ present rfl sheds.prolongs

end Step

end FrameM

/-- What a native function delivered: an output for every source, none of which is malformed. No block
is handed over two times. -/
structure Scratch.Delivers (s : Scratch) (plan : Plan) (ret : Slot) (outs : List Output) : Prop where
  read : List.Forall₂ (Output.At plan s ret) plan.sources outs
  sound : ∀ o ∈ outs, o.Sound s.memory.heap
  keeps : s.memory.heap.Keeps (outs.flatMap Output.handed)

theorem exists_getElem?_of_forall₂ {α β : Type} {R : α → β → Prop} {as : List α} {bs : List β}
    (all : List.Forall₂ R as bs) {n : Nat} {a : α} (found : as[n]? = some a) :
    ∃ b, bs[n]? = some b ∧ R a b := by
  induction all generalizing n with
  | nil => cases found
  | cons first _ ih =>
    cases n with
    | zero =>
      cases found
      exact ⟨_, rfl, first⟩
    | succ n => exact ih found

namespace Scratch.Delivers

variable {s t : Scratch} {plan : Plan} {ret : Slot} {outs : List Output} {o : Output} {n k : Nat}

theorem length_eq (delivers : s.Delivers plan ret outs) : plan.sources.length = outs.length :=
  delivers.read.length_eq

/-- The blocks that were lent for one output are none of those lent for the ones before it. -/
theorem apart (delivers : s.Delivers plan ret outs) (here : outs[k]? = some o) :
    ∀ b ∈ o.lent, b.address ∉ ((outs.take k).flatMap Output.lent).map Block.address := by
  intro b listed again
  obtain ⟨c, earlier, same⟩ := List.mem_map.1 again
  obtain ⟨o', before, lent⟩ := List.mem_flatMap.1 earlier
  obtain ⟨inside, rfl⟩ := List.getElem?_eq_some_iff.1 here
  have keeps := delivers.keeps
  rw [← List.take_append_drop k outs, List.flatMap_append, List.drop_eq_getElem_cons inside,
    List.flatMap_cons] at keeps
  have first : c ∈ (outs.take k).flatMap Output.handed :=
    List.mem_flatMap.2 ⟨o', before, o'.lent_sublist.subset lent⟩
  have second : b ∈ outs[k].handed ++ (outs.drop (k + 1)).flatMap Output.handed :=
    List.mem_append_left _ (outs[k].lent_sublist.subset listed)
  have equal := (keeps.1 c (List.mem_append_left _ first)).eq_of_address
    (keeps.1 b (List.mem_append_right _ second)) same
  exact List.disjoint_of_nodup_append keeps.2 first (equal ▸ second)

theorem split (here : outs[k]? = some o) (after : n ≤ k) :
    (outs.take (k + 1)).drop n = (outs.take k).drop n ++ [o] ∧
      outs.drop n = (outs.take k).drop n ++ o :: outs.drop (k + 1) := by
  obtain ⟨inside, rfl⟩ := List.getElem?_eq_some_iff.1 here
  have short : n ≤ (outs.take k).length := by
    rw [List.length_take]
    omega
  constructor
  · rw [← List.take_append_getElem inside, List.drop_append_of_le_length short]
  · rw [← List.drop_eq_getElem_cons inside, ← List.drop_append_of_le_length short,
      List.take_append_drop]

/-- Discarding all outputs from one on frees exactly what they handed over. -/
theorem discards (delivers : s.Delivers plan ret outs) (formed : s.frame.Formed plan)
    (within : n ≤ outs.length) (hands : s.Hands t ((outs.take n).flatMap Output.lent))
    (keeps : t.memory.heap.Keeps ((outs.drop n).flatMap Output.handed)) {halted : Halt → Prop} :
    (FrameM.discardOutputs plan ret n).Gives t
      (fun _ u => t.memory.heap.Sheds u.memory.heap ((outs.drop n).flatMap Output.handed) ∧
        s.Hands u (outs.flatMap Output.lent))
      (fun _ _ => False) halted := by
  have long := delivers.length_eq
  rw [FrameM.discardOutputs_forM]
  refine (FrameM.forM_drop_gives (fun k u => n ≤ k ∧
    t.memory.heap.Sheds u.memory.heap (((outs.take k).drop n).flatMap Output.handed) ∧
      s.Hands u ((outs.take k).flatMap Output.lent)) ?_ (long ▸ within)
    ⟨Nat.le_refl n, ?_, hands⟩).mono ?_ fun _ _ never => never
  · rintro k x source u ⟨after, sheds, hands⟩
    obtain ⟨o, here, delivered⟩ := exists_getElem?_of_forall₂ delivers.read source
    obtain ⟨grown, left⟩ := split here after
    have lent := (split here (Nat.zero_le k)).1
    rw [List.drop_zero, List.drop_zero] at lent
    rw [left, List.flatMap_append, List.flatMap_cons] at keeps
    rw [grown, lent, List.flatMap_append, List.flatMap_append, List.flatMap_singleton,
      List.flatMap_singleton]
    refine (FrameM.discardSource_sheds (List.mem_of_getElem? source) hands formed delivered
      (delivers.sound o (List.mem_of_getElem? here)) (delivers.apart here)
      (keeps.right sheds).left).mono ?_ fun _ _ never => never
    rintro _ u' ⟨freed, handed⟩
    exact ⟨by omega, sheds.trans freed, handed⟩
  · rw [List.drop_of_length_le (by simp)]
    exact .refl _
  · rintro _ u ⟨-, sheds, hands⟩
    rw [long, List.take_length] at sheds hands
    exact ⟨sheds, hands⟩

end Scratch.Delivers

end ForeignCall
