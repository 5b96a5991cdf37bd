import ForeignCall.Proofs.Call.Failure
import ForeignCall.Proofs.Call.Ready

/-!
Plain data that comes back untouched.

A native function that leaves its memory alone leaves every argument passed by reference as it was.
Lifting then gives what was lowered, and what the outputs and the inputs release together is what the
call took, whatever the transfers are.
-/

set_option autoImplicit false

namespace ForeignCall

variable {plan : Plan} {s t : Scratch} {arguments : List Value} {g : Heap} {blocks : List Block}
  {outs : List Value} {e : Entry} {entries : List Entry} {halted : Halt → Prop}
  {failed : CallError → Scratch → Prop} {held : List Value}

/-- Script arguments of plain data, the counts of which arrive in their length arguments as they are.
By `IntFormat.arriving_of_holds` a count does that if the integer type can represent it, and so can a
number of the script. -/
structure Plan.Carries (plan : Plan) (arguments : List Value) : Prop where
  data : ∀ x ∈ pairInputs plan.inputs arguments, x.1.type.Carries x.2
  counts : ∀ x ∈ pairInputs plan.inputs arguments, ∀ length q format pointer,
    x.1.role = .array length → plan.parameters[length]? = some q →
      q.type = .basic (.integer format) pointer →
        format.arriving x.2.itemCount = x.2.itemCount

/-- The state with other outputs and another heap. -/
def Scratch.after (s : Scratch) (outs : List Value) (h : Heap) : Scratch :=
  ⟨{ s.frame with outputs := outs }, { s.memory with heap := h }⟩

theorem Scratch.Ready.congr (ready : s.Ready plan arguments)
    (frame : t.frame = { s.frame with outputs := t.frame.outputs })
    (size : t.memory.heap.size = s.memory.heap.size)
    (bytes : t.memory.heap.byteAt = s.memory.heap.byteAt) : t.Ready plan arguments := by
  have shows : ∀ {i : Nat} {q : Parameter} {slot : Slot},
      s.frame.Shows s.memory.heap i q slot → t.frame.Shows t.memory.heap i q slot := by
    intro i q slot shows
    rw [frame]
    exact shows.frame (Nat.le_of_eq size.symm) fun x _ => by rw [bytes]
  have inputs : t.frame.inputs = s.frame.inputs := by rw [frame]
  refine ⟨by rw [inputs, ready.places], ?_, ?_, ?_⟩
  · rw [inputs]
    refine ready.inputs.imp fun x given shown => ?_
    exact shown.frame (shows shown.shows) (Nat.le_of_eq size.symm) fun y _ => by rw [bytes]
  · rw [inputs]
    intro x listed p length q source role found
    obtain ⟨count, packed, shown⟩ := ready.lengths x listed p length q source role found
    exact ⟨count, packed, shows shown⟩
  · rw [frame]
    intro cell listed
    obtain ⟨within, blank⟩ := ready.errorCell cell listed
    refine ⟨⟨within.1, by rw [size]; exact within.2⟩, ?_⟩
    rw [← blank]
    exact Heap.slotAt_congr fun x _ _ => by rw [bytes]

theorem Scratch.Ready.after (ready : s.Ready plan arguments) (sheds : s.memory.heap.Sheds g blocks)
    (outs : List Value) : (s.after outs g).Ready plan arguments :=
  ready.congr rfl sheds.size_eq sheds.byteAt_eq

/-! ### Lengths -/

theorem itemCount_eq {v : Value} {count : Nat} (counted : v.items?.map List.length = some count) :
    v.itemCount = count := by
  cases v <;> simp_all [Value.items?, Value.itemCount]

theorem lengthValue_count {format : IntFormat} {n : Nat} (pointer : Bool)
    (arrives : format.arriving n = n) :
    lengthValue (.basic (.integer format) pointer)
      ((Descriptor.basic (.integer format) pointer).numberSlot (.ofNat n)) = n := by
  change (format.arriving n).toNat = n
  rw [arrives]
  rfl

namespace FrameM

/-- The length that an array is lifted and released with suits its value. -/
theorem outputLength_tells (wired : plan.Wired) (passes : plan.PassesData)
    (ready : s.Ready plan arguments) (carries : plan.Carries arguments) {x : Lowered}
    {given : Parameter × Value} (listed : x ∈ s.frame.inputs)
    (member : given ∈ pairInputs plan.inputs arguments) (shown : x.Shown plan s given) :
    (outputLength plan given.1).Gives s (fun told t => t = s ∧ given.1.type.Tells told given.2)
      failed halted := by
  have source := List.mem_of_getElem? shown.source
  unfold outputLength
  split
  · rename_i length role
    obtain ⟨q, format, pointer, found, -, type, -⟩ :=
      passes.linked x.position given.1 length shown.source role
    obtain ⟨count, packed, shows⟩ := ready.lengths x listed given.1 length q shown.source role found
    obtain ⟨⟨element, form, indirect, array⟩, -⟩ := wired.array given.1 source length role
    have counted := shown.counted (by rw [array]; rfl)
    rw [packed] at counted
    have arrives := carries.counts given member length q format pointer role found type
    rw [itemCount_eq counted.symm] at arrives
    rw [lengthAt, found]
    dsimp only
    rw [Action.gives_bind]
    refine (current_gives shows).mono ?_ fun _ _ failed => failed
    rintro slot _ ⟨rfl, rfl⟩
    rw [Action.gives_pure, type, lengthValue_count pointer arrives, array]
    exact ⟨rfl, .inl counted⟩
  · rename_i plain
    refine ⟨rfl, Descriptor.tells_none ?_ _⟩
    rcases passes.sized given.1 source shown.visible with sized | ⟨length, role⟩
    · exact sized
    · exact (plain length role).elim

end FrameM

/-! ### One output -/

theorem isReferenceFree_of_isData {d : Descriptor} (data : d.isData = true) :
    d.isReferenceFree = true := by
  induction d with
  | basic type pointer => rfl
  | named type name pointer => cases type <;> first | rfl | cases data
  | hash key value pointer => cases data
  | array element mode form pointer ih =>
    simp only [Descriptor.isData, Bool.and_eq_true] at data
    exact ih data.2
  | list element singlyLinked pointer ih =>
    simp only [Descriptor.isData, Bool.and_eq_true] at data
    exact ih data.2

namespace FrameM

/-- An entry that a call can give back. -/
structure Returnable (plan : Plan) (arguments : List Value) (s : Scratch) (e : Entry) : Prop where
  listed : e.input ∈ s.frame.inputs
  member : e.given ∈ pairInputs plan.inputs arguments
  shown : e.input.Shown plan s e.given
  holds : e.Holds plan s.memory.heap

theorem frees_lifted (own : Holding) {told : Option Nat} {w : Value} {copy : Bool}
    (returnable : Returnable plan arguments s e)
    (plain : own.references = true → e.parameter.type.isReferenceFree = true)
    (keeps : s.memory.heap.Keeps (e.owned.held own)) (equal : w.equals e.value = true)
    (run : lift held e.parameter.type e.input.slot told copy s.memory = .ok w s.memory) :
    Heap.Frees (release e.parameter.type e.input.slot own told) s.memory.heap
      (e.owned.held own) := by
  have same : release e.parameter.type e.input.slot own told s.memory.heap =
      release e.parameter.type e.input.slot own e.input.count s.memory.heap :=
    release_of_lift equal returnable.shown.counted run
  obtain ⟨g, freed, sheds⟩ := returnable.holds.frees_held plain keeps
  exact ⟨g, same.trans freed, sheds⟩

theorem liftParameter_returns (wired : plan.Wired) (passes : plan.PassesData)
    (ready : s.Ready plan arguments) (carries : plan.Carries arguments)
    (returnable : Returnable plan arguments s e) (keeps : s.memory.heap.Keeps e.handed) :
    (liftParameter held plan e.input.position e.parameter).Gives s
      (fun _ t => ∃ w g, w.equals e.value = true ∧ s.memory.heap.Sheds g e.handed ∧
        t = s.after (s.frame.outputs ++ [w]) g)
      (fun _ _ => False) halted := by
  obtain ⟨listed, member, shown, -⟩ := id returnable
  obtain ⟨w, equal, reads⟩ := shown.reads
  have shows : s.frame.Shows s.memory.heap e.input.position e.parameter e.input.slot := shown.shows
  rw [liftParameter, Action.gives_bind]
  refine (outputLength_tells wired passes ready carries listed member shown).mono ?_
    fun _ _ never => never
  rintro told _ ⟨rfl, tells⟩
  rw [Action.gives_bind, gives_frame]
  split
  · rename_i block
    simp only [Frame.Shows, block] at shows
  · rw [Action.gives_bind]
    refine (current_gives shows).mono ?_ fun _ _ never => never
    rintro slot _ ⟨rfl, rfl⟩
    have run := reads told tells
    rw [Action.gives_bind, liftOutput, Action.gives_bind, gives_frame, gives_convert]
    refine Action.gives_of_ok (run _ _ _ (Nat.le_refl _) fun _ _ _ => rfl) ?_
    rw [Action.gives_bind, pushOutput, gives_modifyFrame, settleLifted, gives_convert,
      Action.gives_onHeap]
    obtain ⟨g, freed, sheds⟩ := frees_lifted (Holding.of e.parameter.transfer
      .output).withoutReferences returnable (fun absurd => by cases absurd) keeps equal
      (run _ held true (Nat.le_refl _) fun _ _ _ => rfl)
    exact Action.gives_of_ok freed ⟨w, g, equal, sheds, rfl⟩

theorem discardParameter_returns (wired : plan.Wired) (passes : plan.PassesData)
    (ready : s.Ready plan arguments) (carries : plan.Carries arguments)
    (returnable : Returnable plan arguments s e) (keeps : s.memory.heap.Keeps e.handed)
    (output : e.parameter.isOutput = true) :
    (discardParameter plan e.input.position e.parameter).Gives s
      (fun _ t => ∃ g, s.memory.heap.Sheds g e.handed ∧ t = s.after s.frame.outputs g)
      (fun _ _ => False) halted := by
  obtain ⟨listed, member, shown, -⟩ := id returnable
  obtain ⟨w, equal, reads⟩ := shown.reads
  have source := List.mem_of_getElem? shown.source
  have shows : s.frame.Shows s.memory.heap e.input.position e.parameter e.input.slot := shown.shows
  rw [discardParameter, Action.gives_bind, gives_frame]
  split <;> rename_i cell <;> simp only [Frame.Shows, cell] at shows
  · rw [Action.gives_bind]
    refine (outputLength_tells wired passes ready carries listed member shown).mono ?_
      fun _ _ never => never
    rintro told _ ⟨rfl, tells⟩
    rw [Action.gives_bind]
    refine (current_gives shown.shows).mono ?_ fun _ _ never => never
    rintro slot _ ⟨rfl, rfl⟩
    rw [gives_convert, Action.gives_onHeap]
    obtain ⟨g, freed, sheds⟩ := frees_lifted (Holding.of e.parameter.transfer .output) returnable
      (fun _ => isReferenceFree_of_isData (passes.data _ source shown.visible).1) keeps equal
      (reads told tells _ [] true (Nat.le_refl _) fun _ _ _ => rfl)
    exact Action.gives_of_ok freed ⟨g, sheds, rfl⟩
  · rcases passes.passed _ source shown.visible with inout | ⟨input, -⟩
    · exact (shows.1 inout).elim
    · have direction : e.parameter.direction = .input := input
      simp [Parameter.isOutput, direction, Direction.isOut] at output

end FrameM

/-! ### All outputs -/

def Entry.placed (e : Entry) : Parameter × Nat := (e.parameter, e.input.position)

/-- The step for each output parameter, in order. -/
def forOutputs (step : Nat → Parameter → FrameM Unit) : List (Parameter × Nat) → FrameM Unit
  | [] => pure ()
  | (p, position) :: rest => do
    if p.isOutput then step position p
    forOutputs step rest

theorem liftParameters_eq (parameters : List (Parameter × Nat)) :
    FrameM.liftParameters held plan parameters =
      forOutputs (FrameM.liftParameter held plan) parameters := by
  induction parameters with
  | nil => rfl
  | cons first rest ih => rw [FrameM.liftParameters, forOutputs, ih]

theorem discardParameters_eq (parameters : List (Parameter × Nat)) :
    FrameM.discardParameters plan 0 parameters =
      forOutputs (FrameM.discardParameter plan) parameters := by
  induction parameters with
  | nil => rfl
  | cons first rest ih =>
    rw [FrameM.discardParameters, forOutputs, ih]
    cases first.1.isOutput <;> rfl

/-- The outputs are worked off entry by entry. What each step hands over is shed, and `made` says what
it adds to the outputs. -/
theorem forOutputs_returns (made : List Entry → List Value → Prop) (done : List Entry)
    {step : Nat → Parameter → FrameM Unit} {parameters : List (Parameter × Nat)}
    {rest : List Entry}
    (aligned : rest.map Entry.placed = parameters.filter (·.1.isVisible))
    (steps : ∀ e ∈ rest, e.parameter.isOutput = true → ∀ done outs g,
      s.memory.heap.Sheds g (done.flatMap Entry.handed) → g.Keeps e.handed → made done outs →
        (step e.input.position e.parameter).Gives (s.after outs g)
          (fun _ t => ∃ outs' g', g.Sheds g' e.handed ∧ made (done ++ [e]) outs' ∧
            t = s.after outs' g')
          (fun _ _ => False) halted)
    (skips : ∀ e ∈ rest, e.parameter.isOutput = false →
      e.handed = [] ∧ ∀ done outs, made done outs → made (done ++ [e]) outs)
    (sheds : s.memory.heap.Sheds g (done.flatMap Entry.handed))
    (keeps : g.Keeps (rest.flatMap Entry.handed)) (so : made done outs) :
    (forOutputs step parameters).Gives (s.after outs g)
      (fun _ t => ∃ outs' g', s.memory.heap.Sheds g' ((done ++ rest).flatMap Entry.handed) ∧
        made (done ++ rest) outs' ∧ t = s.after outs' g')
      (fun _ _ => False) halted := by
  induction parameters generalizing done rest outs g with
  | nil =>
    obtain rfl : rest = [] := by simpa using aligned
    rw [List.append_nil]
    exact ⟨outs, g, sheds, so, rfl⟩
  | cons first parameters ih =>
    obtain ⟨p, position⟩ := first
    by_cases visible : p.isVisible = true
    · rw [List.filter_cons, if_pos visible] at aligned
      obtain ⟨e, more, rfl, same, aligned'⟩ := List.map_eq_cons_iff.1 aligned
      obtain ⟨rfl, rfl⟩ : e.parameter = p ∧ e.input.position = position := by
        simpa [Entry.placed] using same
      obtain ⟨stepped, steps'⟩ := List.forall_mem_cons.1 steps
      obtain ⟨skipped, skips'⟩ := List.forall_mem_cons.1 skips
      rw [List.flatMap_cons] at keeps
      rw [List.append_cons]
      have before : (done ++ [e]).flatMap Entry.handed =
          done.flatMap Entry.handed ++ e.handed := by simp
      rw [forOutputs]
      by_cases output : e.parameter.isOutput = true
      · rw [if_pos output, Action.gives_bind]
        refine (stepped output done outs g sheds keeps.left so).mono ?_ fun _ _ never => never
        rintro _ _ ⟨outs', g', shed, so', rfl⟩
        have sheds' := sheds.trans shed
        rw [← before] at sheds'
        exact ih _ aligned' steps' skips' sheds' (keeps.right shed) so'
      · obtain ⟨nothing, so'⟩ := skipped (by simpa using output)
        rw [if_neg output]
        refine ih _ aligned' steps' skips' ?_ ?_ (so' done outs so)
        · rwa [before, nothing, List.append_nil]
        · rwa [nothing, List.nil_append] at keeps
    · have hidden : p.isOutput = false := by
        simp only [Bool.not_eq_true] at visible
        rw [Parameter.isOutput, visible, Bool.false_and]
      rw [List.filter_cons, if_neg visible] at aligned
      rw [forOutputs, hidden, if_neg (by simp)]
      exact ih done aligned steps skips sheds keeps so

/-! ### Coming back -/

theorem Plan.eq_of_positions {l l' : List (Parameter × Nat)}
    (inside : ∀ e ∈ l, plan.parameters[e.2]? = some e.1)
    (inside' : ∀ e ∈ l', plan.parameters[e.2]? = some e.1)
    (same : l.map Prod.snd = l'.map Prod.snd) : l = l' := by
  induction l generalizing l' with
  | nil => exact (List.map_eq_nil_iff.1 same.symm).symm
  | cons e rest ih =>
    obtain ⟨e', rest', rfl, position, positions⟩ := List.map_eq_cons_iff.1 same.symm
    obtain ⟨here, later⟩ := List.forall_mem_cons.1 inside
    obtain ⟨here', later'⟩ := List.forall_mem_cons.1 inside'
    rw [position, here, Option.some_inj] at here'
    rw [ih later later' positions.symm, Prod.ext here' position.symm]

/-- The state with no exception pending. -/
def Scratch.cleared (s : Scratch) : Scratch :=
  { s with memory := { s.memory with pending := none } }

/-- What a call can give back after its native function returned. -/
structure Scratch.Echoes (s : Scratch) (plan : Plan) (arguments : List Value)
    (entries : List Entry) : Prop where
  ready : s.Ready plan arguments
  returnable : ∀ e ∈ entries, FrameM.Returnable plan arguments s e
  aligned : entries.map Entry.placed = plan.parameters.zipIdx.filter (·.1.isVisible)
  keeps : s.memory.heap.Keeps (entries.flatMap Entry.handed)
  outputs : s.frame.outputs = []

theorem FrameM.Returnable.congr (returnable : Returnable plan arguments s e)
    (frame : t.frame = { s.frame with outputs := t.frame.outputs })
    (sheds : s.memory.heap.Sheds t.memory.heap blocks) : Returnable plan arguments t e where
  listed := by
    rw [frame]
    exact returnable.listed
  member := returnable.member
  shown := by
    have size := Nat.le_of_eq sheds.size_eq.symm
    have bytes : ∀ x < s.memory.heap.size, t.memory.heap.byteAt x = s.memory.heap.byteAt x :=
      fun x _ => by rw [sheds.byteAt_eq]
    refine returnable.shown.frame ?_ size bytes
    rw [frame]
    exact returnable.shown.shows.frame size bytes
  holds := returnable.holds.prolongs sheds.prolongs

namespace Scratch.Echoes

theorem aside (echoes : s.Echoes plan arguments entries) (pending : Option CallError)
    (journal : Array Event) :
    Echoes ⟨s.frame, { s.memory with pending := pending, journal := journal }⟩ plan arguments
      entries where
  ready := echoes.ready.congr rfl rfl rfl
  returnable e listed := (echoes.returnable e listed).congr rfl (.refl _)
  aligned := echoes.aligned
  keeps := echoes.keeps
  outputs := echoes.outputs

theorem cleared (echoes : s.Echoes plan arguments entries) :
    s.cleared.Echoes plan arguments entries := echoes.aside none s.memory.journal

theorem after_start (echoes : s.Echoes plan arguments entries) :
    s.after [] s.memory.heap = s := by
  rw [Scratch.after, ← echoes.outputs]

theorem visible (echoes : s.Echoes plan arguments entries) (listed : e ∈ entries) :
    e.parameter.isVisible = true := by
  have placed := List.mem_map_of_mem (f := Entry.placed) listed
  rw [echoes.aligned] at placed
  exact (List.mem_filter.1 placed).2

theorem nothing_handed (echoes : s.Echoes plan arguments entries) (passes : plan.PassesData)
    (listed : e ∈ entries) (input : e.parameter.isOutput = false) : e.handed = [] := by
  have source := List.mem_of_getElem? (echoes.returnable e listed).shown.source
  have visible := echoes.visible listed
  rcases passes.passed _ source visible with inout | ⟨-, transfer⟩
  · have direction : e.parameter.direction = .inout := inout
    simp [Parameter.isOutput, visible, direction, Direction.isOut] at input
  · have transfer : e.parameter.transfer = .nothing := transfer
    simp [Entry.handed, transfer, Footprint.held, Holding.of]

end Scratch.Echoes

namespace FrameM

theorem drainErrorCell_empty (echoes : s.Echoes plan arguments entries) :
    drainErrorCell.Gives s (fun record t => record = none ∧ t = s) failed halted := by
  rw [drainErrorCell, Action.gives_bind, gives_frame]
  split
  · exact ⟨rfl, rfl⟩
  · rename_i cell listed
    obtain ⟨within, blank⟩ := echoes.ready.errorCell cell listed
    rw [Action.gives_bind, gives_touch]
    refine Action.gives_of_ok (Heap.loadPointer_eq within) ?_
    have null : Slot.null.toNat = 0 := rfl
    rw [blank, if_pos null]
    exact ⟨rfl, rfl⟩

theorem releaseAll_returns {policy : UnscopedPolicy} {m : Memory}
    (ledger : Ledger plan policy m entries s)
    (sheds : s.memory.heap.Sheds g (entries.flatMap Entry.handed)) :
    (releaseAll plan).Gives (s.cleared.after outs g)
      (fun _ t => t.memory.heap.blockSize? = m.heap.blockSize?) (fun _ _ => False) halted := by
  obtain ⟨cells, addresses, grows⟩ := ledger.taken
  have shared := flatMap_split (fun e : Entry => List.perm_append_comm.trans e.kept_handed) entries
  have taken := grows.perm (shared.append_right cells)
  rw [List.append_assoc] at taken
  have left := taken.sheds sheds
  rw [← List.append_nil cells] at left
  have lasting := ledger.registered.perm
    (flatMap_split (fun e => .of_eq (e.transient_lasting policy)) entries)
  rw [← ledger.transient] at lasting
  have holds : ∀ e ∈ entries, e.Holds plan g := fun e listed =>
    (ledger.holds e listed).prolongs sheds.prolongs
  exact (releaseAll_leaves (s := s.cleared.after outs g) ledger.inputs holds addresses left
    lasting).mono (fun _ _ ⟨nothing, _⟩ => nothing.blockSize?_eq) fun _ _ never => never

variable (wired : plan.Wired) (passes : plan.PassesData) (carries : plan.Carries arguments)
  (echoes : s.Echoes plan arguments entries)

include wired passes carries echoes

theorem liftParameters_returns :
    (liftParameters held plan plan.parameters.zipIdx).Gives s
      (fun _ t => ∃ outs g, s.memory.heap.Sheds g (entries.flatMap Entry.handed) ∧
        List.Forall₂ (fun w (e : Entry) => w.equals e.value = true) outs
          (entries.filter (·.parameter.isOutput)) ∧ t = s.after outs g)
      (fun _ _ => False) halted := by
  nth_rewrite 1 [← echoes.after_start]
  rw [liftParameters_eq]
  refine forOutputs_returns (fun done outs =>
    List.Forall₂ (fun w (e : Entry) => w.equals e.value = true) outs
      (done.filter (·.parameter.isOutput))) [] echoes.aligned ?_ ?_ (.refl _) echoes.keeps .nil
  · intro e listed output done outs g sheds keeps made
    have returnable : Returnable plan arguments (s.after outs g) e :=
      (echoes.returnable e listed).congr rfl sheds
    refine (liftParameter_returns wired passes (echoes.ready.after sheds outs) carries returnable
      keeps).mono ?_ fun _ _ never => never
    rintro _ _ ⟨w, g', equal, shed, rfl⟩
    refine ⟨outs ++ [w], g', shed, ?_, rfl⟩
    rw [List.filter_append, List.filter_cons, if_pos output, List.filter_nil]
    exact List.rel_append made (.cons equal .nil)
  · intro e listed input
    refine ⟨echoes.nothing_handed passes listed input, fun done outs made => ?_⟩
    rw [List.filter_append, List.filter_cons, if_neg (by simp [input]), List.filter_nil,
      List.append_nil]
    exact made

theorem discardParameters_returns :
    (discardParameters plan 0 plan.parameters.zipIdx).Gives s
      (fun _ t => ∃ g, s.memory.heap.Sheds g (entries.flatMap Entry.handed) ∧ t = s.after [] g)
      (fun _ _ => False) halted := by
  nth_rewrite 1 [← echoes.after_start]
  rw [discardParameters_eq]
  refine (forOutputs_returns (s := s) (fun _ outs => outs = []) [] echoes.aligned ?_ ?_ (.refl _)
    echoes.keeps rfl).mono ?_ fun _ _ never => never
  · rintro e listed output done _ g sheds keeps rfl
    have returnable : Returnable plan arguments (s.after [] g) e :=
      (echoes.returnable e listed).congr rfl sheds
    refine (discardParameter_returns wired passes (echoes.ready.after sheds []) carries returnable
      keeps output).mono ?_ fun _ _ never => never
    rintro _ _ ⟨g', shed, rfl⟩
    exact ⟨[], g', shed, rfl, rfl⟩
  · intro e listed input
    exact ⟨echoes.nothing_handed passes listed input, fun _ _ made => made⟩
  · rintro _ _ ⟨_, g, sheds, rfl, rfl⟩
    exact ⟨g, sheds, rfl⟩

/-- An exception that is pending is taken and reported. Without one, every output is what was given
for it. -/
theorem settle_returns {ret : Slot} {receiver : Option Value} :
    (settle held plan ret receiver).Gives s
      (fun v t => s.memory.pending = none ∧ ∃ outs g, v = resultOf outs ∧
        List.Forall₂ (fun w (e : Entry) => w.equals e.value = true) outs
          (entries.filter (·.parameter.isOutput)) ∧
        s.memory.heap.Sheds g (entries.flatMap Entry.handed) ∧ t = s.cleared.after outs g)
      (fun e t => s.memory.pending = some e ∧ ∃ g,
        s.memory.heap.Sheds g (entries.flatMap Entry.handed) ∧ t = s.cleared.after [] g)
      halted := by
  rw [settle, Action.gives_bind]
  refine (drainErrorCell_empty echoes).mono ?_ fun _ _ never => never
  rintro _ t ⟨rfl, same⟩
  rw [same, Action.gives_bind, gives_onMemory, Memory.takePending, Action.gives_bind, Action.gives_get,
    Action.gives_bind, Action.gives_modify, Action.gives_pure]
  cases s.memory.pending with
  | some e =>
    dsimp only
    rw [Action.gives_bind, discardOutputs, if_pos rfl, discardReturn, passes.skips]
    exact (discardParameters_returns wired passes carries echoes.cleared).mono
      (fun _ _ left => ⟨rfl, left⟩) fun _ _ never => never.elim
  | none =>
    dsimp only
    rw [assemble, Action.gives_bind, Action.gives_attempt, Action.gives_bind, liftReturn,
      passes.skips]
    refine (liftParameters_returns wired passes carries echoes.cleared).mono ?_
      fun _ _ never => never.elim
    rintro _ _ ⟨outs, g, sheds, equal, rfl⟩
    exact ⟨rfl, outs, g, rfl, equal, sheds, rfl⟩

end FrameM

end ForeignCall
