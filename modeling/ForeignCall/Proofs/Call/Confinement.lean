import ForeignCall.Proofs.Call.Formed
import ForeignCall.Proofs.Call.Unwinding
import ForeignCall.Proofs.Ownership.ConfinedLowering

/-!
Where the release at the end of a call stays.

Whatever the types of its parameters are, the blocks that a call takes for itself are new, and what its
inputs lead to is confined to them. So the release at the end leaves what was there before the call, but
for what the trampolines keep that end with the call.
-/

set_option autoImplicit false

namespace ForeignCall

open ForeignCall.Action

/-- Since the heap `before`, the frame took new blocks only: its inputs are confined to `blocks`, and
its cells are the others. -/
structure Scratch.Confined (plan : Plan) (before : Heap) (s : Scratch) (blocks cells : List Block) :
    Prop where
  adds : before.Adds s.memory.heap (blocks ++ cells)
  apart : ∀ b ∈ cells, b ∉ blocks
  inputs : ∀ input ∈ s.frame.inputs, ∀ p, plan.parameters[input.position]? = some p →
    ForeignCall.Confined s.memory.heap p.type input.slot input.count blocks
  cells : ∀ a ∈ s.frame.cellAddresses, StartOf cells a

namespace Scratch.Confined

variable {plan : Plan} {before g : Heap} {s t : Scratch} {blocks more cells : List Block} {b : Block}
  {p : Parameter} {position : Nat}

theorem start (m : Memory) (count : Nat) : Scratch.Confined plan m.heap ⟨.start count, m⟩ [] [] where
  adds := (Heap.Retains.refl m.heap).adds
  apart := List.forall_mem_nil _
  inputs := List.forall_mem_nil _
  cells a listed := by simp [Frame.cellAddresses, Frame.start] at listed

theorem retains (confined : s.Confined plan before blocks cells)
    (retains : s.memory.heap.Retains t.memory.heap) (inputs : t.frame.inputs = s.frame.inputs)
    (addresses : t.frame.cellAddresses = s.frame.cellAddresses) :
    t.Confined plan before blocks cells where
  adds := confined.adds.retains retains
  apart := confined.apart
  inputs input listed p found :=
    (confined.inputs input (inputs ▸ listed) p found).prolongs retains.toProlongs
  cells a listed := confined.cells a (addresses ▸ listed)

/-- Another input that is confined to new blocks. -/
theorem takes {slot : Slot} {count : Option Nat} (confined : s.Confined plan before blocks cells)
    (found : plan.parameters[position]? = some p) (adds : s.memory.heap.Adds t.memory.heap more)
    (lowered : ForeignCall.Confined t.memory.heap p.type slot count more)
    (inputs : t.frame.inputs = s.frame.inputs)
    (addresses : t.frame.cellAddresses = s.frame.cellAddresses) :
    Scratch.Confined plan before
      ⟨{ t.frame with inputs := t.frame.inputs ++ [⟨position, slot, count⟩] }, t.memory⟩
      (blocks ++ more) cells where
  adds := by
    refine (confined.adds.trans adds).subset fun b listed => ?_
    simp only [List.mem_append] at listed ⊢
    tauto
  apart b listed taken := by
    rcases List.mem_append.1 taken with old | new
    · exact confined.apart b listed old
    · exact adds.not_live new (confined.adds.live b (List.mem_append_right _ listed))
  inputs input listed q source := by
    rw [inputs] at listed
    rcases List.mem_append.1 listed with old | new
    · exact ((confined.inputs input old q source).prolongs adds.toProlongs).mono
        (List.subset_append_left _ _)
    · obtain rfl := List.mem_singleton.1 new
      obtain rfl := Option.some.inj (found.symm.trans source)
      exact lowered.mono (List.subset_append_right _ _)
  cells a listed := confined.cells a (addresses ▸ listed)

/-- Another cell in a new block. -/
theorem cell {slots : List Slot} {made : List (Option Cell)} {errorCell : Option Nat}
    (confined : s.Confined plan before blocks cells) (adds : s.memory.heap.Adds g [b])
    (addresses : ∀ a ∈ ({ s.frame with slots, cells := made, errorCell } : Frame).cellAddresses,
      a ∈ s.frame.cellAddresses ∨ a = b.address) :
    Scratch.Confined plan before
      ⟨{ s.frame with slots, cells := made, errorCell }, { s.memory with heap := g }⟩ blocks
      (cells ++ [b]) where
  adds := by
    rw [← List.append_assoc]
    exact confined.adds.trans adds
  apart c listed taken := by
    rcases List.mem_append.1 listed with old | new
    · exact confined.apart c old taken
    · exact adds.not_live new (confined.adds.live c (List.mem_append_left _ taken))
  inputs input listed p found := (confined.inputs input listed p found).prolongs adds.toProlongs
  cells a listed := by
    rcases addresses a listed with old | rfl
    · exact StartOf.mono (List.subset_append_left _ _) a (confined.cells a old)
    · exact ⟨b, List.mem_append_right _ (List.mem_singleton_self b), rfl⟩

end Scratch.Confined

/-! ### Filling the slots -/

/-- If the frame took new blocks only up to the first state, then it did up to the second. -/
def Scratch.Confining (plan : Plan) (before : Heap) (s t : Scratch) : Prop :=
  (∃ blocks cells, s.Confined plan before blocks cells) →
    ∃ blocks cells, t.Confined plan before blocks cells

theorem Scratch.composes_confining (plan : Plan) (before : Heap) :
    Composes (Scratch.Confining plan before) where
  refl _ := id
  trans first second := second ∘ first

namespace FrameM

variable {env : Environment} {plan : Plan} {before : Heap} {p : Parameter} {position : Nat} {v : Value}
  {s : Scratch}

theorem mem_cellAddresses_set {f : Frame} {slots : List Slot} {c : Cell} {a : Nat}
    (listed : a ∈ ({ f with slots, cells := f.cells.set position (some c) } : Frame).cellAddresses) :
    a ∈ f.cellAddresses ∨ a = c.address := by
  simp only [Frame.cellAddresses, List.mem_append, List.mem_map, List.mem_filterMap, id_eq,
    exists_eq_right] at listed ⊢
  rcases listed with ⟨d, present, rfl⟩ | last
  · rcases List.mem_or_eq_of_mem_set present with old | new
    · exact .inl (.inl ⟨d, old, rfl⟩)
    · exact .inr (congrArg Cell.address (Option.some.inj new))
  · exact .inl (.inr last)

theorem setSlot_confining (slot : Slot) :
    (setSlot position p slot).Across (Scratch.Confining plan before) := by
  intro s
  unfold setSlot
  split
  · rw [Action.gives_bind, gives_touch]
    refine gives_cell.partly.mono (fun cell g ⟨n, room, grows⟩ => ?_) fun _ _ never => never
    have live := grows.live (List.mem_singleton_self _)
    have within : g.Accessible cell (min p.type.slotSize 8) :=
      live.accessible_start (Nat.le_trans (Nat.min_le_right _ _) room)
    rw [Action.gives_bind, gives_touch]
    apply Action.gives_of_ok (Heap.store_eq slot within)
    rw [gives_modifyFrame]
    rintro ⟨blocks, cells, confined⟩
    refine ⟨blocks, _, confined.cell (Heap.Adds.overwritten grows.adds ?_ ?_) fun a listed => ?_⟩
    · rwa [Slot.length_toBytes]
    · exact grows.fresh _ (List.mem_singleton_self _)
    · exact mem_cellAddresses_set listed
  · rintro ⟨blocks, cells, confined⟩
    exact ⟨blocks, cells, confined.retains (.refl _) rfl rfl⟩

theorem setOutput_confining :
    (setOutput position p).Across (Scratch.Confining plan before) := by
  intro s
  unfold setOutput allocCell
  rw [Action.gives_bind]
  split <;>
  · rw [Action.gives_bind, gives_touch]
    refine gives_cell.partly.mono (fun cell g ⟨n, _, grows⟩ => ?_) fun _ _ never => never
    rw [Action.gives_pure, gives_modifyFrame]
    rintro ⟨blocks, cells, confined⟩
    exact ⟨blocks, _, confined.cell grows.adds fun a => mem_cellAddresses_set⟩

/-- Whatever the type of an input is, its slot is confined to new blocks. -/
theorem lowerInput_confines (env : Environment) (p : Parameter) (v : Value) (s : Scratch) :
    (lowerInput env p v).Gives s
      (fun lowered t => ∃ blocks, s.memory.heap.Adds t.memory.heap blocks ∧
        Confined t.memory.heap p.type lowered.1 lowered.2 blocks)
      (fun _ t => s.memory.heap.Retains t.memory.heap) fun _ => True := by
  unfold lowerInput
  split
  · rw [Action.gives_bind, lowerCallbackInput, Action.gives_bind, gives_convert]
    refine lowerCallback_gains.partly.mono (fun slot m lowered => ?_) fun _ m same => ?_
    · obtain ⟨heap, kind, -⟩ := lowered
      rw [Action.gives_bind, gives_modifyFrame, Action.gives_pure]
      refine ⟨[], ?_, ?_⟩
      · exact heap ▸ (Heap.Retains.refl _).adds
      · rcases kind with ⟨null, -⟩ | ⟨name, pointer, type⟩
        · exact confined_null null
        · exact type ▸ confined_of_bare rfl rfl _ _ _
    · exact same ▸ Heap.Retains.refl _
  · rw [Action.gives_bind, lowerArrayInput, Action.gives_bind, gives_convert]
    refine (lowerArray_confines s.memory).mono (fun packed m lowered => ?_) fun _ _ retains => retains
    dsimp only
    split <;> exact lowered
  · rw [Action.gives_bind, gives_convert]
    refine (lower_confines p.type v p.nullable s.memory).mono (fun slot m lowered => ?_)
      fun _ _ retains => retains
    obtain ⟨blocks, confined, adds⟩ := lowered
    exact ⟨blocks, adds, confined⟩

theorem takeInput_confining (found : plan.parameters[position]? = some p) :
    (takeInput env p position v).Across (Scratch.Confining plan before) := by
  intro s
  rw [takeInput, Action.gives_bind]
  refine ((lowerInput_confines env p v s).both (lowerInput_scopes s)).mono ?_ ?_
  · rintro lowered t ⟨⟨more, adds, item⟩, scopes, -⟩
    have takes : Scratch.Confining plan before s
        ⟨{ t.frame with inputs := t.frame.inputs ++ [⟨position, lowered.1, lowered.2⟩] },
          t.memory⟩ := by
      rintro ⟨blocks, cells, confined⟩
      refine ⟨_, cells, confined.takes found adds item scopes.inputs ?_⟩
      rw [Frame.cellAddresses, scopes.cells, scopes.errorCell, Frame.cellAddresses]
    dsimp only
    rw [Action.gives_bind, gives_modifyFrame]
    exact (setSlot_confining lowered.1 _).mono (fun _ u later => later ∘ takes)
      fun _ u later => later ∘ takes
  · rintro _ t ⟨retains, same⟩ ⟨blocks, cells, confined⟩
    exact ⟨blocks, cells, confined.retains retains (by rw [same]) (by rw [same])⟩

theorem putHidden_confining :
    (putHidden env p position).Across (Scratch.Confining plan before) := by
  unfold putHidden
  split
  · exact setOutput_confining
  · refine Across.bind (Scratch.composes_confining plan before) (fun s => ?_) fun slot =>
      setSlot_confining slot
    exact hiddenSlot_spares.mono (fun _ _ same => same ▸ id) fun _ _ same => same ▸ id

theorem allocErrorCell_confining : (allocErrorCell plan).Across (Scratch.Confining plan before) := by
  intro s
  unfold allocErrorCell
  split
  · rw [Action.gives_bind, gives_touch]
    refine gives_cell.partly.mono (fun cell g ⟨n, _, grows⟩ => ?_) fun _ _ never => never
    rw [gives_modifyFrame]
    rintro ⟨blocks, cells, confined⟩
    refine ⟨blocks, _, confined.cell grows.adds fun a listed => ?_⟩
    simp only [Frame.cellAddresses, List.mem_append, Option.toList_some, List.mem_singleton] at listed ⊢
    tauto
  · exact id

/-- Filling the slots takes new blocks only, whatever the types of the parameters are. -/
theorem nativeSlots_confined (env : Environment) (plan : Plan) (receiver : Option Nat)
    (arguments : List Value) (m : Memory) :
    (nativeSlots env plan receiver arguments).Gives ⟨.start plan.parameters.length, m⟩
      (fun _ t => ∃ blocks cells, t.Confined plan m.heap blocks cells)
      (fun _ t => ∃ blocks cells, t.Confined plan m.heap blocks cells) fun _ => True := by
  have c := Scratch.composes_confining plan m.heap
  have confining : (nativeSlots env plan receiver arguments).Across
      (Scratch.Confining plan m.heap) := by
    have steps := sequential_across c
    refine Across.bind c (steps.fillVisible (fun _ _ _ => setOutput_confining)
      fun e listed _ v => takeInput_confining (plan.getElem?_position e listed)) fun _ => ?_
    refine Across.bind c (steps.fillHidden fun _ _ => putHidden_confining) fun _ => ?_
    refine allocErrorCell_confining.bind c fun _ => ?_
    exact (across_get c).bind c fun _ => across_pure c _
  have start : ∃ blocks cells,
      Scratch.Confined plan m.heap ⟨.start plan.parameters.length, m⟩ blocks cells :=
    ⟨[], [], .start m _⟩
  exact (confining _).mono (fun _ _ later => later start) fun _ _ later => later start

end FrameM

/-! ### The release at the end -/

/-- Blocks at these addresses may have been freed, and nothing else was done. -/
structure Scratch.LosesAt (P : Nat → Prop) (s t : Scratch) : Prop where
  trampolines : t.memory.trampolines = s.memory.trampolines
  heap : s.memory.heap.Spares P t.memory.heap

theorem Scratch.LosesAt.refl (P : Nat → Prop) (s : Scratch) : s.LosesAt P s := ⟨rfl, .refl _⟩

theorem Scratch.LosesAt.trans {P : Nat → Prop} {s t u : Scratch} (first : s.LosesAt P t)
    (second : t.LosesAt P u) : s.LosesAt P u :=
  ⟨second.trampolines.trans first.trampolines, first.heap.trans second.heap⟩

namespace FrameM

variable {P : Nat → Prop} {h : Heap} {s : Scratch} {first : Except CallError Unit}

/-- Steps that only free blocks at these addresses, tried one after the other. -/
theorem tryAll_losesAt {steps : List (FrameM Unit)}
    (each : ∀ step ∈ steps, ∀ t : Scratch, t.memory.heap.bytes = h.bytes →
      step.Gives t (fun _ u => t.LosesAt P u) (fun _ u => t.LosesAt P u) fun _ => True)
    (same : s.memory.heap.bytes = h.bytes) :
    (tryAll first steps).Gives s (fun _ t => s.LosesAt P t) (fun _ _ => False) fun _ => True := by
  induction steps generalizing first s with
  | nil => exact .refl P s
  | cons step rest ih =>
    obtain ⟨here, later⟩ := List.forall_mem_cons.1 each
    have onward (next : Except CallError Unit) (t : Scratch) (loses : s.LosesAt P t) :
        (tryAll next rest).Gives t (fun _ u => s.LosesAt P u) (fun _ _ => False) fun _ => True :=
      (ih later (loses.heap.bytes_eq.trans same)).mono (fun _ _ => loses.trans)
        fun _ _ never => never
    rw [tryAll, gives_bind, keepFirst, gives_bind, gives_attempt]
    exact (here s same).mono (fun _ t loses => onward _ t loses) fun _ t loses => onward _ t loses

theorem releaseInput_losesAt {plan : Plan} {input : Lowered} {blocks : List Block}
    (confined : ∀ p, plan.parameters[input.position]? = some p →
      Confined h p.type input.slot input.count blocks)
    (same : s.memory.heap.bytes = h.bytes) :
    (releaseInput plan input).Gives s (fun _ t => s.LosesAt (StartOf blocks) t)
      (fun _ t => s.LosesAt (StartOf blocks) t) fun _ => True := by
  unfold releaseInput
  split
  · rename_i p found
    have plain : (Holding.of p.transfer .input).references = false := by
      cases p.transfer <;> rfl
    rw [gives_convert, gives_onHeap]
    exact (release_sparing plain (confined p found) _ same).mono (fun _ _ spares => ⟨rfl, spares⟩)
      fun _ _ spares => ⟨rfl, spares⟩
  · exact .refl _ s

theorem freeCells_losesAt {α : Type} {address : α → Nat} {cells : List α}
    (inside : ∀ c ∈ cells, P (address c)) :
    (tryAll first (cells.map fun c => touch (Heap.free (address c)))).Gives s
      (fun _ t => s.LosesAt P t) (fun _ _ => False) fun _ => True := by
  refine tryAll_losesAt (h := s.memory.heap) (List.forall_mem_map.2 fun c listed t _ => ?_) rfl
  have sparing := Heap.sparing_free (inside c listed) t.memory.heap rfl
  rw [gives_act] at sparing
  rw [gives_touch]
  exact sparing.mono (fun _ _ spares => ⟨rfl, spares⟩) fun _ _ spares => ⟨rfl, spares⟩

/-- Releasing trampolines frees what they keep. -/
theorem tryAll_scoped (owed : Nat → List Block) {todo : List Nat} {halted : Halt → Prop}
    (owes : ∀ a ∈ todo, s.memory.Owes a (owed a)) (keeps : s.memory.heap.Keeps (todo.flatMap owed)) :
    (tryAll first (todo.map fun a => do
      let _ ← convert (releaseTrampoline a))).Gives s
        (fun _ t => s.memory.heap.Sheds t.memory.heap (todo.flatMap owed)) (fun _ _ => False)
        halted := by
  induction todo generalizing first s with
  | nil => exact .refl _
  | cons a rest ih =>
    obtain ⟨here, later⟩ := List.forall_mem_cons.1 owes
    rw [List.flatMap_cons] at keeps ⊢
    rw [List.map_cons, tryAll, gives_bind, keepFirst, gives_bind, gives_attempt]
    refine (releaseScoped_drops here keeps.left).mono (fun _ t drops => ?_) fun _ _ never => never.elim
    have still (c : Nat) (listed : c ∈ rest) : t.memory.Owes c (owed c) := by
      by_cases again : c = a
      · -- What is listed twice keeps nothing, for what it keeps is listed once.
        subst again
        have nothing : owed c = [] := by
          refine List.eq_nil_iff_forall_not_mem.2 fun b kept => ?_
          exact List.disjoint_of_nodup_append keeps.2 kept (List.mem_flatMap.2 ⟨c, listed, kept⟩)
        rw [Memory.Owes, drops.gone, if_pos (List.mem_singleton_self c)]
        exact nothing
      · exact drops.owes (by simpa using again) (later c listed)
    exact (ih still (keeps.right drops.sheds)).mono (fun _ u sheds => drops.sheds.trans sheds)
      fun _ _ never => never

variable {plan : Plan} {m₀ m v : Memory} {f : Frame} {ret : Slot} {outs : List Output}
  {owed : Nat → List Block} {rest blocks cells : List Block}

section

variable (confined : Scratch.Confined plan m₀.heap ⟨f, m⟩ blocks cells)
  (left : Unwindable plan m₀ m v f ret outs owed rest)

include confined left

/-- The blocks that the call took are still there, with the bytes that it put there. -/
theorem confined_later {input : Lowered} {p : Parameter} (listed : input ∈ f.inputs)
    (found : plan.parameters[input.position]? = some p) :
    Confined v.heap p.type input.slot input.count blocks := by
  have made {b : Block} (own : b ∈ blocks) : m.heap.Live b ∧ ¬ m₀.heap.Live b :=
    have new := List.mem_append_left cells own
    ⟨confined.adds.live b new, confined.adds.not_live new⟩
  refine (confined.inputs input listed p found).agree
    ⟨fun b own _ => ?_, fun b own x above below _ => ?_⟩
  · exact (left.intact.live b (made own).1 (made own).2).inside.2.2
  · refine left.intact.bytes b (made own).1 (made own).2 (fun cell => ?_) x above below
    obtain ⟨c, inCells, same⟩ := confined.cells _ cell
    have live := confined.adds.live c (List.mem_append_right _ inCells)
    exact confined.apart c inCells (live.eq_of_address (made own).1 same ▸ own)

/-- No block of the call starts where another block is. -/
theorem not_startOf {b : Block} (live : v.heap.Live b) (other : m.heap.Live b → m₀.heap.Live b) :
    ¬ StartOf (blocks ++ cells) b.address := by
  rintro ⟨c, own, same⟩
  have made := confined.adds.live c own
  have new := confined.adds.not_live own
  obtain rfl := (left.intact.live c made new).eq_of_address live same
  exact new (other made)

/-- The release at the end leaves each block that the call did not take for itself, unless a trampoline
keeps it that ends with the call. -/
theorem releaseAll_leaves_others {u : Scratch}
    (hands : Scratch.Hands ⟨f, v⟩ u (outs.flatMap Output.lent))
    (there : ∀ b, v.heap.Live b → b ∉ rest ++ outs.flatMap Output.handed → u.memory.heap.Live b) :
    (releaseAll plan).Gives u
      (fun _ t => ∀ b, v.heap.Live b → (m.heap.Live b → m₀.heap.Live b) →
        b ∉ f.callScoped.flatMap owed → (t.memory.heap.Live b ↔ u.memory.heap.Live b))
      (fun _ t => ∀ b, v.heap.Live b → (m.heap.Live b → m₀.heap.Live b) →
        b ∉ f.callScoped.flatMap owed → (t.memory.heap.Live b ↔ u.memory.heap.Live b))
      fun _ => True := by
  have transient : u.frame.callScoped = f.callScoped := hands.callScoped
  have kept : ∀ b ∈ f.callScoped.flatMap owed, v.heap.Live b ∧
      b ∉ rest ++ outs.flatMap Output.handed ∧ (m.heap.Live b → m₀.heap.Live b) := by
    intro b listed
    have keeps := left.keeps
    rw [← List.append_assoc] at keeps
    have alone : b ∉ rest ++ outs.flatMap Output.handed := fun other =>
      List.disjoint_of_nodup_append keeps.2 other listed
    refine ⟨keeps.1 b (List.mem_append_right _ listed), alone, left.apart b ?_ fun lent => ?_⟩
    · exact List.mem_append_right _ (List.mem_append_right _ listed)
    · obtain ⟨o, member, inside⟩ := List.mem_flatMap.1 lent
      have handed := o.lent_sublist.subset inside
      exact alone (List.mem_append_right _ (List.mem_flatMap.2 ⟨o, member, handed⟩))
  have cell {a : Nat} (listed : a ∈ u.frame.cellAddresses) : StartOf (blocks ++ cells) a :=
    StartOf.mono (List.subset_append_right _ _) a
      (confined.cells a (hands.addresses.mem_iff.2 (List.mem_append_left _ listed)))
  rw [releaseAll, gives_bind, gives_frame, gives_bind]
  refine (tryAll_losesAt (h := u.memory.heap) (P := StartOf (blocks ++ cells)) ?_ rfl).mono ?_
    fun _ _ never => never.elim
  · intro step listed t same
    obtain ⟨input, member, rfl⟩ := List.mem_map.1 listed
    have later := fun p => confined_later (p := p) confined left (hands.inputs ▸ member)
    exact releaseInput_losesAt (fun p found =>
      ((later p found).prolongs hands.prolongs).mono (List.subset_append_left _ _)) same
  intro first₁ t₁ loses₁
  rw [gives_bind]
  refine (freeCells_losesAt (P := StartOf (blocks ++ cells)) fun c listed => ?_).mono ?_
    fun _ _ never => never.elim
  · exact cell (List.mem_append_left _ (List.mem_map_of_mem listed))
  intro first₂ t₂ loses₂
  rw [gives_bind]
  refine (freeCells_losesAt (P := StartOf (blocks ++ cells)) fun c listed => ?_).mono ?_
    fun _ _ never => never.elim
  · exact cell (List.mem_append_right _ listed)
  intro first₃ t₃ loses₃
  have loses := (loses₁.trans loses₂).trans loses₃
  have spared {b : Block} (live : v.heap.Live b) (other : m.heap.Live b → m₀.heap.Live b) :
      t₃.memory.heap.Live b ↔ u.memory.heap.Live b :=
    ⟨loses.heap.live_of, fun here =>
      loses.heap.keeps_live here (not_startOf confined left live other)⟩
  rw [gives_bind, transient]
  refine (tryAll_scoped owed (fun a listed => ?_) ⟨fun b listed => ?_, ?_⟩).mono ?_
    fun _ _ never => never.elim
  · refine (left.owes a listed).prolongs (by rw [loses.trampolines, hands.trampolines]) ?_
    exact hands.prolongs.trans (Heap.prolongs_of_bytes_eq loses.heap.bytes_eq)
  · obtain ⟨live, alone, other⟩ := kept b listed
    exact (spared live other).2 (there b live alone)
  · exact (List.nodup_append.1 (List.nodup_append.1 left.keeps.2).2.1).2.1
  · intro last t sheds
    have leaves (b : Block) (live : v.heap.Live b) (other : m.heap.Live b → m₀.heap.Live b)
        (free : b ∉ f.callScoped.flatMap owed) : t.memory.heap.Live b ↔ u.memory.heap.Live b := by
      rw [sheds.live_iff, spared live other]
      exact and_iff_left free
    cases last <;> exact leaves

end

end FrameM

end ForeignCall
