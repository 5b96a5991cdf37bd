import ForeignCall.Proofs.Call.Slots
import ForeignCall.Proofs.Ownership.Callbacks
import ForeignCall.Proofs.Ownership.Lowering

/-!
What a call has taken while its slots are filled.

The frame of a call knows every input that was lowered, every cell and every trampoline that ends
with the call. `Ledger` says that nothing else was taken since the call began: the heap gained the
blocks that the inputs own and those of the cells, and the table gained the trampolines of the
inputs. `Accounts` says so while the slots are being filled. It holds after each step, so wherever
filling the slots fails.
-/

set_option autoImplicit false

namespace ForeignCall

def Parameter.endsWithCall (p : Parameter) (policy : UnscopedPolicy) : Bool :=
  match p.role with
  | .callback _ destroy => releaseFor destroy p.scope policy == .afterCall
  | _ => false

/-- A lowered input: where it comes from, and what was taken for it. -/
structure Entry where
  input : Lowered
  parameter : Parameter
  value : Value
  owned : Footprint
  registered : List Nat

namespace Entry

def given (e : Entry) : Parameter × Value := (e.parameter, e.value)

def transient (e : Entry) (policy : UnscopedPolicy) : List Nat :=
  if e.parameter.endsWithCall policy then e.registered else []

structure Holds (e : Entry) (plan : Plan) (h : Heap) : Prop where
  source : plan.parameters[e.input.position]? = some e.parameter
  owns : ∃ count, Owns h e.parameter.type e.input.slot count e.owned ∧
    (e.input.slot.isNull = false → e.parameter.type.Told e.input.count count)
  outer : e.owned.outer.isEmpty = !e.parameter.type.allocates e.value
  registered : e.registered.isEmpty = !e.parameter.type.registers e.value

theorem Holds.of_grows {e : Entry} {plan : Plan} {h g : Heap} {blocks : List Block}
    (holds : e.Holds plan h) (grows : h.Grows g blocks) (live : ∀ b ∈ e.owned.all, h.Live b) :
    e.Holds plan g := by
  obtain ⟨count, owned, told⟩ := holds.owns
  exact { holds with owns := ⟨count, owned.of_grows grows live, told⟩ }

end Entry

def Frame.cellAddresses (f : Frame) : List Nat :=
  (f.cells.filterMap id).map Cell.address ++ f.errorCell.toList

/-- Since the native state `m`, exactly what the frame knows of was taken. -/
structure Ledger (plan : Plan) (policy : UnscopedPolicy) (m : Memory) (entries : List Entry)
    (s : Scratch) : Prop where
  inputs : s.frame.inputs = entries.map Entry.input
  holds : ∀ e ∈ entries, e.Holds plan s.memory.heap
  taken : ∃ cells : List Block, s.frame.cellAddresses.Perm (cells.map Block.address) ∧
    m.heap.Grows s.memory.heap (entries.flatMap (·.owned.all) ++ cells)
  registered : m.trampolines.Gains s.memory.trampolines (entries.flatMap Entry.registered)
  transient : s.frame.callScoped = entries.flatMap (·.transient policy)

/-- The ledger before the cell for an error is made. At the positions in `todo` there is no cell
yet. -/
structure Accounts (plan : Plan) (policy : UnscopedPolicy) (m : Memory) (entries : List Entry)
    (todo : Nat → Prop) (s : Scratch) : Prop extends Ledger plan policy m entries s where
  vacant : ∀ i, todo i → s.frame.cells[i]? = some none
  errorCell : s.frame.errorCell = none

theorem filterMap_set {cells : List (Option Cell)} {i : Nat} (c : Cell)
    (vacant : cells[i]? = some none) :
    ((cells.set i (some c)).filterMap id).Perm (cells.filterMap id ++ [c]) := by
  induction cells generalizing i with
  | nil => cases vacant
  | cons first rest ih =>
    cases i with
    | zero =>
      cases vacant
      exact (List.perm_append_singleton c _).symm
    | succ i =>
      have later := ih vacant
      cases first with
      | none => exact later
      | some d => exact later.cons d

variable {env : Environment} {plan : Plan} {policy : UnscopedPolicy} {m : Memory}
  {entries : List Entry} {todo : Nat → Prop} {s t : Scratch} {p : Parameter} {v : Value}

theorem accounts_start : Accounts plan policy m [] (· < plan.parameters.length)
    ⟨.start plan.parameters.length, m⟩ where
  inputs := rfl
  holds := by simp
  taken := ⟨[], by simp [Frame.cellAddresses, Frame.start], .refl _⟩
  registered := .refl _
  transient := rfl
  vacant i inside := by simp [Frame.start, inside]
  errorCell := rfl

namespace Ledger

theorem live (ledger : Ledger plan policy m entries s) {e : Entry} (listed : e ∈ entries)
    {b : Block} (owned : b ∈ e.owned.all) : s.memory.heap.Live b := by
  obtain ⟨cells, -, grows⟩ := ledger.taken
  exact grows.live (List.mem_append_left _ (List.mem_flatMap.2 ⟨e, listed, owned⟩))

theorem holds_of_grows (ledger : Ledger plan policy m entries s) {g : Heap}
    {blocks : List Block} (grows : s.memory.heap.Grows g blocks) :
    ∀ e ∈ entries, e.Holds plan g := fun e listed =>
  (ledger.holds e listed).of_grows grows fun _ => ledger.live listed

theorem cell {g : Heap} {b : Block} {slots : List Slot} {cells : List (Option Cell)}
    {errorCell : Option Nat} (ledger : Ledger plan policy m entries s)
    (grows : s.memory.heap.Grows g [b])
    (addresses : ({ s.frame with slots, cells, errorCell } : Frame).cellAddresses.Perm
      (s.frame.cellAddresses ++ [b.address])) :
    Ledger plan policy m entries
      ⟨{ s.frame with slots, cells, errorCell }, { s.memory with heap := g }⟩ where
  inputs := ledger.inputs
  holds := ledger.holds_of_grows grows
  taken := by
    obtain ⟨blocks, same, grown⟩ := ledger.taken
    refine ⟨blocks ++ [b], ?_, ?_⟩
    · rw [List.map_append]
      exact addresses.trans (same.append_right _)
    · rw [← List.append_assoc]
      exact grown.trans grows
  registered := ledger.registered
  transient := ledger.transient

end Ledger

namespace Accounts

theorem narrow {todo' : Nat → Prop} (accounts : Accounts plan policy m entries todo s)
    (fewer : ∀ i, todo' i → todo i) : Accounts plan policy m entries todo' s :=
  { accounts with vacant := fun i rest => accounts.vacant i (fewer i rest) }

theorem kept (accounts : Accounts plan policy m entries todo s)
    (grows : s.memory.heap.Grows t.memory.heap [])
    (frame : t.frame = s.frame)
    (same : t.memory.trampolines = s.memory.trampolines) :
    Accounts plan policy m entries todo t where
  inputs := by rw [frame, accounts.inputs]
  holds := accounts.holds_of_grows grows
  taken := by
    obtain ⟨cells, addresses, grown⟩ := accounts.taken
    refine ⟨cells, by rwa [frame], ?_⟩
    rw [← List.append_nil (_ ++ cells)]
    exact grown.trans grows
  registered := by
    rw [same]
    exact accounts.registered
  transient := by rw [frame, accounts.transient]
  vacant := by
    rw [frame]
    exact accounts.vacant
  errorCell := by rw [frame, accounts.errorCell]

end Accounts

namespace FrameM

/-! ### Cells -/

theorem gives_cell {size : Nat} {h : Heap} {failed : HeapFault → Heap → Prop} :
    (Heap.alloc size 8).Gives h (fun a g => ∃ n, size ≤ n ∧ h.Grows g [⟨a, n⟩]) failed :=
  Heap.gives_alloc fun _ after positive room =>
    ⟨_, Nat.le_max_left size 1, .extend after positive room⟩

theorem setCell_accounts {position : Nat} {c : Cell} {b : Block} {g : Heap}
    (accounts : Accounts plan policy m entries todo s) (grows : s.memory.heap.Grows g [b])
    (address : c.address = b.address) (empty : todo position) (slots : List Slot) :
    Accounts plan policy m entries (fun i => todo i ∧ i ≠ position)
      ⟨{ s.frame with slots := slots, cells := s.frame.cells.set position (some c) },
        { s.memory with heap := g }⟩ := by
  refine ⟨accounts.cell grows ?_, fun i rest => ?_, accounts.errorCell⟩
  · have set := (filterMap_set c (accounts.vacant position empty)).map Cell.address
    rw [List.map_append, List.map_singleton, address] at set
    apply (set.append_right _).trans
    rw [Frame.cellAddresses, List.append_assoc, List.append_assoc]
    exact List.perm_append_comm.append_left _
  · rw [List.getElem?_set_ne rest.2.symm]
    exact accounts.vacant i rest.1

theorem setSlot_accounts {position : Nat} {slot : Slot}
    (accounts : Accounts plan policy m entries todo s) (empty : todo position) :
    (setSlot position p slot).Gives s
      (fun _ t => Accounts plan policy m entries (fun i => todo i ∧ i ≠ position) t)
      fun _ _ => False := by
  unfold setSlot
  split
  · rw [Action.gives_bind, gives_touch]
    refine gives_cell.mono (fun cell g ⟨n, room, grows⟩ => ?_) fun _ _ never => never
    have live := grows.live (List.mem_singleton_self _)
    have within : g.Accessible cell (min p.type.slotSize 8) :=
      live.accessible_start (Nat.le_trans (Nat.min_le_right _ _) room)
    rw [Action.gives_bind, gives_touch]
    apply Action.gives_of_ok (Heap.store_eq slot within)
    rw [gives_modifyFrame]
    refine setCell_accounts accounts (grows.overwritten ?_ ?_) rfl empty _
    · rwa [Slot.length_toBytes]
    · exact grows.fresh _ (List.mem_singleton_self _)
  · rw [gives_modifyFrame]
    exact { accounts with vacant := fun i rest => accounts.vacant i rest.1 }

theorem setOutput_accounts {position : Nat} (accounts : Accounts plan policy m entries todo s)
    (empty : todo position) :
    (setOutput position p).Gives s
      (fun _ t => Accounts plan policy m entries (fun i => todo i ∧ i ≠ position) t)
      fun _ _ => False := by
  unfold setOutput allocCell
  rw [Action.gives_bind]
  split <;>
  · rw [Action.gives_bind, gives_touch]
    refine gives_cell.mono (fun cell g ⟨n, _, grows⟩ => ?_) fun _ _ never => never
    rw [Action.gives_pure, gives_modifyFrame]
    exact setCell_accounts accounts grows rfl empty _

end FrameM

/-! ### Inputs -/

/-- A step that lowers an input, with what it takes for it. -/
structure Takes (policy : UnscopedPolicy) (p : Parameter) (v : Value) (slot : Slot)
    (count : Option Nat) (s t : Scratch) (owned : Footprint) (registered : List Nat) : Prop where
  owns : ∃ n, Owns t.memory.heap p.type slot n owned ∧ (slot.isNull = false → p.type.Told count n)
  outer : owned.outer.isEmpty = !p.type.allocates v
  registers : registered.isEmpty = !p.type.registers v
  grows : s.memory.heap.Grows t.memory.heap owned.all
  gains : s.memory.trampolines.Gains t.memory.trampolines registered
  inputs : t.frame.inputs = s.frame.inputs
  cells : t.frame.cells = s.frame.cells
  errorCell : t.frame.errorCell = s.frame.errorCell
  callScoped : t.frame.callScoped =
    s.frame.callScoped ++ if p.endsWithCall policy then registered else []

structure Spares (s t : Scratch) : Prop where
  frame : t.frame = s.frame
  grows : s.memory.heap.Grows t.memory.heap []
  trampolines : t.memory.trampolines = s.memory.trampolines

theorem Accounts.takes {position : Nat} {slot : Slot} {count : Option Nat} {owned : Footprint}
    {registered : List Nat} (accounts : Accounts plan policy m entries todo s)
    (takes : Takes policy p v slot count s t owned registered)
    (source : plan.parameters[position]? = some p) :
    Accounts plan policy m (entries ++ [⟨⟨position, slot, count⟩, p, v, owned, registered⟩]) todo
      ⟨{ t.frame with inputs := t.frame.inputs ++ [⟨position, slot, count⟩] }, t.memory⟩ where
  inputs := by
    rw [takes.inputs, accounts.inputs, List.map_append]
    rfl
  holds := by
    intro e listed
    rcases List.mem_append.1 listed with earlier | new
    · exact accounts.holds_of_grows takes.grows e earlier
    · rw [List.mem_singleton.1 new]
      exact ⟨source, takes.owns, takes.outer, takes.registers⟩
  taken := by
    obtain ⟨cells, addresses, grows⟩ := accounts.taken
    refine ⟨cells, ?_, (grows.trans takes.grows).perm ?_⟩
    · simp only [Frame.cellAddresses, takes.cells, takes.errorCell]
      exact addresses
    · rw [List.flatMap_append, List.flatMap_singleton, List.append_assoc, List.append_assoc]
      exact List.perm_append_comm.append_left _
  registered := by
    rw [List.flatMap_append, List.flatMap_singleton]
    exact accounts.registered.trans takes.gains
  transient := by
    rw [List.flatMap_append, List.flatMap_singleton, takes.callScoped, accounts.transient]
    rfl
  vacant i empty := by
    rw [takes.cells]
    exact accounts.vacant i empty
  errorCell := takes.errorCell.trans accounts.errorCell

theorem Accounts.spares (accounts : Accounts plan policy m entries todo s) (spares : Spares s t) :
    Accounts plan policy m entries todo t :=
  accounts.kept spares.grows spares.frame spares.trampolines

namespace FrameM

theorem lowerCallbackInput_takes {closure destroy : Option Nat}
    (role : p.role = .callback closure destroy) :
    (lowerCallbackInput env p closure destroy v).Gives s
      (fun slot t => ∃ registered, Takes env.policy p v slot none s t .empty registered)
      fun _ t => Spares s t := by
  unfold lowerCallbackInput
  rw [Action.gives_bind, gives_convert]
  refine lowerCallback_gains.mono (fun slot m ⟨heap, kind, added, gains, grew, single⟩ => ?_)
    fun _ m same => ?_
  · rw [Action.gives_bind, gives_modifyFrame, Action.gives_pure]
    have bare : (∃ n, Owns m.heap p.type slot n .empty ∧
        (slot.isNull = false → p.type.Told none n)) ∧ p.type.allocates v = false := by
      rcases kind with ⟨null, nullish⟩ | ⟨name, pointer, type⟩
      · refine ⟨⟨0, owns_empty_of_null null, fun some => ?_⟩, allocates_of_isNullish nullish⟩
        rw [null] at some
        cases some
      · rw [type]
        exact ⟨⟨0, owns_empty_of_bare rfl rfl slot 0, fun _ => trivial⟩, rfl⟩
    refine ⟨added, bare.1, ?_, grew, ?_, gains, rfl, rfl, rfl, ?_⟩
    · rw [bare.2]
      rfl
    · rw [heap]
      exact .refl _
    · have ends : p.endsWithCall env.policy =
          (releaseFor destroy p.scope env.policy == .afterCall) := by
        rw [Parameter.endsWithCall, role]
      rw [ends, single]
      cases slot.isNull <;> cases releaseFor destroy p.scope env.policy == .afterCall <;> simp
  · rw [same]
    exact ⟨rfl, .refl _, rfl⟩

theorem endsWithCall_of_role (other : ∀ closure destroy, p.role ≠ .callback closure destroy) :
    p.endsWithCall policy = false := by
  unfold Parameter.endsWithCall
  split
  · rename_i role
    exact (other _ _ role).elim
  · rfl

theorem lowerArrayInput_takes (other : ∀ closure destroy, p.role ≠ .callback closure destroy)
    (measured : p.type.isMeasuredWithin = true)
    (fits : canConvert env.repository p.type v p.nullable = true) :
    (lowerArrayInput env p v).Gives s
      (fun packed t => ∃ owned registered,
        Takes env.policy p v packed.1 (some packed.2) s t owned registered)
      (fun _ t => Spares s t) fun _ => True := by
  unfold lowerArrayInput
  rw [Action.gives_bind, gives_convert]
  have lowered := ((lowerArray_refunds (m := s.memory) fits).both
    (lowerArray_gives measured s.memory).partly)
  refine lowered.mono (fun packed m ⟨⟨added, gains, grew⟩, owned, owns, grows, outer⟩ => ?_)
    fun _ m ⟨same, grows⟩ => ⟨rfl, grows, same⟩
  have told : ∃ n, Owns m.heap p.type packed.1 n owned ∧
      (packed.1.isNull = false → p.type.Told (some packed.2) n) := by
    refine ⟨packed.2, owns, fun _ => ?_⟩
    cases p.type <;> first | trivial | exact .inl rfl
  have lasting : ∀ l : List Nat, l = l ++ if p.endsWithCall env.policy then added else [] := by
    intro l
    rw [endsWithCall_of_role other, if_neg (by simp), List.append_nil]
  dsimp only
  split
  · rw [Action.gives_bind, gives_modifyFrame, Action.gives_pure]
    exact ⟨owned, added, told, outer, grew, grows, gains, rfl, rfl, rfl, lasting _⟩
  · rw [Action.gives_pure]
    exact ⟨owned, added, told, outer, grew, grows, gains, rfl, rfl, rfl, lasting _⟩

theorem lowerInput_takes (measured : p.type.isMeasuredWithin = true)
    (fits : canConvert env.repository p.type v p.nullable = true) :
    (lowerInput env p v).Gives s
      (fun lowered t => ∃ owned registered,
        Takes env.policy p v lowered.1 lowered.2 s t owned registered)
      (fun _ t => Spares s t) fun _ => True := by
  unfold lowerInput
  split
  · rename_i role
    rw [Action.gives_bind]
    exact (lowerCallbackInput_takes role).partly.mono (fun _ _ takes => ⟨_, takes⟩)
      fun _ _ spares => spares
  · rename_i other
    rw [Action.gives_bind]
    exact lowerArrayInput_takes other measured fits
  · rename_i other plain
    rw [Action.gives_bind, gives_convert]
    have lowered := ((lower_refunds (m := s.memory) fits).both
      (lower_lowers measured p.nullable v s.memory).partly)
    refine lowered.mono (fun slot m ⟨⟨added, gains, grew⟩, n, owned, owns, grows, outer⟩ => ?_)
      fun _ m ⟨same, grows⟩ => ⟨rfl, grows, same⟩
    rw [Action.gives_pure]
    refine ⟨owned, added, ⟨n, owns, fun _ => ?_⟩, outer, grew, grows, gains, rfl, rfl, rfl, ?_⟩
    · cases type : p.type with
      | array element mode form pointer => exact (plain element mode form pointer type).elim
      | _ => trivial
    · rw [endsWithCall_of_role other, if_neg (by simp), List.append_nil]

/-! ### Both passes -/

theorem takeInput_accounts {position : Nat} (found : plan.parameters[position]? = some p)
    (measured : p.type.isMeasuredWithin = true)
    (fits : canConvert env.repository p.type v p.nullable = true) (empty : todo position)
    (accounts : Accounts plan env.policy m entries todo s) :
    (takeInput env p position v).Gives s
      (fun _ t => ∃ e : Entry, e.given = (p, v) ∧
        Accounts plan env.policy m (entries ++ [e]) (fun i => todo i ∧ i ≠ position) t)
      (fun _ t => Accounts plan env.policy m entries todo t) fun _ => True := by
  rw [takeInput, Action.gives_bind]
  refine (lowerInput_takes measured fits).mono (fun lowered t step => ?_)
    fun _ t spares => accounts.spares spares
  obtain ⟨owned, registered, takes⟩ := step
  dsimp only
  rw [Action.gives_bind, gives_modifyFrame]
  let e : Entry := ⟨⟨position, lowered.1, lowered.2⟩, p, v, owned, registered⟩
  exact (setSlot_accounts (accounts.takes takes found) empty).partly.mono
    (fun _ u filled => ⟨e, rfl, filled⟩) fun _ _ never => never.elim

/-- The first pass takes for one input after the other, until it ends or one cannot be lowered. -/
theorem fillVisible_accounts {parameters : List (Parameter × Nat)} {arguments : List Value}
    (inside : ∀ q ∈ parameters, plan.parameters[q.2]? = some q.1)
    (distinct : (parameters.map Prod.snd).Nodup) (empty : ∀ q ∈ parameters, todo q.2)
    (measured : ∀ q ∈ inputsOf parameters, q.type.isMeasuredWithin = true)
    (accepted : firstMismatch env.repository (pairInputs (inputsOf parameters) arguments) = .ok ())
    (accounts : Accounts plan env.policy m entries todo s) :
    (fillVisible env parameters arguments).Gives s
      (fun _ t => ∃ new, new.map Entry.given = pairInputs (inputsOf parameters) arguments ∧
        Accounts plan env.policy m (entries ++ new)
          (fun i => todo i ∧ ∀ q ∈ parameters, q.1.isVisible = true → q.2 ≠ i) t)
      (fun _ t => ∃ new rest,
        new.map Entry.given <+: pairInputs (inputsOf parameters) arguments ∧
          Accounts plan env.policy m (entries ++ new) rest t)
      fun _ => True := by
  induction parameters generalizing arguments s todo entries with
  | nil => exact ⟨[], rfl, by simpa using accounts⟩
  | cons first rest ih =>
    obtain ⟨p, position⟩ := first
    obtain ⟨found, inside'⟩ := List.forall_mem_cons.1 inside
    obtain ⟨fresh, distinct'⟩ := List.nodup_cons.1 distinct
    obtain ⟨here, empty'⟩ := List.forall_mem_cons.1 empty
    have remaining : ∀ q ∈ rest, todo q.2 ∧ q.2 ≠ position := fun q later =>
      ⟨empty' q later, fun same => fresh (List.mem_map.2 ⟨q, later, same⟩)⟩
    have narrowed : p.isVisible = true → ∀ i,
        (todo i ∧ ∀ q ∈ (p, position) :: rest, q.1.isVisible = true → q.2 ≠ i) →
          (todo i ∧ i ≠ position) ∧ ∀ q ∈ rest, q.1.isVisible = true → q.2 ≠ i := by
      rintro visible i ⟨unfilled, others⟩
      obtain ⟨other, others'⟩ := List.forall_mem_cons.1 others
      exact ⟨⟨unfilled, (other visible).symm⟩, others'⟩
    rcases passes p with ⟨hidden, skipped⟩ | ⟨visible, out, skipped⟩ | ⟨visible, given, input⟩
    · rw [inputsOf_skip skipped] at measured accepted ⊢
      rw [fillVisible_hidden hidden]
      refine (ih inside' distinct' empty' measured accepted accounts).mono (fun _ t step => ?_)
        fun _ _ failed => failed
      obtain ⟨new, given, filled⟩ := step
      refine ⟨new, given, filled.narrow fun i vacant => ?_⟩
      exact ⟨vacant.1, fun q later => vacant.2 q (List.mem_cons_of_mem _ later)⟩
    · rw [inputsOf_skip skipped] at measured accepted ⊢
      rw [fillVisible_output visible out, Action.gives_bind]
      refine (setOutput_accounts accounts here).partly.mono (fun _ t filled => ?_)
        fun _ _ never => never.elim
      refine (ih inside' distinct' remaining measured accepted filled).mono (fun _ u step => ?_)
        fun _ _ failed => failed
      obtain ⟨new, given, filled'⟩ := step
      exact ⟨new, given, filled'.narrow (narrowed visible)⟩
    · rw [inputsOf_input input] at measured accepted ⊢
      obtain ⟨bounded, measured'⟩ := List.forall_mem_cons.1 measured
      rw [pairInputs] at accepted ⊢
      obtain ⟨fits, accepted'⟩ := firstMismatch_cons accepted
      rw [fillVisible_input visible given, Action.gives_bind]
      refine (takeInput_accounts found bounded fits here accounts).mono (fun _ t step => ?_)
        fun _ t unchanged => ⟨[], todo, List.nil_prefix, by rwa [List.append_nil]⟩
      obtain ⟨e, origin, filled⟩ := step
      rw [← origin]
      refine (ih inside' distinct' remaining measured' accepted' filled).mono (fun _ u step => ?_)
        fun _ u step => ?_
      · obtain ⟨new, given, filled'⟩ := step
        refine ⟨e :: new, congrArg (e.given :: ·) given, ?_⟩
        rw [List.append_cons]
        exact filled'.narrow (narrowed visible)
      · obtain ⟨new, rest, given, filled'⟩ := step
        refine ⟨e :: new, rest, (List.prefix_cons_inj e.given).2 given, ?_⟩
        rw [List.append_cons]
        exact filled'

theorem allocErrorCell_ledger (accounts : Accounts plan policy m entries todo s) :
    (allocErrorCell plan).Gives s (fun _ t => Ledger plan policy m entries t)
      fun _ _ => False := by
  unfold allocErrorCell
  split
  · rw [Action.gives_bind, gives_touch]
    refine gives_cell.mono (fun cell g ⟨n, _, grows⟩ => ?_) fun _ _ never => never
    rw [gives_modifyFrame]
    refine accounts.cell grows ?_
    simp [Frame.cellAddresses, accounts.errorCell]
  · exact accounts.toLedger

theorem hiddenSlot_spares {position : Nat} :
    (hiddenSlot env position p).Gives s (fun _ t => t = s) (fun _ t => t = s) fun _ => True := by
  unfold hiddenSlot
  rw [Action.gives_bind, gives_frame]
  split
  · rw [gives_convert]
    refine lower_number.mono (fun _ m same => ?_) fun _ m same => ?_
    · rw [same.2]
    · rw [same]
  · rfl

theorem putHidden_accounts {position : Nat} (empty : todo position)
    (accounts : Accounts plan policy m entries todo s) :
    (putHidden env p position).Gives s
      (fun _ t => Accounts plan policy m entries (fun i => todo i ∧ i ≠ position) t)
      (fun _ t => Accounts plan policy m entries todo t) fun _ => True := by
  unfold putHidden
  split
  · exact (setOutput_accounts accounts empty).partly.mono (fun _ _ filled => filled)
      fun _ _ never => never.elim
  · rw [Action.gives_bind]
    refine hiddenSlot_spares.mono (fun slot t same => ?_) fun _ t same => same ▸ accounts
    rw [same]
    exact (setSlot_accounts accounts empty).partly.mono (fun _ _ filled => filled)
      fun _ _ never => never.elim

theorem fillHidden_accounts {parameters : List (Parameter × Nat)}
    (distinct : (parameters.map Prod.snd).Nodup)
    (empty : ∀ q ∈ parameters, q.1.isVisible = false → todo q.2)
    (accounts : Accounts plan policy m entries todo s) :
    (fillHidden env parameters).Gives s
      (fun _ t => ∃ rest, Accounts plan policy m entries rest t)
      (fun _ t => ∃ rest, Accounts plan policy m entries rest t) fun _ => True := by
  induction parameters generalizing s todo with
  | nil => exact ⟨todo, accounts⟩
  | cons first rest ih =>
    obtain ⟨p, position⟩ := first
    obtain ⟨fresh, distinct'⟩ := List.nodup_cons.1 distinct
    obtain ⟨here, empty'⟩ := List.forall_mem_cons.1 empty
    by_cases hidden : p.isVisible = false
    · have remaining : ∀ q ∈ rest, q.1.isVisible = false → todo q.2 ∧ q.2 ≠ position :=
        fun q later skipped => ⟨empty' q later skipped, fun same =>
          fresh (List.mem_map.2 ⟨q, later, same⟩)⟩
      rw [fillHidden_hidden hidden, Action.gives_bind]
      exact (putHidden_accounts (here hidden) accounts).mono
        (fun _ t filled => ih distinct' remaining filled) fun _ t unchanged => ⟨todo, unchanged⟩
    · rw [fillHidden_visible (by simpa using hidden)]
      exact ih distinct' empty' accounts

/-- Filling the slots takes what is accounted for, and each entry is for one of the script arguments
in order. -/
theorem fillBoth_accounts {arguments : List Value}
    (measured : ∀ q ∈ plan.inputs, q.type.isMeasuredWithin = true)
    (accepted : firstMismatch env.repository (pairInputs plan.inputs arguments) = .ok ()) :
    (do fillVisible env plan.parameters.zipIdx arguments
        fillHidden env plan.parameters.zipIdx : FrameM Unit).Gives
      ⟨.start plan.parameters.length, m⟩
      (fun _ t => ∃ entries rest, entries.map Entry.given = pairInputs plan.inputs arguments ∧
        Accounts plan env.policy m entries rest t)
      (fun _ t => ∃ entries rest, entries.map Entry.given <+: pairInputs plan.inputs arguments ∧
        Accounts plan env.policy m entries rest t)
      fun _ => True := by
  have inside := plan.getElem?_position
  have distinct := plan.nodup_positions
  have empty : ∀ q ∈ plan.parameters.zipIdx, q.2 < plan.parameters.length := fun q listed =>
    (List.getElem?_eq_some_iff.1 (inside q listed)).1
  rw [← inputsOf_zipIdx] at measured accepted ⊢
  rw [Action.gives_bind]
  refine (fillVisible_accounts inside distinct empty measured accepted accounts_start).mono
    (fun _ t ⟨entries, given, filled⟩ => ?_)
    fun _ _ ⟨entries, rest, given, filled⟩ => ⟨entries, rest, given, filled⟩
  refine (fillHidden_accounts distinct (fun q listed hidden => ⟨empty q listed, ?_⟩) filled).mono
    (fun _ u ⟨rest, filled'⟩ => ⟨entries, rest, given, filled'⟩)
    fun _ u ⟨rest, filled'⟩ => ⟨entries, rest, given ▸ List.prefix_rfl, filled'⟩
  intro q' listed' visible same
  have found := inside q listed
  rw [← same, inside q' listed', Option.some_inj] at found
  rw [← found, visible] at hidden
  cases hidden

theorem nativeSlots_accounts {receiver : Option Nat} {arguments : List Value}
    (measured : ∀ q ∈ plan.inputs, q.type.isMeasuredWithin = true)
    (accepted : firstMismatch env.repository (pairInputs plan.inputs arguments) = .ok ()) :
    (nativeSlots env plan receiver arguments).Gives ⟨.start plan.parameters.length, m⟩
      (fun _ t => ∃ entries, entries.map Entry.given = pairInputs plan.inputs arguments ∧
        Ledger plan env.policy m entries t)
      (fun _ t => ∃ entries, entries.map Entry.given <+: pairInputs plan.inputs arguments ∧
        Ledger plan env.policy m entries t)
      fun _ => True := by
  have filled := fillBoth_accounts (m := m) measured accepted
  unfold nativeSlots
  rw [Action.gives_bind] at filled ⊢
  refine filled.mono (fun _ t hidden => ?_) fun _ _ failed => ?_
  · rw [Action.gives_bind]
    refine hidden.mono (fun _ u ⟨entries, _, given, accounts⟩ => ?_) fun _ _ failed => ?_
    · rw [Action.gives_bind]
      refine (allocErrorCell_ledger accounts).partly.mono (fun _ _ ledger => ?_)
        fun _ _ never => never.elim
      exact ⟨entries, given, ledger⟩
    · obtain ⟨entries, _, given, accounts⟩ := failed
      exact ⟨entries, given, accounts.toLedger⟩
  · obtain ⟨entries, _, given, accounts⟩ := failed
    exact ⟨entries, given, accounts.toLedger⟩

end FrameM

end ForeignCall
