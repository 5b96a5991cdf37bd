import ForeignCall.Call.Outputs
import ForeignCall.Proofs.Call.Ledger
import ForeignCall.Proofs.Ownership.Partition

/-!
What a call gives back at its end.

All steps of the release succeed on a frame whose entries are accounted for. What stays is what was
handed over: of each input the part that its transfer gives to the callee, and the trampolines that do
not end with the call.
-/

set_option autoImplicit false

namespace ForeignCall

namespace Entry

/-- The blocks that the transfer gives to the callee. -/
def handed (e : Entry) : List Block := e.owned.held (.of e.parameter.transfer .output)

/-- The blocks that stay with the caller. -/
def kept (e : Entry) : List Block := e.owned.held (.of e.parameter.transfer .input)

def lasting (e : Entry) (policy : UnscopedPolicy) : List Nat :=
  if e.parameter.endsWithCall policy then [] else e.registered

theorem kept_handed (e : Entry) : (e.kept ++ e.handed).Perm e.owned.all :=
  held_perm_all e.owned e.parameter.transfer

theorem transient_lasting (e : Entry) (policy : UnscopedPolicy) :
    e.transient policy ++ e.lasting policy = e.registered := by
  unfold transient lasting
  split
  · rw [List.append_nil]
  · rw [List.nil_append]

end Entry

theorem flatMap_split {α β : Type} {whole left right : α → List β}
    (parts : ∀ a, (left a ++ right a).Perm (whole a)) (l : List α) :
    (l.flatMap whole).Perm (l.flatMap left ++ l.flatMap right) :=
  (List.Perm.flatMap_left l fun a _ => (parts a).symm).trans
    (List.flatMap_append_perm l left right).symm

variable {plan : Plan} {policy : UnscopedPolicy} {m : Memory} {entries : List Entry}
  {s : Scratch} {halted : Halt → Prop}

theorem Entry.Holds.agree {e : Entry} {h g : Heap} (holds : e.Holds plan h)
    (same : h.Agrees g e.owned.all) : e.Holds plan g := by
  obtain ⟨count, owned, told⟩ := holds.owns
  exact { holds with owns := ⟨count, owned.agree same, told⟩ }

theorem Entry.Holds.prolongs {e : Entry} {h g : Heap} (holds : e.Holds plan h)
    (prolongs : h.Prolongs g) : e.Holds plan g := holds.agree (prolongs.agrees _)

theorem Entry.Holds.frees_held {e : Entry} {h : Heap} {own : Holding} (holds : e.Holds plan h)
    (plain : own.references = true → e.parameter.type.isReferenceFree = true)
    (keeps : h.Keeps (e.owned.held own)) :
    Heap.Frees (release e.parameter.type e.input.slot own e.input.count) h (e.owned.held own) := by
  obtain ⟨count, owned, told⟩ := holds.owns
  cases null : e.input.slot.isNull with
  | true => exact release_null_owned null owned
  | false => exact release_owned owned (told null) plain keeps

theorem Entry.Holds.frees {e : Entry} {h : Heap} (holds : e.Holds plan h) (keeps : h.Keeps e.kept) :
    Heap.Frees (freeValue e.parameter.type e.input.slot e.parameter.transfer .input e.input.count) h
      e.kept := by
  refine holds.frees_held (fun references => ?_) keeps
  cases transfer : e.parameter.transfer <;> rw [transfer] at references <;> cases references

/-! ### What trampolines keep -/

/-- The blocks that a trampoline frees when it is released: its results that stay with the caller. -/
def Trampoline.Owes (t : Trampoline) (h : Heap) (blocks : List Block) : Prop :=
  ∃ parts, List.Forall₂ (OwnsItem h t.plan.returnType) t.retained parts ∧
    blocks = parts.flatMap (·.held (.of t.plan.returnTransfer .input))

theorem Trampoline.Owes.prolongs {t : Trampoline} {h g : Heap} {blocks : List Block}
    (owes : t.Owes h blocks) (prolongs : h.Prolongs g) : t.Owes g blocks := by
  obtain ⟨parts, owned, rfl⟩ := owes
  exact ⟨parts, owned.imp fun _ _ item => item.prolongs prolongs, rfl⟩

theorem Trampoline.owes_nothing {t : Trampoline} (unused : t.retained = []) (h : Heap) :
    t.Owes h [] := ⟨[], by rw [unused]; exact .nil, rfl⟩

theorem frees_freeRetained {plan : Plan} {slots : List Slot} {parts : List Footprint} {h : Heap}
    (owned : List.Forall₂ (OwnsItem h plan.returnType) slots parts)
    (keeps : h.Keeps (parts.flatMap (·.held (.of plan.returnTransfer .input)))) :
    Heap.Frees (freeRetained plan slots) h
      (parts.flatMap (·.held (.of plan.returnTransfer .input))) := by
  have plain : (Holding.of plan.returnTransfer .input).references = false := by
    cases plan.returnTransfer <;> rfl
  have self : plan.returnType.seen (Holding.of plan.returnTransfer .input).references =
      plan.returnType := by
    rw [plain]
    rfl
  induction slots generalizing h parts with
  | nil =>
    cases owned
    exact Heap.frees_pure h
  | cons slot rest ih =>
    obtain ⟨f, parts, ⟨n, owns, ended⟩, later, rfl⟩ := List.forall₂_cons_left_iff.1 owned
    refine Heap.Frees.bind ?_ fun g sheds => ?_
    · exact release_seen (by rwa [self]) (by rw [self]; exact fun _ => ended.counted) keeps.left
    · exact ih (later.imp fun _ _ item => item.of_sheds sheds) (keeps.right sheds)

def Memory.Owes (m : Memory) (a : Nat) (blocks : List Block) : Prop :=
  match m.trampolines.get? a with
  | none => blocks = []
  | some t => t.Owes m.heap blocks

theorem Memory.Owes.prolongs {m t : Memory} {a : Nat} {owed : List Block} (owes : m.Owes a owed)
    (same : t.trampolines.get? a = m.trampolines.get? a) (prolongs : m.heap.Prolongs t.heap) :
    t.Owes a owed := by
  rw [Memory.Owes, same]
  rw [Memory.Owes] at owes
  split at owes
  · exact owes
  · exact owes.prolongs prolongs

/-- `t` came from `s` by freeing exactly these blocks and releasing the trampolines at exactly these
addresses. -/
structure Scratch.Drops (s t : Scratch) (blocks : List Block) (addresses : List Nat) : Prop where
  frame : t.frame = s.frame
  sheds : s.memory.heap.Sheds t.memory.heap blocks
  next : t.memory.trampolines.next = s.memory.trampolines.next
  gone : ∀ a, t.memory.trampolines.get? a =
    if a ∈ addresses then none else s.memory.trampolines.get? a

namespace Scratch.Drops

variable {t u : Scratch} {blocks more : List Block} {addresses later : List Nat}

theorem refl (s : Scratch) : s.Drops s [] [] := ⟨rfl, .refl _, rfl, fun _ => rfl⟩

theorem of_heap {h : Heap} (sheds : s.memory.heap.Sheds h blocks) :
    s.Drops { s with memory := { s.memory with heap := h } } blocks [] :=
  ⟨rfl, sheds, rfl, fun _ => rfl⟩

theorem trans (first : s.Drops t blocks addresses) (second : t.Drops u more later) :
    s.Drops u (blocks ++ more) (addresses ++ later) where
  frame := second.frame.trans first.frame
  sheds := first.sheds.trans second.sheds
  next := second.next.trans first.next
  gone a := by
    rw [second.gone, first.gone]
    by_cases early : a ∈ addresses <;> by_cases late : a ∈ later <;> simp [early, late]

theorem perm (drops : s.Drops t blocks addresses) (same : blocks.Perm more) :
    s.Drops t more addresses := { drops with sheds := drops.sheds.perm same }

theorem owes {a : Nat} (drops : s.Drops t blocks addresses) (other : a ∉ addresses)
    {owed : List Block} (owes : s.memory.Owes a owed) : t.memory.Owes a owed :=
  owes.prolongs (by rw [drops.gone, if_neg other]) drops.sheds.prolongs

end Scratch.Drops

namespace FrameM

/-- Every step of a kind drops its share, so that together they drop all shares. -/
theorem tryAll_drops {α : Type} {step : α → FrameM Unit} {first : Except CallError Unit}
    (blocks : α → List Block) (addresses : α → List Nat) {todo : List α}
    (each : ∀ before a after, todo = before ++ a :: after →
      ∀ t, s.Drops t (before.flatMap blocks) (before.flatMap addresses) →
        t.memory.heap.Keeps (blocks a) →
        (step a).Gives t (fun _ u => t.Drops u (blocks a) (addresses a)) (fun _ _ => False) halted)
    (keeps : s.memory.heap.Keeps (todo.flatMap blocks)) :
    (tryAll first (todo.map step)).Gives s
      (fun r t => r = first ∧ s.Drops t (todo.flatMap blocks) (todo.flatMap addresses))
      (fun _ _ => False) halted := by
  have rest (before after : List α) (split : todo = before ++ after) (t : Scratch)
      (dropped : s.Drops t (before.flatMap blocks) (before.flatMap addresses))
      (kept : t.memory.heap.Keeps (after.flatMap blocks)) :
      (tryAll first (after.map step)).Gives t
        (fun r u => r = first ∧ s.Drops u (todo.flatMap blocks) (todo.flatMap addresses))
        (fun _ _ => False) halted := by
    induction after generalizing before t with
    | nil =>
      rw [List.append_nil] at split
      subst split
      exact ⟨rfl, dropped⟩
    | cons a after ih =>
      rw [List.map_cons, tryAll, Action.gives_bind, keepFirst, Action.gives_bind,
        Action.gives_attempt]
      refine (each before a after split t dropped kept.left).mono (fun _ u step => ?_)
        fun _ _ never => never.elim
      have later := ih (before ++ [a]) (by simp [split]) u
        (by simpa [List.flatMap_append] using dropped.trans step) (kept.right step.sheds)
      rw [Action.gives_pure]
      cases first <;> exact later
  exact rest [] todo rfl s (.refl s) keeps

theorem releaseInput_drops {e : Entry} (holds : e.Holds plan s.memory.heap)
    (keeps : s.memory.heap.Keeps e.kept) :
    (releaseInput plan e.input).Gives s (fun _ t => s.Drops t e.kept []) (fun _ _ => False)
      halted := by
  obtain ⟨g, run, sheds⟩ := holds.frees keeps
  rw [releaseInput, holds.source]
  dsimp only
  rw [gives_convert, Action.gives_onHeap]
  exact Action.gives_of_ok run (.of_heap sheds)

theorem freeCell_drops {b : Block} {address : Nat} (start : b.address = address)
    (keeps : s.memory.heap.Keeps [b]) :
    (touch (Heap.free address)).Gives s (fun _ t => s.Drops t [b] []) (fun _ _ => False) halted := by
  obtain ⟨g, run, sheds⟩ := Heap.free_eq (keeps.1 b (List.mem_singleton_self b))
  rw [start] at run
  rw [gives_touch]
  exact Action.gives_of_ok run (.of_heap sheds)

theorem releaseScoped_drops {a : Nat} {owed : List Block} (owes : s.memory.Owes a owed)
    (keeps : s.memory.heap.Keeps owed) :
    (do let _ ← convert (releaseTrampoline a) : FrameM Unit).Gives s
      (fun _ t => s.Drops t owed [a]) (fun _ _ => False) halted := by
  rw [Action.gives_bind, gives_convert, releaseTrampoline, Action.gives_bind, Action.gives_get]
  cases found : s.memory.trampolines.get? a with
  | none =>
    rw [Memory.Owes, found] at owes
    subst owes
    refine ⟨rfl, .refl _, rfl, fun b => ?_⟩
    by_cases here : b = a <;> simp [here, found]
  | some trampoline =>
    rw [Memory.Owes, found] at owes
    obtain ⟨parts, owned, rfl⟩ := owes
    obtain ⟨g, run, sheds⟩ := frees_freeRetained owned keeps
    dsimp only
    rw [Action.gives_bind, Action.gives_modify, Action.gives_bind, Action.gives_onHeap]
    refine Action.gives_of_ok run ⟨rfl, sheds, rfl, fun b => ?_⟩
    simp only [List.mem_singleton]
    exact TrampolineTable.get?_remove

/-! ### All of a kind -/

/-- Blocks that are listed by their addresses, in any order. -/
theorem exists_located {addresses : List Nat} {blocks : List Block}
    (listed : addresses.Perm (blocks.map Block.address)) :
    ∃ located : List Block, addresses = located.map Block.address ∧ located.Perm blocks := by
  have comp := List.eq_map_comp_perm Block.address
  exact (congrFun (congrFun comp addresses) blocks).mpr listed

variable {first : Except CallError Unit}

theorem freeCells_drops {α : Type} {address : α → Nat} {cells : List α} {blocks : List Block}
    (located : blocks.map Block.address = cells.map address) (keeps : s.memory.heap.Keeps blocks) :
    (tryAll first (cells.map fun c => touch (Heap.free (address c)))).Gives s
      (fun r t => r = first ∧ s.Drops t blocks []) (fun _ _ => False) halted := by
  have steps := congrArg (List.map fun a => touch (Heap.free a)) located
  rw [List.map_map, List.map_map] at steps
  have single : blocks.flatMap (fun b => [b]) = blocks := by simp
  have nothing : blocks.flatMap (fun _ => ([] : List Nat)) = [] := by simp
  rw [← single] at keeps
  have drops : (tryAll first (blocks.map fun b => touch (Heap.free b.address))).Gives s
      (fun r t => r = first ∧ s.Drops t (blocks.flatMap fun b => [b]) (blocks.flatMap fun _ => []))
      (fun _ _ => False) halted :=
    tryAll_drops _ _ (fun _ b _ _ _ _ kept => freeCell_drops rfl kept) keeps
  rw [single, nothing] at drops
  exact steps ▸ drops

/-- The release frees and releases exactly what it knows of. -/
theorem releaseAll_drops {cells : List Block} {owed : Nat → List Block}
    (inputs : s.frame.inputs = entries.map Entry.input)
    (holds : ∀ e ∈ entries, e.Holds plan s.memory.heap)
    (addresses : s.frame.cellAddresses.Perm (cells.map Block.address))
    (distinct : s.frame.callScoped.Nodup)
    (owes : ∀ a ∈ s.frame.callScoped, s.memory.Owes a (owed a))
    (keeps : s.memory.heap.Keeps
      (entries.flatMap Entry.kept ++ (cells ++ s.frame.callScoped.flatMap owed))) :
    (releaseAll plan).Gives s
      (fun _ t => s.Drops t
        (entries.flatMap Entry.kept ++ (cells ++ s.frame.callScoped.flatMap owed))
        s.frame.callScoped)
      (fun _ _ => False) halted := by
  obtain ⟨blocks, located, same⟩ := exists_located addresses
  have order := (same.append_right (s.frame.callScoped.flatMap owed)).append_left
    (entries.flatMap Entry.kept)
  have keeps := keeps.perm order.symm
  obtain ⟨front, back, rfl, inFront, behind⟩ := List.map_eq_append_iff.1 located.symm
  rw [← List.map_id' s.frame.errorCell.toList] at behind
  rw [List.append_assoc] at keeps
  rw [releaseAll, Action.gives_bind, gives_frame, inputs, List.map_map, Action.gives_bind]
  refine (tryAll_drops Entry.kept (fun _ => []) (fun before e after split t dropped kept => ?_)
    keeps.left).mono ?_ fun _ _ never => never.elim
  · have listed : e ∈ entries := split ▸ List.mem_append_right _ List.mem_cons_self
    exact releaseInput_drops ((holds e listed).prolongs dropped.sheds.prolongs) kept
  rintro _ t₁ ⟨rfl, drops₁⟩
  have keeps := keeps.right drops₁.sheds
  rw [Action.gives_bind]
  refine (freeCells_drops inFront keeps.left).mono ?_ fun _ _ never => never.elim
  rintro _ t₂ ⟨rfl, drops₂⟩
  have keeps := keeps.right drops₂.sheds
  rw [Action.gives_bind]
  refine (freeCells_drops behind keeps.left).mono ?_ fun _ _ never => never.elim
  rintro _ t₃ ⟨rfl, drops₃⟩
  have keeps := keeps.right drops₃.sheds
  have drops := (drops₁.trans drops₂).trans drops₃
  rw [Action.gives_bind]
  refine (tryAll_drops owed (fun a => [a]) (fun before a after split t dropped kept => ?_)
    keeps).mono ?_ fun _ _ never => never.elim
  · have listed : a ∈ s.frame.callScoped := split ▸ List.mem_append_right _ List.mem_cons_self
    have fresh : a ∉ before := by
      rw [split] at distinct
      exact fun early => List.disjoint_of_nodup_append distinct early List.mem_cons_self
    refine releaseScoped_drops ((drops.trans dropped).owes ?_ (owes a listed)) kept
    simpa using fresh
  rintro _ t₄ ⟨rfl, drops₄⟩
  rw [Action.gives_ofExcept]
  refine Scratch.Drops.perm ?_ order
  have nothing : entries.flatMap (fun _ => ([] : List Nat)) = [] := by simp
  simpa [nothing] using drops.trans drops₄

/-- The release frees what it knows of and leaves the rest. -/
theorem releaseAll_leaves {cells rest : List Block} {lasting : List Nat}
    (inputs : s.frame.inputs = entries.map Entry.input)
    (holds : ∀ e ∈ entries, e.Holds plan s.memory.heap)
    (addresses : s.frame.cellAddresses.Perm (cells.map Block.address))
    (taken : m.heap.Grows s.memory.heap (entries.flatMap Entry.kept ++ (cells ++ rest)))
    (gains : m.trampolines.Gains s.memory.trampolines (s.frame.callScoped ++ lasting)) :
    (releaseAll plan).Gives s
      (fun _ t => m.heap.Grows t.memory.heap rest ∧ m.trampolines.Gains t.memory.trampolines lasting)
      (fun _ _ => False) halted := by
  have owes : ∀ a ∈ s.frame.callScoped, s.memory.Owes a [] := by
    intro a listed
    obtain ⟨trampoline, found, unused⟩ := gains.new a (List.mem_append_left _ listed)
    rw [Memory.Owes, found]
    exact trampoline.owes_nothing unused _
  have nothing : s.frame.callScoped.flatMap (fun _ => ([] : List Block)) = [] := by simp
  rw [← List.append_assoc] at taken
  refine (releaseAll_drops inputs holds addresses (List.nodup_append.1 gains.nodup).1 owes ?_).mono ?_
    fun _ _ never => never
  · rw [nothing, List.append_nil]
    exact taken.keeps.left
  · intro _ t drops
    rw [nothing, List.append_nil] at drops
    exact ⟨taken.sheds drops.sheds, gains.without drops.next drops.gone⟩

/-- Nothing but what was handed over is left of what is accounted for. -/
theorem releaseAll_gives (ledger : Ledger plan policy m entries s) :
    (releaseAll plan).Gives s
      (fun _ t => m.heap.Grows t.memory.heap (entries.flatMap Entry.handed) ∧
        m.trampolines.Gains t.memory.trampolines (entries.flatMap (·.lasting policy)))
      (fun _ _ => False) halted := by
  obtain ⟨cells, addresses, grows⟩ := ledger.taken
  refine releaseAll_leaves ledger.inputs ledger.holds addresses (grows.perm ?_) ?_
  · have split := flatMap_split Entry.kept_handed entries
    apply (split.append_right cells).trans
    rw [List.append_assoc]
    exact List.perm_append_comm.append_left _
  · rw [ledger.transient]
    exact ledger.registered.perm
      (flatMap_split (fun e => .of_eq (e.transient_lasting policy)) entries)

end FrameM

end ForeignCall
