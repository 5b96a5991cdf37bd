import ForeignCall.Proofs.Call.Outputs
import ForeignCall.Proofs.Call.Refund

/-!
What a call leaves of a native state in which a native function returned.

The blocks that were made for the call are told from all others: from those of the outputs, and from
what the trampolines keep that end with the call. So the release at the end frees exactly these, whatever
the call did with its outputs before.
-/

set_option autoImplicit false

namespace ForeignCall

/-- What was made between two heaps is still there in a third one, and only at the given addresses
blocks of it may have changed. -/
structure Heap.Intact (before made after : Heap) (cells : List Nat) : Prop where
  live : ∀ b, made.Live b → ¬ before.Live b → after.Live b
  bytes : ∀ b, made.Live b → ¬ before.Live b → b.address ∉ cells →
    ∀ x, b.address ≤ x → x < b.stop → after.byteAt x = made.byteAt x

/-- What a native function leaves for a call to unwind: the call's own blocks, its outputs, what the
trampolines that end with the call owe, and `rest`. Only the struct blocks of the caller that are
outputs are blocks of the call. -/
structure Unwindable (plan : Plan) (m₀ m v : Memory) (f : Frame) (ret : Slot) (outs : List Output)
    (owed : Nat → List Block) (rest : List Block) : Prop where
  intact : m₀.heap.Intact m.heap v.heap f.cellAddresses
  delivers : Scratch.Delivers ⟨f, v⟩ plan ret outs
  owes : ∀ a ∈ f.callScoped, v.Owes a (owed a)
  keeps : v.heap.Keeps (rest ++ (outs.flatMap Output.handed ++ f.callScoped.flatMap owed))
  apart : ∀ b ∈ rest ++ (outs.flatMap Output.handed ++ f.callScoped.flatMap owed),
    b ∉ outs.flatMap Output.lent → m.heap.Live b → m₀.heap.Live b

theorem Heap.eq_of_addresses {h : Heap} {blocks more : List Block} (live : ∀ b ∈ blocks, h.Live b)
    (live' : ∀ b ∈ more, h.Live b) (same : blocks.map Block.address = more.map Block.address) :
    blocks = more := by
  induction blocks generalizing more with
  | nil => exact (List.map_eq_nil_iff.1 same.symm).symm
  | cons b blocks ih =>
    obtain ⟨c, more, rfl, here, later⟩ := List.map_eq_cons_iff.1 same.symm
    obtain ⟨first, rest⟩ := List.forall_mem_cons.1 live
    obtain ⟨first', rest'⟩ := List.forall_mem_cons.1 live'
    rw [first.eq_of_address first' here.symm, ih rest rest' later.symm]

namespace FrameM

variable {plan : Plan} {policy : UnscopedPolicy} {m₀ m v : Memory} {f : Frame} {ret : Slot}
  {outs : List Output} {owed : Nat → List Block} {rest front : List Block} {entries : List Entry}
  {b : Block}

section Taken

variable (grows : m₀.heap.Grows m.heap
  (entries.flatMap (·.owned.all) ++ (front ++ outs.flatMap Output.lent)))

include grows

theorem nodup_taken :
    (entries.flatMap Entry.kept ++ (entries.flatMap Entry.handed ++ front)).Nodup := by
  have parts := flatMap_split Entry.kept_handed entries
  have distinct := (parts.append_right _).nodup_iff.1 grows.nodup
  rw [← List.append_assoc] at distinct
  have all := (List.nodup_append.1 distinct).1
  rwa [List.append_assoc] at all

/-- A block that was not lent is none of the call's own if it was there before the call or was given
to the function. -/
theorem not_taken_iff (unlent : b ∉ outs.flatMap Output.lent) :
    b ∉ entries.flatMap Entry.kept ∧ b ∉ front ↔
      (m.heap.Live b → m₀.heap.Live b ∨ b ∈ entries.flatMap Entry.handed) := by
  have parts := (flatMap_split Entry.kept_handed entries).mem_iff (a := b)
  have distinct := nodup_taken grows
  have taken := grows.live_iff b
  have fresh (own : b ∈ entries.flatMap (·.owned.all) ++ front) : ¬ m₀.heap.Live b :=
    grows.not_live (by
      rw [← List.append_assoc]
      exact List.mem_append_left _ own)
  simp only [List.mem_append, unlent, or_false, parts] at taken fresh
  constructor
  · rintro ⟨kept, free⟩ made
    rw [taken] at made
    tauto
  · intro made
    rw [taken] at made
    refine ⟨fun kept => ?_, fun own => ?_⟩
    · refine (made (.inr (.inl (.inl kept)))).elim (fresh (.inl (.inl kept))) fun handed => ?_
      exact List.disjoint_of_nodup_append distinct kept (List.mem_append_left _ handed)
    · refine (made (.inr (.inr own))).elim (fresh (.inr own)) fun handed => ?_
      exact List.disjoint_of_nodup_append (List.nodup_append.1 distinct).2.1 handed own

variable (left : Unwindable plan m₀ m v f ret outs owed rest)

include left

/-- The blocks that were taken for the call are still there, and nobody else answers for them. -/
theorem taken_apart (own : b ∈ entries.flatMap (·.owned.all) ++ front) :
    v.heap.Live b ∧ b ∉ rest ++ (outs.flatMap Output.handed ++ f.callScoped.flatMap owed) := by
  have distinct := grows.nodup
  rw [← List.append_assoc] at grows distinct
  have new : b ∈ (entries.flatMap (·.owned.all) ++ front) ++ outs.flatMap Output.lent :=
    List.mem_append_left _ own
  have made := grows.live new
  have unknown := grows.not_live new
  refine ⟨left.intact.live b made unknown, fun other => unknown (left.apart b other ?_ made)⟩
  exact fun lent => List.disjoint_of_nodup_append distinct own lent

theorem keeps_unwound : v.heap.Keeps ((rest ++ outs.flatMap Output.handed) ++
    (entries.flatMap Entry.kept ++ (front ++ f.callScoped.flatMap owed))) := by
  have parts := flatMap_split Entry.kept_handed entries
  have apart {b : Block} (listed : b ∈ entries.flatMap Entry.kept ++ front) :=
    taken_apart (b := b) grows left ((List.mem_append.1 listed).elim
      (fun kept => List.mem_append_left _ (parts.mem_iff.2 (List.mem_append_left _ kept)))
      (List.mem_append_right _))
  have distinct : (entries.flatMap Entry.kept ++ front).Nodup :=
    (nodup_taken grows).sublist ((List.sublist_append_right _ _).append_left _)
  have keeps := left.keeps.append ⟨fun b listed => (apart listed).1, distinct⟩
    fun b listed => (apart listed).2
  refine keeps.perm ?_
  simp only [List.append_assoc]
  refine (List.Perm.append_left _ ?_).append_left _
  rw [← List.append_assoc (entries.flatMap Entry.kept)]
  exact List.perm_append_comm

end Taken

section

variable (ledger : Ledger plan policy m₀ entries ⟨f, m⟩)
  (left : Unwindable plan m₀ m v f ret outs owed rest)

include ledger left

/-- The blocks of the call: those of its inputs, the cells that it frees, and those that were lent. -/
theorem exists_front {u : Scratch}
    (hands : Scratch.Hands ⟨f, v⟩ u (outs.flatMap Output.lent)) :
    ∃ front : List Block, u.frame.cellAddresses.Perm (front.map Block.address) ∧
      m₀.heap.Grows m.heap
        (entries.flatMap (·.owned.all) ++ (front ++ outs.flatMap Output.lent)) := by
  obtain ⟨cells, addresses, grows⟩ := ledger.taken
  obtain ⟨whole, located, same⟩ := exists_located (hands.addresses.symm.trans addresses)
  obtain ⟨front, back, rfl, inFront, behind⟩ := List.map_eq_append_iff.1 located.symm
  have lent : back = outs.flatMap Output.lent := by
    refine Heap.eq_of_addresses (h := v.heap) (fun b listed => ?_) (fun b listed => ?_) behind
    · have own : b ∈ entries.flatMap (·.owned.all) ++ cells :=
        List.mem_append_right _ (same.subset (List.mem_append_right _ listed))
      exact left.intact.live b (grows.live own) (grows.not_live own)
    · obtain ⟨o, member, lent⟩ := List.mem_flatMap.1 listed
      exact left.delivers.keeps.1 b (List.mem_flatMap.2 ⟨o, member, o.lent_sublist.subset lent⟩)
  subst lent
  exact ⟨front, inFront ▸ .refl _, grows.perm (same.symm.append_left _)⟩

theorem holds_later : ∀ e ∈ entries, e.Holds plan v.heap := by
  intro e listed
  obtain ⟨cells, addresses, grows⟩ := ledger.taken
  have owned {b : Block} (own : b ∈ e.owned.all) : b ∈ entries.flatMap (·.owned.all) :=
    List.mem_flatMap.2 ⟨e, listed, own⟩
  have made {b : Block} (own : b ∈ e.owned.all) : m.heap.Live b ∧ ¬ m₀.heap.Live b :=
    have new := List.mem_append_left cells (owned own)
    ⟨grows.live new, grows.not_live new⟩
  refine (ledger.holds e listed).agree ⟨fun b own _ => ?_, fun b own x above below _ => ?_⟩
  · exact (left.intact.live b (made own).1 (made own).2).inside.2.2
  · refine left.intact.bytes b (made own).1 (made own).2 (fun cell => ?_) x above below
    obtain ⟨c, inCells, same⟩ := List.mem_map.1 (addresses.subset cell)
    have equal := (grows.live (List.mem_append_right _ inCells)).eq_of_address (made own).1 same
    exact List.disjoint_of_nodup_append grows.nodup (owned own) (equal ▸ inCells)

/-- The release at the end frees what was made for the call and not handed to the function, and what the
trampolines owe. It frees nothing of the outputs and nothing that is new. -/
theorem releaseAll_sheds {u : Scratch} (hands : Scratch.Hands ⟨f, v⟩ u (outs.flatMap Output.lent))
    (there : ∀ b, v.heap.Live b → b ∉ rest ++ outs.flatMap Output.handed → u.memory.heap.Live b)
    (halted : Halt → Prop) :
    ∃ freed, (∀ b ∈ freed, v.heap.Live b ∧ b ∉ rest ++ outs.flatMap Output.handed) ∧
      (∀ b ∉ outs.flatMap Output.handed, b ∉ freed ↔
        (m.heap.Live b → m₀.heap.Live b ∨ b ∈ entries.flatMap Entry.handed) ∧
          b ∉ f.callScoped.flatMap owed) ∧
      (releaseAll plan).Gives u (fun _ t => u.memory.heap.Sheds t.memory.heap freed)
        (fun _ _ => False) halted := by
  obtain ⟨front, addresses, grows⟩ := exists_front ledger left hands
  have keeps := keeps_unwound grows left
  have transient : u.frame.callScoped = f.callScoped := hands.callScoped
  have freed : ∀ b ∈ entries.flatMap Entry.kept ++ (front ++ f.callScoped.flatMap owed),
      v.heap.Live b ∧ b ∉ rest ++ outs.flatMap Output.handed := fun b listed =>
    ⟨keeps.1 b (List.mem_append_right _ listed), fun other =>
      List.disjoint_of_nodup_append keeps.2 other listed⟩
  refine ⟨_, freed, fun b other => ?_, ?_⟩
  · have unlent : b ∉ outs.flatMap Output.lent := fun lent => other (by
      obtain ⟨o, listed, inside⟩ := List.mem_flatMap.1 lent
      exact List.mem_flatMap.2 ⟨o, listed, o.lent_sublist.subset inside⟩)
    rw [← not_taken_iff grows unlent]
    simp only [List.mem_append, not_or, and_assoc]
  · have still : u.memory.heap.Keeps
        (entries.flatMap Entry.kept ++ (front ++ u.frame.callScoped.flatMap owed)) := by
      rw [transient]
      refine ⟨fun b listed => there b (freed b listed).1 (freed b listed).2, ?_⟩
      exact (List.nodup_append.1 keeps.2).2.1
    rw [← transient]
    refine (releaseAll_drops (hands.inputs.trans ledger.inputs) ?_ addresses ?_ ?_ still).mono
      (fun _ t drops => drops.sheds) fun _ _ never => never
    · exact fun e listed => (holds_later ledger left e listed).prolongs hands.prolongs
    · have parts := flatMap_split (fun e => .of_eq (Entry.transient_lasting e policy)) entries
      have distinct := parts.nodup_iff.1 ledger.registered.nodup
      rw [transient, ledger.transient]
      exact (List.nodup_append.1 distinct).1
    · rw [transient]
      exact fun a listed => (left.owes a listed).prolongs (by rw [hands.trampolines]) hands.prolongs

end

end FrameM

end ForeignCall
