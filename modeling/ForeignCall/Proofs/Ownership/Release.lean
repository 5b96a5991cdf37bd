import ForeignCall.Proofs.Conversion.Scanning
import ForeignCall.Proofs.Ownership.Footprint

/-!
Releasing a value frees exactly the part of its footprint that is held.

Nothing is asked of the blocks that are not held: they may be gone already, since a walk reads bytes
only. So the passes of both sides can run in either order.
-/

set_option autoImplicit false

namespace ForeignCall

namespace Heap

variable {h g : Heap} {blocks more : List Block} {x y : LayoutM Unit}

/-- Each of the blocks is live, and none is listed twice. -/
def Keeps (h : Heap) (blocks : List Block) : Prop := (∀ b ∈ blocks, h.Live b) ∧ blocks.Nodup

theorem Keeps.sublist (keeps : h.Keeps blocks) (part : more.Sublist blocks) : h.Keeps more :=
  ⟨fun b listed => keeps.1 b (part.subset listed), keeps.2.sublist part⟩

theorem Keeps.left (keeps : h.Keeps (blocks ++ more)) : h.Keeps blocks :=
  keeps.sublist (List.sublist_append_left _ _)

theorem Keeps.right (keeps : h.Keeps (blocks ++ more)) (sheds : h.Sheds g blocks) :
    g.Keeps more := by
  refine ⟨fun b listed => ?_, (List.nodup_append.1 keeps.2).2.1⟩
  apply sheds.keeps_live (keeps.1 b (List.mem_append_right _ listed))
  intro gone
  exact List.disjoint_of_nodup_append keeps.2 gone listed

theorem Keeps.perm (keeps : h.Keeps blocks) (same : blocks.Perm more) : h.Keeps more :=
  ⟨fun b listed => keeps.1 b (same.mem_iff.2 listed), same.nodup_iff.1 keeps.2⟩

theorem Keeps.append (keeps : h.Keeps blocks) (keeps' : h.Keeps more)
    (apart : ∀ b ∈ more, b ∉ blocks) : h.Keeps (blocks ++ more) :=
  ⟨fun b listed => (List.mem_append.1 listed).elim (keeps.1 b) (keeps'.1 b),
    keeps.2.append keeps'.2 fun _ early late => apart _ late early⟩

theorem Grows.keeps (grows : h.Grows g blocks) : g.Keeps blocks :=
  ⟨fun _ => grows.live, grows.nodup⟩

/-- The action succeeds and frees exactly these blocks. -/
def Frees (x : LayoutM Unit) (h : Heap) (blocks : List Block) : Prop :=
  ∃ g, x h = .ok () g ∧ h.Sheds g blocks

theorem frees_pure (h : Heap) : Frees (pure ()) h [] := ⟨h, rfl, .refl h⟩

theorem Frees.bind (first : Frees x h blocks) (second : ∀ g, h.Sheds g blocks → Frees y g more) :
    Frees (x >>= fun _ => y) h (blocks ++ more) := by
  obtain ⟨g, run, sheds⟩ := first
  obtain ⟨k, run', sheds'⟩ := second g sheds
  exact ⟨k, by rw [Action.bind_of_ok run, run'], sheds.trans sheds'⟩

theorem Frees.after_read {α : Type} {a : α} {z : LayoutM α} {f : α → LayoutM Unit}
    (run : z h = .ok a h) (rest : Frees (f a) h blocks) : Frees (z >>= f) h blocks := by
  obtain ⟨g, run', sheds⟩ := rest
  exact ⟨g, by rw [Action.bind_of_ok run, run'], sheds⟩

theorem Frees.attempt {ε : Type} (frees : Frees x h blocks) :
    ∃ g, (do let _ : Except ConversionFault Unit ← Action.attempt x : Action ε Heap Unit) h =
      .ok () g ∧ h.Sheds g blocks := by
  obtain ⟨g, run, sheds⟩ := frees
  exact ⟨g, Action.bind_of_ok (Action.attempt_of_ok run), sheds⟩

theorem Frees.perm (frees : Frees x h blocks) (same : blocks.Perm more) : Frees x h more := by
  obtain ⟨g, run, sheds⟩ := frees
  exact ⟨g, run, sheds.perm same⟩

theorem frees_free {b : Block} {address : Nat} (live : h.Live b) (start : b.address = address) :
    Frees (act (free address)) h [b] := by
  obtain ⟨g, run, sheds⟩ := free_eq live
  exact ⟨g, by rw [← start, Action.act_of_ok run], sheds⟩

theorem frees_free_if {b : Block} {address : Nat} {held : Bool}
    (keeps : h.Keeps (if held then [b] else [])) (start : b.address = address) :
    Frees (do if held then act (free address)) h (if held then [b] else []) := by
  cases held with
  | true => exact frees_free (keeps.1 b (by simp)) start
  | false => exact frees_pure h

end Heap

open Heap (Keeps Frees)

variable {h g : Heap} {size base position head : Nat}

/-! ### Walks -/

theorem frees_forPositions (owned : Heap → Slot → Footprint → Prop) {step : Nat → LayoutM Unit}
    {parts : List Footprint}
    (stable : ∀ {h g blocks s p}, h.Sheds g blocks → owned h s p → owned g s p)
    (spec : ∀ i < position + parts.length, ∀ g, g.size = h.size → ∀ p ∈ parts,
      owned g (g.slotAt (base + i * size) size) p → g.Keeps p.all → Frees (step i) g p.all)
    (packed : Packed h (owned h) size base position parts)
    (keeps : h.Keeps (parts.flatMap (·.all))) :
    Frees (forPositions step parts.length position) h (parts.flatMap (·.all)) := by
  induction parts generalizing h position with
  | nil => exact Heap.frees_pure h
  | cons p rest ih =>
    obtain ⟨here, later⟩ := packed
    simp only [List.length_cons] at spec
    refine Frees.bind ?_ fun g sheds => ?_
    · exact spec position (by omega) h rfl p (by simp) here keeps.left
    · refine ih (fun i below k same q listed => ?_) ?_ (keeps.right sheds)
      · exact spec i (by omega) k (same.trans sheds.size_eq) q (by simp [listed])
      · refine later.frame (fun x _ _ => by rw [sheds.byteAt_eq]) fun q _ s => stable sheds

def Link.held (own : Holding) (l : Link) : List Block :=
  (if own.elements then l.item.all else []) ++ (if own.container then [l.node] else [])

theorem held_links (own : Holding) (links : List Link) :
    (links.flatMap (·.held own)).Perm
      (Footprint.held ⟨links.map (·.node), links.flatMap (·.item.all)⟩ own) := by
  have nodes : links.flatMap (fun l => [l.node]) = links.map (·.node) := by
    induction links <;> simp_all
  have nothing : links.flatMap (fun _ => ([] : List Block)) = [] := by simp
  simp only [Link.held, Footprint.held]
  apply (List.flatMap_append_perm _ _ _).symm.trans
  cases own.elements <;> cases own.container <;> simp [nodes, nothing]

theorem nextNode_eq {node : Nat} (guarded : Heap.guardSize ≤ node) (inside : node + 16 ≤ h.size) :
    nextNode node h = .ok (h.slotAt (node + nextOffset) 8).toNat h := by
  have within : h.Accessible (node + 1 * nextOffset) 8 := by
    simp only [Heap.Accessible, nextOffset]
    omega
  rw [nextNode, elementAddress_of_accessible within, Nat.one_mul]
  exact Action.act_of_ok (Heap.loadPointer_eq (by rwa [Nat.one_mul] at within))

/-- A walk along a chain, each node of which is freed with its element as far as they are held. The
next address is read before the step. -/
theorem frees_forNodes (owned : Heap → Slot → Footprint → Prop) {step : Nat → LayoutM Unit}
    {own : Holding} {links : List Link} {fuel : Nat}
    (large : 16 ≤ size)
    (stable : ∀ {h g blocks s p}, h.Sheds g blocks → owned h s p → owned g s p)
    (spec : ∀ g, g.size = h.size → ∀ l ∈ links, g.Accessible l.node.address size →
      owned g (g.slotAt l.node.address 8) l.item → g.Keeps (l.held own) →
      Frees (step l.node.address) g (l.held own))
    (linked : Linked h (owned h) size head links) (enough : links.length < fuel)
    (keeps : h.Keeps (links.flatMap (·.held own))) :
    Frees (forNodes step fuel head) h (links.flatMap (·.held own)) := by
  induction links generalizing h head fuel with
  | nil =>
    obtain ⟨fuel, rfl⟩ := Nat.exists_eq_add_of_lt enough
    have ended : head = 0 := linked
    rw [forNodes, if_pos ended]
    exact Heap.frees_pure h
  | cons l rest ih =>
    obtain ⟨fuel, rfl⟩ : ∃ n, fuel = n + 1 := ⟨fuel - 1, by omega⟩
    obtain ⟨node, guarded, inside, here, later⟩ := linked
    have nonzero : head ≠ 0 := by
      simp only [Heap.guardSize] at guarded
      omega
    have start : l.node.address = head := by rw [node]
    rw [forNodes, if_neg nonzero]
    refine Frees.after_read (nextNode_eq guarded (by omega)) (Frees.bind ?_ fun g sheds => ?_)
    · have first := spec h rfl l (by simp)
      rw [start] at first
      exact first ⟨guarded, inside⟩ here keeps.left
    · refine ih (fun k same q listed => ?_) ?_ ?_ (keeps.right sheds)
      · exact spec k (same.trans sheds.size_eq) q (by simp [listed])
      · refine later.frame (fun _ _ inside => sheds.size_eq ▸ inside) (fun _ _ x _ _ => ?_)
          fun q _ s => stable sheds
        rw [sheds.byteAt_eq]
      · simp only [List.length_cons] at enough
        omega

/-- A chain of different nodes has fewer of them than there are addresses. -/
theorem Linked.length_lt {item : Slot → Footprint → Prop} {links : List Link}
    (linked : Linked h item size head links) (positive : 0 < size)
    (distinct : (links.map (·.node)).Nodup) : links.length < chainBound := by
  have inside : ∀ b ∈ links.map (·.node), b.address < h.size := by
    clear distinct
    induction links generalizing head with
    | nil => simp
    | cons l rest ih =>
      obtain ⟨node, -, inside, -, later⟩ := linked
      simp only [List.map_cons, List.mem_cons, forall_eq_or_imp]
      exact ⟨by rw [node]; simp only; omega, ih later⟩
  have sized : ∀ b ∈ links.map (·.node), b.size = size := by
    simpa using linked.node_size
  have addresses : ((links.map (·.node)).map (·.address)).Nodup := by
    apply distinct.map_on
    intro b listed c listed' same
    have equal := (sized b listed).trans (sized c listed').symm
    cases b
    cases c
    simp_all
  have within : (links.map (·.node)).map (·.address) ⊆ List.range h.size := by
    intro a listed
    obtain ⟨b, member, rfl⟩ := List.mem_map.1 listed
    exact List.mem_range.2 (inside b member)
  have bound := (List.subperm_of_subset addresses within).length_le
  have := h.size_le_capacity
  have := Heap.capacity_lt
  simp only [List.length_map, List.length_range] at bound
  simp only [chainBound]
  omega

/-! ### Counts -/

/-- The scan finds a zero element behind slots that are not null. -/
theorem terminatedLength_of_slots {element : Descriptor} {count : Nat}
    (guarded : Heap.guardSize ≤ base) (inside : base + (count + 1) * element.size ≤ h.size)
    (marked : ∀ i < count, (h.slotAt (base + i * element.size) element.size).toNat ≠ 0)
    (zero : ∀ x, base + count * element.size ≤ x → x < base + (count + 1) * element.size →
      h.byteAt x = 0) :
    terminatedLength element base h = .ok count h := by
  have within (i : Nat) (upTo : i ≤ count) :
      h.Accessible (base + i * element.size) element.size := by
    have reach : (i + 1) * element.size ≤ (count + 1) * element.size :=
      Nat.mul_le_mul_right _ (Nat.succ_le_succ upTo)
    rw [Nat.add_one_mul] at reach
    simp only [Heap.Accessible]
    omega
  refine terminatedLength_eq_ok_iff.2 ⟨rfl, ⟨fun i _ below => ?_, fun _ x above below => ?_⟩,
    within count (Nat.le_refl _)⟩
  · refine ⟨within i (Nat.le_of_lt below), fun blank => ?_⟩
    have some := Heap.not_all_zero (marked i below)
    rw [Heap.all_slice_iff.2 blank] at some
    cases some
  · exact zero x above (by rw [Nat.add_one_mul]; omega)

theorem arrayLength_zeroTerminated {element : Descriptor} {form : ArrayForm} {pointer : Bool} :
    arrayLength (.array element .zeroTerminated form pointer) base none h =
      terminatedLength element base h := rfl

/-- Of the elements, only their size matters for the count. -/
theorem arrayLength_of_size {element element' : Descriptor} {mode : ArrayLength} {form : ArrayForm}
    {pointer : Bool} {given : Option Nat} {count : Nat} (size : element'.size = element.size)
    (run : arrayLength (.array element' mode form pointer) base given h = .ok count h) :
    arrayLength (.array element mode form pointer) base given h = .ok count h := by
  cases given with
  | some n => exact run
  | none =>
    cases mode with
    | fixed n => exact run
    | zeroTerminated => rwa [arrayLength_zeroTerminated, terminatedLength, size] at run
    | _ => cases run

namespace Descriptor

variable {d element : Descriptor} {slot : Slot} {given : Option Nat} {count : Nat}

/-- Whether the element count of a value is told, or is what its length measures. -/
def Counted (d : Descriptor) (h : Heap) (slot : Slot) (given : Option Nat) (count : Nat) : Prop :=
  slot.isNull = false → d.Told given count ∨ arrayLength d slot.toNat given h = .ok count h

theorem Told.counted (told : d.Told given count) (h : Heap) (slot : Slot) :
    d.Counted h slot given count := fun _ => .inl told

theorem Ended.counted {f : Footprint} (ended : d.Ended h slot count f) :
    d.Counted h slot none count := by
  intro some
  cases d with
  | array element mode form pointer =>
    rcases ended with null | bare | fixed | ⟨rfl, b, -, start, terminated⟩
    · rw [some] at null
      cases null
    · exact .inl (.inr (.inr bare))
    · exact .inl (.inr (.inl ⟨rfl, fixed⟩))
    · by_cases holds : elementHoldsMemory element false = true
      · have room := terminated.room
        have inside := terminated.inside
        simp only [Block.stop] at inside
        refine .inr ?_
        rw [arrayLength_zeroTerminated, ← start]
        refine terminatedLength_of_slots terminated.guarded ?_ ?_ ?_ <;>
          rw [size_of_elementHoldsMemory holds]
        · omega
        · intro i below
          have marked := terminated.marked i below
          rwa [Slot.isNull, beq_eq_false_iff_ne] at marked
        · exact terminated.ended
      · exact .inl (.inr (.inr (by simpa using holds)))
  | _ => exact .inl trivial

/-! ### Types as a pass sees them -/

/-- The type with an opaque block in place of every struct and object behind a pointer. -/
def asBlocks : Descriptor → Descriptor
  | .named (.structured size byValue) name pointer =>
    if byValue && !pointer then .named (.structured size byValue) name pointer
    else .basic (.string false) true
  | .named .object _ _ => .basic (.string false) true
  | .array element mode form pointer => .array element.asBlocks mode form pointer
  | .list element singlyLinked pointer => .list element.asBlocks singlyLinked pointer
  | d => d

/-- The type as a pass sees it: if it holds references, these are blocks like texts. -/
def seen (d : Descriptor) (references : Bool) : Descriptor := if references then d.asBlocks else d

@[simp] theorem size_asBlocks (d : Descriptor) : d.asBlocks.size = d.size := by
  cases d with
  | named type name pointer =>
    cases type with
    | structured size byValue => cases byValue <;> cases pointer <;> cases size <;> rfl
    | _ => rfl
  | _ => rfl

@[simp] theorem size_seen (d : Descriptor) (references : Bool) : (d.seen references).size = d.size := by
  cases references
  · rfl
  · exact d.size_asBlocks

theorem asBlocks_of_isReferenceFree (free : d.isReferenceFree = true) : d.asBlocks = d := by
  induction d with
  | basic type pointer => rfl
  | named type name pointer =>
    cases type with
    | structured size byValue => cases byValue <;> cases pointer <;> first | rfl | cases free
    | object => cases free
    | _ => rfl
  | hash key value pointer => rfl
  | array element mode form pointer ih => rw [asBlocks, ih free]
  | list element singlyLinked pointer ih => rw [asBlocks, ih free]

theorem seen_of_isReferenceFree {references : Bool}
    (free : references = true → d.isReferenceFree = true) : d.seen references = d := by
  cases references
  · rfl
  · exact asBlocks_of_isReferenceFree (free rfl)

theorem elementHoldsMemory_asBlocks (d : Descriptor) :
    elementHoldsMemory d.asBlocks false = elementHoldsMemory d true := by
  cases d with
  | basic type pointer => cases type <;> rfl
  | named type name pointer =>
    cases type with
    | structured size byValue => cases byValue <;> cases pointer <;> rfl
    | _ => rfl
  | _ => rfl

theorem elementHoldsMemory_seen (d : Descriptor) (references : Bool) :
    elementHoldsMemory (d.seen references) false = elementHoldsMemory d references := by
  cases references
  · rfl
  · exact d.elementHoldsMemory_asBlocks

theorem seen_array (references : Bool) (mode : ArrayLength) (form : ArrayForm) (pointer : Bool) :
    (array element mode form pointer).seen references =
      .array (element.seen references) mode form pointer := by
  cases references <;> rfl

theorem seen_list (references singlyLinked pointer : Bool) :
    (list element singlyLinked pointer).seen references =
      .list (element.seen references) singlyLinked pointer := by
  cases references <;> rfl

theorem Counted.arrayLength {element' : Descriptor} {mode : ArrayLength} {form : ArrayForm}
    {pointer : Bool} (counted : (array element' mode form pointer).Counted h slot given count)
    (some : slot.isNull = false) (size : element'.size = element.size)
    (fixed : ∀ n, mode = .fixed n → count = n) (holds : elementHoldsMemory element' false = true) :
    arrayLength (.array element mode form pointer) slot.toNat given h = .ok count h := by
  rcases counted some with (rfl | ⟨rfl, known⟩ | bare) | run
  · rfl
  · cases mode with
    | fixed n =>
      rw [fixed n rfl]
      rfl
    | _ => cases known
  · rw [holds] at bare
    cases bare
  · exact arrayLength_of_size size run

end Descriptor

/-! ### Release -/

namespace Heap

theorem ErrorAt.freeError {b : Block} {texts : List Block} (error : h.ErrorAt b texts)
    (keeps : h.Keeps (texts ++ [b])) :
    ∃ g, freeError b.address h = .ok () g ∧ h.Sheds g (texts ++ [b]) := by
  have guarded := error.guarded
  have room := error.room
  have inside := error.inside
  simp only [guardSize, errorSize, Block.stop] at guarded room inside
  have within : h.Accessible (b.address + 8) 8 := ⟨by simp only [guardSize]; omega, by omega⟩
  have message := error.message
  obtain ⟨g, freed, sheds⟩ : ∃ g,
      free (h.slotAt (b.address + 8) 8).toNat h = .ok () g ∧ h.Sheds g texts := by
    cases null : (h.slotAt (b.address + 8) 8).isNull with
    | true =>
      rw [null, if_pos rfl, List.map_eq_nil_iff] at message
      rw [Slot.isNull, beq_iff_eq] at null
      rw [message, free, if_pos null]
      exact ⟨h, rfl, .refl h⟩
    | false =>
      rw [null, if_neg (by simp)] at message
      obtain ⟨text, rfl, start⟩ := List.map_eq_singleton_iff.1 message
      rw [← start]
      exact free_eq (keeps.left.1 text (List.mem_singleton_self _))
  obtain ⟨k, freed', sheds'⟩ := free_eq ((keeps.right sheds).1 b (List.mem_singleton_self _))
  refine ⟨k, ?_, sheds.trans sheds'⟩
  rw [Heap.freeError, if_neg (by omega), Action.bind_of_ok (loadPointer_eq within),
    Action.bind_of_ok freed]
  exact freed'

end Heap

theorem release_null {d : Descriptor} {slot : Slot} (null : slot.isNull = true) (own : Holding)
    (given : Option Nat) : release d slot own given = pure () := by
  unfold release
  rw [if_pos null]

theorem frees_nothing (h : Heap) (own : Holding) : Frees (pure ()) h (Footprint.empty.held own) := by
  simpa [Footprint.held, Footprint.empty] using Heap.frees_pure h

section Release

variable {d d' element element' : Descriptor} {slot : Slot} {count : Nat} {f : Footprint}
  {own : Holding} {given : Option Nat}

theorem release_null_owned (null : slot.isNull = true) (owns : Owns h d' slot count f) :
    Frees (release d slot own given) h (f.held own) := by
  rw [release_null null, (owns_null null).1 owns]
  exact frees_nothing h own

theorem release_basic_owned {type : BasicType} {pointer : Bool}
    (owns : Owns h (.basic type pointer) slot count f) (keeps : h.Keeps (f.held own)) :
    Frees (release (.basic type pointer) slot own given) h (f.held own) := by
  cases null : slot.isNull with
  | true => exact release_null_owned null owns
  | false =>
    unfold release
    simp only [null, Bool.false_eq_true, if_false]
    cases type with
    | string filename =>
      obtain ⟨b, start, rfl⟩ := (owns_string null).1 owns
      simp only [Footprint.held, ite_self, List.nil_append] at keeps ⊢
      exact Heap.frees_free_if keeps start
    | error =>
      obtain ⟨b, texts, start, rfl, error⟩ := (owns_error null).1 owns
      simp only [Footprint.held, ite_self, List.nil_append] at keeps ⊢
      cases held : own.container with
      | true =>
        rw [held] at keeps
        obtain ⟨g, run, sheds⟩ := error.freeError keeps
        exact ⟨g, start ▸ Action.act_of_ok run, sheds⟩
      | false => exact Heap.frees_pure h
    | _ =>
      have nothing : f = .empty := by simpa [Owns, null] using owns
      rw [nothing]
      exact frees_nothing h own

theorem release_named_owned {type : NamedType} {name : String} {pointer : Bool}
    (owns : Owns h ((Descriptor.named type name pointer).seen own.references) slot count f)
    (keeps : h.Keeps (f.held own)) :
    Frees (release (.named type name pointer) slot own given) h (f.held own) := by
  cases null : slot.isNull with
  | true => exact release_null_owned null owns
  | false =>
    have block (owned : ∃ b : Block, b.address = slot.toNat ∧ f = ⟨[b], []⟩) :
        Frees (do if own.container then Heap.act (Heap.free slot.toNat)) h (f.held own) := by
      obtain ⟨b, start, rfl⟩ := owned
      simp only [Footprint.held, ite_self, List.nil_append] at keeps ⊢
      exact Heap.frees_free_if keeps start
    have nothing (empty : f = .empty) : Frees (pure ()) h (f.held own) := by
      rw [empty]
      exact frees_nothing h own
    unfold release
    simp only [null, Bool.false_eq_true, if_false]
    cases type with
    | structured size byValue =>
      cases inline : byValue && !pointer with
      | true =>
        have self : (Descriptor.named (.structured size byValue) name pointer).seen own.references =
            .named (.structured size byValue) name pointer := by
          cases own.references <;> simp [Descriptor.seen, Descriptor.asBlocks, inline]
        rw [self, owns_structured null, inline, if_pos rfl] at owns
        simpa only [inline, Bool.true_or, Bool.and_true] using block owns
      | false =>
        cases references : own.references with
        | true =>
          rw [references, Descriptor.seen, if_pos rfl, Descriptor.asBlocks, inline,
            if_neg (by simp), owns_string null] at owns
          simpa only [references, Bool.or_true, Bool.and_true] using block owns
        | false =>
          rw [references, Descriptor.seen, if_neg (by simp), owns_structured null, inline,
            if_neg (by simp)] at owns
          simpa only [inline, references, Bool.or_false, Bool.and_false, Bool.false_eq_true,
            if_false] using nothing owns
    | object =>
      cases references : own.references with
      | true =>
        rw [references, Descriptor.seen, if_pos rfl, Descriptor.asBlocks, owns_string null] at owns
        simpa only [references, Bool.and_true] using block owns
      | false =>
        rw [references, Descriptor.seen, if_neg (by simp)] at owns
        have empty : f = .empty := by simpa [Owns, null] using owns
        simpa only [references, Bool.and_false, Bool.false_eq_true, if_false] using nothing empty
    | _ =>
      refine nothing ?_
      cases references : own.references <;>
        simpa [Owns, null, references, Descriptor.seen, Descriptor.asBlocks] using owns

theorem release_hash_owned {key value : Descriptor} {pointer : Bool}
    (owns : Owns h (.hash key value pointer) slot count f) :
    Frees (release (.hash key value pointer) slot own given) h (f.held own) := by
  cases null : slot.isNull with
  | true => exact release_null_owned null owns
  | false =>
    have nothing : f = .empty := by simpa [Owns, null] using owns
    simp only [release, null, Bool.false_eq_true, if_false, nothing]
    exact frees_nothing h own

theorem release_array_owned {mode : ArrayLength} {form : ArrayForm} {pointer : Bool}
    (items : ∀ {g s p}, OwnsItem g element' s p → g.Keeps p.all →
      Frees (release element s own.nested none) g p.all)
    (size : element'.size = element.size)
    (visits : elementHoldsMemory element own.references = elementHoldsMemory element' false)
    (owns : Owns h (.array element' mode form pointer) slot count f)
    (counts : own.elements = true →
      (Descriptor.array element' mode form pointer).Counted h slot given count)
    (keeps : h.Keeps (f.held own)) :
    Frees (release (.array element mode form pointer) slot own given) h (f.held own) := by
  cases null : slot.isNull with
  | true => exact release_null_owned null owns
  | false =>
    obtain ⟨b, parts, start, rfl, counted, fixed, guarded, inside, room, holding, bare⟩ :=
      (owns_array null).1 owns
    rw [size] at room holding
    simp only [release, null, Bool.false_eq_true, if_false, visits]
    simp only [Footprint.held] at keeps ⊢
    cases visited : own.elements && elementHoldsMemory element' false with
    | true =>
      obtain ⟨elements, holds⟩ := Bool.and_eq_true_iff.1 visited
      simp only [elements, if_true] at keeps ⊢
      apply Frees.after_read ((counts elements).arrayLength null size fixed holds)
      refine Frees.bind ?_ fun g sheds => Heap.frees_free_if (keeps.right sheds) start
      rw [← counted]
      refine frees_forPositions (fun k s p => OwnsItem k element' s p)
        (fun sheds owned => owned.of_sheds sheds) ?_ (holding holds) keeps.left
      intro i below g same p listed owned kept
      rw [start] at owned
      have reach : (i + 1) * element.size ≤ parts.length * element.size :=
        Nat.mul_le_mul_right _ (by omega)
      rw [Nat.add_one_mul] at reach
      have within : g.Accessible (slot.toNat + i * element.size) element.size := by
        simp only [Heap.Accessible, Block.stop] at *
        omega
      rw [elementAddress_of_accessible within]
      apply Frees.after_read rfl
      exact Frees.after_read (Action.act_of_ok (Heap.load_eq within)) (items owned kept)
    | false =>
      have none : (if own.elements = true then parts.flatMap (·.all) else []) = [] := by
        cases elements : own.elements with
        | true =>
          have empty := bare (by simpa [elements] using visited)
          simpa using fun p listed => by rw [empty p listed, Footprint.all_empty]
        | false => rfl
      simp only [none, List.nil_append, Bool.false_eq_true, if_false] at keeps ⊢
      exact Heap.frees_free_if keeps start

theorem release_list_owned {singlyLinked pointer : Bool}
    (items : ∀ {g s p}, OwnsItem g element' s p → g.Keeps p.all →
      Frees (release element s own.nested none) g p.all)
    (owns : Owns h (.list element' singlyLinked pointer) slot count f)
    (keeps : h.Keeps (f.held own)) :
    Frees (release (.list element singlyLinked pointer) slot own given) h (f.held own) := by
  cases null : slot.isNull with
  | true => exact release_null_owned null owns
  | false =>
    obtain ⟨links, rfl, distinct, linked⟩ := (owns_list null).1 owns
    have large := sixteen_le_nodeSize singlyLinked
    have enough := linked.length_lt (by omega) distinct
    have same := held_links own links
    simp only [release, null, Bool.false_eq_true, if_false]
    refine Frees.perm ?_ same
    refine frees_forNodes (fun k s p => OwnsItem k element' s p) large
      (fun sheds owned => owned.of_sheds sheds) ?_ linked enough (keeps.perm same.symm)
    intro g _ l listed within owned kept
    simp only [Link.held] at kept ⊢
    have loads : g.Accessible l.node.address 8 := ⟨within.1, by have := within.2; omega⟩
    cases elements : own.elements with
    | true =>
      simp only [elements, if_true] at kept ⊢
      apply Frees.after_read (Action.act_of_ok (Heap.load_eq loads))
      exact Frees.bind (items owned kept.left) fun k sheds =>
        Heap.frees_free_if (kept.right sheds) rfl
    | false =>
      simp only [elements, Bool.false_eq_true, if_false, List.nil_append] at kept ⊢
      exact Heap.frees_free_if kept rfl

/-- A pass frees what it holds of a value, provided that it is told or can tell how many elements
there are if it holds these. -/
theorem release_seen (owns : Owns h (d.seen own.references) slot count f)
    (counts : own.elements = true → (d.seen own.references).Counted h slot given count)
    (keeps : h.Keeps (f.held own)) :
    Frees (release d slot own given) h (f.held own) := by
  induction d generalizing h slot count f own given with
  | basic type pointer =>
    have self : (Descriptor.basic type pointer).seen own.references = .basic type pointer :=
      Descriptor.seen_of_isReferenceFree fun _ => rfl
    rw [self] at owns
    exact release_basic_owned owns keeps
  | named type name pointer => exact release_named_owned owns keeps
  | hash key value pointer =>
    have self : (Descriptor.hash key value pointer).seen own.references = .hash key value pointer :=
      Descriptor.seen_of_isReferenceFree fun _ => rfl
    rw [self] at owns
    exact release_hash_owned owns
  | array element mode form pointer ih =>
    rw [Descriptor.seen_array] at owns counts
    refine release_array_owned ?_ (element.size_seen _) (element.elementHoldsMemory_seen _).symm owns
      counts keeps
    rintro g s p ⟨n, owned, ended⟩ kept
    rw [← p.held_nested own] at kept ⊢
    exact ih owned (fun _ => ended.counted) kept
  | list element singlyLinked pointer ih =>
    rw [Descriptor.seen_list] at owns
    refine release_list_owned ?_ owns keeps
    rintro g s p ⟨n, owned, ended⟩ kept
    rw [← p.held_nested own] at kept ⊢
    exact ih owned (fun _ => ended.counted) kept

/-- A pass that does not hold structs and objects frees what it holds of what the value owns. -/
theorem release_owned (owns : Owns h d slot count f) (told : d.Told given count)
    (plain : own.references = true → d.isReferenceFree = true) (keeps : h.Keeps (f.held own)) :
    Frees (release d slot own given) h (f.held own) := by
  have self := Descriptor.seen_of_isReferenceFree plain
  have owns : Owns h (d.seen own.references) slot count f := by rwa [self]
  refine release_seen owns ?_ keeps
  rw [self]
  exact fun _ => told.counted h slot

end Release

end ForeignCall
