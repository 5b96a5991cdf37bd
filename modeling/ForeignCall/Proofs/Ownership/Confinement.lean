import ForeignCall.Proofs.Conversion.Clearing
import ForeignCall.Proofs.Ownership.Buffers

/-!
Where a release pass stays.

A pass that is not told how many elements an array has may find fewer of them than there are, or none.
So what it frees of a value is less than what the value owns, but it never leaves the blocks of the
value: each address it frees was read in one of them, or is the slot itself.
-/

set_option autoImplicit false

namespace ForeignCall

open ForeignCall.Action

namespace Heap

/-- Blocks at these addresses may have been freed, and nothing else was done. -/
structure Spares (P : Nat → Prop) (h g : Heap) : Prop where
  bytes_eq : g.bytes = h.bytes
  live_of : ∀ {b : Block}, g.Live b → h.Live b
  keeps_live : ∀ {b : Block}, h.Live b → ¬ P b.address → g.Live b

/-- From a heap of the same bytes on, the action does nothing but free blocks at these addresses. -/
def Sparing {α : Type} (P : Nat → Prop) (h : Heap) (x : LayoutM α) : Prop :=
  ∀ g, g.bytes = h.bytes → x.Gives g (fun _ k => g.Spares P k) (fun _ k => g.Spares P k) fun _ => True

variable {α β : Type} {P Q : Nat → Prop} {h g k : Heap} {x : LayoutM α} {f : α → LayoutM β}

theorem Spares.refl (h : Heap) : h.Spares P h := ⟨rfl, fun live => live, fun live _ => live⟩

theorem Spares.trans (first : g.Spares P h) (second : h.Spares P k) : g.Spares P k :=
  ⟨second.bytes_eq.trans first.bytes_eq, fun live => first.live_of (second.live_of live),
    fun live other => second.keeps_live (first.keeps_live live other) other⟩

theorem Spares.mono (spares : h.Spares P g) (wider : ∀ a, P a → Q a) : h.Spares Q g :=
  { spares with
    keeps_live := fun live other => spares.keeps_live live fun inside => other (wider _ inside) }

theorem Spares.of_sheds {blocks : List Block} (sheds : h.Sheds g blocks)
    (listed : ∀ b ∈ blocks, P b.address) : h.Spares P g :=
  ⟨sheds.bytes_eq, fun live => ((sheds.live_iff _).1 live).1,
    fun live other => sheds.keeps_live live fun gone => other (listed _ gone)⟩

theorem Sparing.mono (sparing : h.Sparing P x) (wider : ∀ a, P a → Q a) : h.Sparing Q x :=
  fun g same => (sparing g same).mono (fun _ _ spares => spares.mono wider)
    fun _ _ spares => spares.mono wider

theorem sparing_pure (a : α) : h.Sparing P (pure a : LayoutM α) := fun g _ => .refl g

theorem Sparing.bind (first : h.Sparing P x) (rest : ∀ a, h.Sparing P (f a)) :
    h.Sparing P (x >>= f) := by
  intro g same
  rw [gives_bind]
  refine (first g same).mono (fun a k spares => ?_) fun _ _ spares => spares
  exact (rest a k (spares.bytes_eq.trans same)).mono (fun _ _ => spares.trans)
    fun _ _ => spares.trans

/-- Reading depends on the bytes only. -/
theorem Sparing.after_read {p : α → Prop}
    (reads : ∀ g, g.bytes = h.bytes →
      x.Gives g (fun a k => k = g ∧ p a) (fun _ k => k = g) fun _ => True)
    (rest : ∀ a, p a → h.Sparing P (f a)) : h.Sparing P (x >>= f) := by
  intro g same
  rw [gives_bind]
  refine (reads g same).mono ?_ ?_
  · rintro a _ ⟨rfl, found⟩
    exact rest a found _ same
  · rintro _ _ rfl
    exact .refl _

theorem Sparing.after {a : α} (run : ∀ g, g.bytes = h.bytes → x g = .ok a g)
    (rest : h.Sparing P (f a)) : h.Sparing P (x >>= f) :=
  .after_read (p := (· = a)) (fun g same => gives_of_ok (run g same) ⟨rfl, rfl⟩) fun _ found =>
    found ▸ rest

theorem prolongs_of_bytes_eq (same : g.bytes = h.bytes) : h.Prolongs g where
  size_le := Nat.le_of_eq (congrArg Array.size same.symm)
  byteAt_eq x _ := by rw [byteAt_of_bytes_eq same]

theorem slotAt_of_bytes_eq (same : g.bytes = h.bytes) (address size : Nat) :
    g.slotAt address size = h.slotAt address size :=
  slotAt_congr fun x _ _ => by rw [byteAt_of_bytes_eq same]

theorem load_of_bytes_eq (same : g.bytes = h.bytes) {address size : Nat}
    (within : h.Accessible address size) :
    (act (load address size) : LayoutM Slot) g = .ok (h.slotAt address size) g := by
  have grown := (prolongs_of_bytes_eq same).size_le
  rw [← slotAt_of_bytes_eq same]
  exact act_of_ok (load_eq ⟨within.1, Nat.le_trans within.2 grown⟩)

theorem Sparing.after_load {f : Slot → LayoutM β} {address size : Nat}
    (within : h.Accessible address size) (rest : h.Sparing P (f (h.slotAt address size))) :
    h.Sparing P (act (load address size) >>= f) :=
  .after (fun _ same => load_of_bytes_eq same within) rest

theorem Sparing.attempt (sparing : h.Sparing P x) :
    h.Sparing P (do let _ : Except ConversionFault α ← Action.attempt x) :=
  .bind (fun g same => gives_attempt.2 (sparing g same)) fun _ => sparing_pure ()

theorem sparing_free {address : Nat} (inside : P address) :
    h.Sparing P (act (free address) : LayoutM Unit) := by
  intro g _
  rw [gives_act]
  cases listed : g.isLive address with
  | true =>
    obtain ⟨n, live⟩ := isLive_iff.1 listed
    obtain ⟨k, run, sheds⟩ := free_eq live
    refine gives_of_ok run (.of_sheds sheds fun b gone => ?_)
    rwa [List.mem_singleton.1 gone]
  | false =>
    rw [Action.Gives, free]
    by_cases null : address = 0
    · rw [if_pos null]
      exact .refl g
    · rw [if_neg null, dif_neg (by rw [← isLive, listed]; exact Bool.false_ne_true)]
      cases g.freed.contains address <;> exact .refl g

theorem sparing_free_if {held : Bool} {address : Nat} (inside : held = true → P address) :
    h.Sparing P (do if held then act (free address) : LayoutM Unit) := by
  cases held with
  | true => exact sparing_free (inside rfl)
  | false => exact sparing_pure ()

end Heap

/-! ### Values -/

/-- What a pass finds as the count of an array is `count` at most: the count that it is given, a fixed
one, or the position of a terminator. Otherwise it finds none. -/
def ArrayLength.Bounds (mode : ArrayLength) (h : Heap) (b : Block) (given : Option Nat)
    (count : Nat) : Prop :=
  match given, mode with
  | some n, _ | none, .fixed n => n ≤ count
  | none, .zeroTerminated => (count + 1) * pointerSize ≤ b.size ∧
      ∀ x, b.address + count * pointerSize ≤ x → x < b.address + (count + 1) * pointerSize →
        h.byteAt x = 0
  | none, _ => True

/-- Whether a pass without references finds of the value in a slot only what is in these blocks. Nobody
is told the count of an array within another value. -/
def Confined (h : Heap) (d : Descriptor) (slot : Slot) (given : Option Nat) (blocks : List Block) :
    Prop :=
  if slot.isNull then True
  else
    match d with
    | .basic (.string _) _ => ∃ b ∈ blocks, b.address = slot.toNat
    | .basic .error _ => False
    | .named (.structured _ byValue) _ pointer =>
      (byValue && !pointer) = true → ∃ b ∈ blocks, b.address = slot.toNat
    | .array element mode _ _ =>
      ∃ b ∈ blocks, b.address = slot.toNat ∧ (elementHoldsMemory element false = true →
        ∃ parts : List Footprint, (∀ p ∈ parts, p.all ⊆ blocks) ∧
          Heap.guardSize ≤ b.address ∧ b.stop ≤ h.size ∧ parts.length * pointerSize ≤ b.size ∧
            Packed h (fun s p => Confined h element s none p.all) pointerSize b.address 0 parts ∧
              mode.Bounds h b given parts.length)
    | .list element singlyLinked _ =>
      ∃ links : List Link, (∀ l ∈ links, l.node ∈ blocks ∧ l.item.all ⊆ blocks) ∧
        Linked h (fun s p => Confined h element s none p.all) (nodeSize singlyLinked) slot.toNat links
    | _ => True

section Equations

variable {h : Heap} {slot : Slot} {given : Option Nat} {blocks : List Block}

theorem confined_null {d : Descriptor} (null : slot.isNull = true) :
    Confined h d slot given blocks := by
  unfold Confined
  rw [if_pos null]
  trivial

theorem confined_string {filename pointer : Bool} (some : slot.isNull = false) :
    Confined h (.basic (.string filename) pointer) slot given blocks ↔
      ∃ b ∈ blocks, b.address = slot.toNat := by
  unfold Confined
  rw [if_neg (by simp [some])]

theorem confined_structured {size : Option Nat} {byValue pointer : Bool} {name : String}
    (some : slot.isNull = false) :
    Confined h (.named (.structured size byValue) name pointer) slot given blocks ↔
      ((byValue && !pointer) = true → ∃ b ∈ blocks, b.address = slot.toNat) := by
  unfold Confined
  rw [if_neg (by simp [some])]

theorem confined_array {element : Descriptor} {mode : ArrayLength} {form : ArrayForm} {pointer : Bool}
    (some : slot.isNull = false) :
    Confined h (.array element mode form pointer) slot given blocks ↔
      ∃ b ∈ blocks, b.address = slot.toNat ∧ (elementHoldsMemory element false = true →
        ∃ parts : List Footprint, (∀ p ∈ parts, p.all ⊆ blocks) ∧
          Heap.guardSize ≤ b.address ∧ b.stop ≤ h.size ∧ parts.length * pointerSize ≤ b.size ∧
            Packed h (fun s p => Confined h element s none p.all) pointerSize b.address 0 parts ∧
              mode.Bounds h b given parts.length) := by
  rw [Confined, if_neg (by simp [some])]

theorem confined_list {element : Descriptor} {singlyLinked pointer : Bool}
    (some : slot.isNull = false) :
    Confined h (.list element singlyLinked pointer) slot given blocks ↔
      ∃ links : List Link, (∀ l ∈ links, l.node ∈ blocks ∧ l.item.all ⊆ blocks) ∧
        Linked h (fun s p => Confined h element s none p.all) (nodeSize singlyLinked) slot.toNat
          links := by
  rw [Confined, if_neg (by simp [some])]

theorem confined_of_bare {d : Descriptor} (bare : elementHoldsMemory d false = false)
    (stored : d.isInlineStruct = false) (slot : Slot) (given : Option Nat) (blocks : List Block) :
    Confined h d slot given blocks := by
  unfold Confined
  split
  · trivial
  · split <;> simp_all [elementHoldsMemory]

end Equations

section Frame

variable {h g : Heap} {d : Descriptor} {slot : Slot} {given : Option Nat} {blocks more : List Block}

theorem ArrayLength.Bounds.agree {mode : ArrayLength} {b : Block} {count : Nat}
    (bounds : mode.Bounds h b given count) (inside : b.stop ≤ h.size) (same : h.Agrees g [b]) :
    mode.Bounds g b given count := by
  cases given with
  | some n => exact bounds
  | none =>
    cases mode with
    | zeroTerminated =>
      obtain ⟨room, zero⟩ := bounds
      refine ⟨room, fun x above below => ?_⟩
      simp only [Block.stop] at inside
      rw [same.byteAt_eq b (List.mem_singleton_self _) x (by omega) (by simp only [Block.stop]; omega)
        (by omega)]
      exact zero x above below
    | _ => exact bounds

theorem Confined.mono (confined : Confined h d slot given blocks) (wider : blocks ⊆ more) :
    Confined h d slot given more := by
  cases null : slot.isNull with
  | true => exact confined_null null
  | false =>
    cases d with
    | basic type pointer =>
      cases type with
      | string filename =>
        rw [confined_string null] at confined ⊢
        exact confined.imp fun b => And.imp_left (wider ·)
      | _ => exact confined
    | named type name pointer =>
      cases type with
      | structured size byValue =>
        rw [confined_structured null] at confined ⊢
        exact fun inline => (confined inline).imp fun b => And.imp_left (wider ·)
      | _ => exact confined
    | hash key value pointer => exact confined
    | array element mode form pointer =>
      rw [confined_array null] at confined ⊢
      obtain ⟨b, listed, start, holding⟩ := confined
      refine ⟨b, wider listed, start, fun holds => ?_⟩
      obtain ⟨parts, within, rest⟩ := holding holds
      exact ⟨parts, fun p part => List.Subset.trans (within p part) wider, rest⟩
    | list element singlyLinked pointer =>
      rw [confined_list null] at confined ⊢
      obtain ⟨links, within, linked⟩ := confined
      exact ⟨links, fun l listed => ⟨wider (within l listed).1,
        List.Subset.trans (within l listed).2 wider⟩, linked⟩

/-- Only the bytes inside the blocks matter. -/
theorem Confined.agree (confined : Confined h d slot given blocks) (same : h.Agrees g blocks) :
    Confined g d slot given blocks := by
  induction d generalizing slot given blocks with
  | basic type pointer => cases type <;> exact confined
  | named type name pointer => cases type <;> exact confined
  | hash key value pointer => exact confined
  | array element mode form pointer ih =>
    cases null : slot.isNull with
    | true => exact confined_null null
    | false =>
      rw [confined_array null] at confined ⊢
      obtain ⟨b, listed, start, holding⟩ := confined
      refine ⟨b, listed, start, fun holds => ?_⟩
      obtain ⟨parts, within, guarded, inside, room, packed, bounds⟩ := holding holds
      have here : h.Agrees g [b] := same.subset (by simpa using listed)
      refine ⟨parts, within, guarded, same.room b listed inside, room, ?_, bounds.agree inside here⟩
      simp only [Block.stop] at inside
      refine packed.frame (fun x above below => ?_) fun p part s item =>
        ih item (same.subset (within p part))
      rw [Nat.zero_add] at below
      exact same.byteAt_eq b listed x above (by simp only [Block.stop]; omega) (by omega)
  | list element singlyLinked pointer ih =>
    cases null : slot.isNull with
    | true => exact confined_null null
    | false =>
      rw [confined_list null] at confined ⊢
      obtain ⟨links, within, linked⟩ := confined
      refine ⟨links, within, linked.frame (fun l listed => same.room l.node (within l listed).1)
        (fun l listed x above below => ?_) fun l listed s item =>
          ih item (same.subset (within l listed).2)⟩
      have := linked.node_size l listed
      have := sixteen_le_nodeSize singlyLinked
      have := linked.node_inside l listed
      exact same.byteAt_eq l.node (within l listed).1 x above (by simp only [Block.stop]; omega)
        (by simp only [Block.stop] at this; omega)

theorem Confined.prolongs (confined : Confined h d slot given blocks) (prolongs : h.Prolongs g) :
    Confined g d slot given blocks := confined.agree (prolongs.agrees _)

end Frame

/-! ### Passes -/

section Passes

open Heap (Sparing)

variable {P : Nat → Prop} {h g : Heap} {base position count : Nat}

/-- A scan ends at a terminator, if not before. -/
theorem terminatedLength_le {element : Descriptor}
    (zero : h.Zeroed (base + count * element.size) element.size) :
    (terminatedLength element base).Gives h (fun n k => k = h ∧ n ≤ count)
      (fun _ k => k = h) fun _ => True := by
  refine (gives_self _ h).mono (fun n k run => ?_) fun e k run => ?_
  · obtain ⟨same, ends, -⟩ := terminatedLength_eq_ok_iff.1 run
    exact ⟨same, ends.passes.le_of_ends fun _ => zero⟩
  · exact (terminatedLength_eq_error_iff.1 run).1

theorem arrayLength_le {element : Descriptor} {mode : ArrayLength} {form : ArrayForm} {pointer : Bool}
    {given : Option Nat} {b : Block} (bounds : mode.Bounds h b given count)
    (holds : elementHoldsMemory element false = true) :
    (arrayLength (.array element mode form pointer) b.address given).Gives h
      (fun n k => k = h ∧ n ≤ count) (fun _ k => k = h) fun _ => True := by
  cases given with
  | some n => exact ⟨rfl, bounds⟩
  | none =>
    cases mode with
    | fixed n => exact ⟨rfl, bounds⟩
    | zeroTerminated =>
      refine terminatedLength_le fun x above below => ?_
      rw [size_of_elementHoldsMemory holds] at above below
      exact bounds.2 x above (by rw [Nat.add_one_mul]; omega)
    | _ => exact rfl

theorem sparing_forPositions {item : Slot → Footprint → Prop} {step : Nat → LayoutM Unit}
    {parts : List Footprint} {size : Nat} (few : count ≤ parts.length)
    (spec : ∀ i < position + parts.length, ∀ p ∈ parts,
      item (h.slotAt (base + i * size) size) p → h.Sparing P (step i))
    (packed : Packed h item size base position parts) :
    h.Sparing P (forPositions step count position) := by
  induction count generalizing position parts with
  | zero => exact Heap.sparing_pure ()
  | succ count ih =>
    cases parts with
    | nil => exact absurd few (Nat.not_succ_le_zero _)
    | cons p rest =>
      obtain ⟨here, later⟩ := packed
      simp only [List.length_cons] at spec
      rw [forPositions]
      refine (spec position (by omega) p List.mem_cons_self here).bind fun _ => ?_
      refine ih (Nat.le_of_succ_le_succ few) (fun i below q listed => ?_) later
      exact spec i (by omega) q (List.mem_cons_of_mem _ listed)

theorem sparing_forNodes {item : Slot → Footprint → Prop} {step : Nat → LayoutM Unit}
    {links : List Link} {size head fuel : Nat} (large : 16 ≤ size)
    (spec : ∀ l ∈ links, Heap.guardSize ≤ l.node.address → l.node.address + 16 ≤ h.size →
      item (h.slotAt l.node.address 8) l.item → h.Sparing P (step l.node.address))
    (linked : Linked h item size head links) : h.Sparing P (forNodes step fuel head) := by
  induction fuel generalizing links head with
  | zero => exact fun _ _ => trivial
  | succ fuel ih =>
    cases links with
    | nil =>
      have ended : head = 0 := linked
      rw [forNodes, if_pos ended]
      exact Heap.sparing_pure ()
    | cons l rest =>
      obtain ⟨node, guarded, inside, here, later⟩ := linked
      have start : l.node.address = head := by rw [node]
      have nonzero : head ≠ 0 := by
        simp only [Heap.guardSize] at guarded
        omega
      rw [forNodes, if_neg nonzero]
      refine .after (a := (h.slotAt (head + nextOffset) 8).toNat) (fun g same => ?_) ?_
      · have grown := (Heap.prolongs_of_bytes_eq same).size_le
        rw [← Heap.slotAt_of_bytes_eq same]
        exact nextNode_eq guarded (by omega)
      · refine .bind ?_ fun _ => ih (fun q listed => spec q (List.mem_cons_of_mem _ listed)) later
        have first := spec l List.mem_cons_self
        rw [start] at first
        exact first guarded (by omega) here

/-- The addresses at which the blocks start. -/
def StartOf (blocks : List Block) (a : Nat) : Prop := ∃ b ∈ blocks, b.address = a

theorem StartOf.mono {blocks more : List Block} (wider : blocks ⊆ more) (a : Nat)
    (inside : StartOf blocks a) : StartOf more a := inside.imp fun _ => And.imp_left (wider ·)

section Release

variable {slot : Slot} {own : Holding} {given : Option Nat} {blocks : List Block}

theorem release_null_sparing {d : Descriptor} (null : slot.isNull = true) :
    h.Sparing P (release d slot own given) := by
  rw [release_null null]
  exact Heap.sparing_pure ()

theorem release_basic_sparing {type : BasicType} {pointer : Bool}
    (confined : Confined h (.basic type pointer) slot given blocks) :
    h.Sparing (StartOf blocks) (release (.basic type pointer) slot own given) := by
  cases null : slot.isNull with
  | true => exact release_null_sparing null
  | false =>
    unfold release
    rw [null, if_neg Bool.false_ne_true]
    cases type with
    | string filename => exact Heap.sparing_free_if fun _ => (confined_string null).1 confined
    | error => simp [Confined, null] at confined
    | _ => exact Heap.sparing_pure ()

theorem release_named_sparing {type : NamedType} {name : String} {pointer : Bool}
    (plain : own.references = false)
    (confined : Confined h (.named type name pointer) slot given blocks) :
    h.Sparing (StartOf blocks) (release (.named type name pointer) slot own given) := by
  cases null : slot.isNull with
  | true => exact release_null_sparing null
  | false =>
    unfold release
    rw [null, if_neg Bool.false_ne_true]
    cases type with
    | structured size byValue =>
      refine Heap.sparing_free_if fun held => (confined_structured null).1 confined ?_
      rw [plain, Bool.or_false] at held
      exact (Bool.and_eq_true_iff.1 held).2
    | object =>
      refine Heap.sparing_free_if fun held => ?_
      rw [plain, Bool.and_false] at held
      cases held
    | _ => exact Heap.sparing_pure ()

theorem release_array_sparing {element : Descriptor} {mode : ArrayLength} {form : ArrayForm}
    {pointer : Bool} (plain : own.references = false)
    (items : ∀ {s : Slot} {p : Footprint}, Confined h element s none p.all →
      h.Sparing (StartOf p.all) (release element s own.nested none))
    (confined : Confined h (.array element mode form pointer) slot given blocks) :
    h.Sparing (StartOf blocks) (release (.array element mode form pointer) slot own given) := by
  cases null : slot.isNull with
  | true => exact release_null_sparing null
  | false =>
    obtain ⟨b, listed, start, holding⟩ := (confined_array null).1 confined
    have outer : h.Sparing (StartOf blocks)
        (do if own.container then Heap.act (Heap.free slot.toNat)) :=
      Heap.sparing_free_if fun _ => ⟨b, listed, start⟩
    unfold release
    rw [null, if_neg Bool.false_ne_true]
    dsimp only
    split
    · rename_i visited
      obtain ⟨elements, holds⟩ := Bool.and_eq_true_iff.1 visited
      rw [plain] at holds
      obtain ⟨parts, within, guarded, inside, room, packed, bounds⟩ := holding holds
      have size := size_of_elementHoldsMemory holds
      rw [← start, size]
      refine .after_read (p := (· ≤ parts.length)) (fun g same => ?_) fun count few => ?_
      · have agrees := (Heap.prolongs_of_bytes_eq same).agrees [b]
        exact arrayLength_le (bounds.agree inside agrees) holds
      · rw [start]
        refine .bind (sparing_forPositions few (fun i below p part item => ?_) packed) fun _ => outer
        have reach : (i + 1) * pointerSize ≤ parts.length * pointerSize :=
          Nat.mul_le_mul_right _ (by omega)
        rw [Nat.add_one_mul] at reach
        have accessible : h.Accessible (b.address + i * pointerSize) pointerSize := by
          simp only [Heap.Accessible, Block.stop] at *
          omega
        rw [← start, elementAddress_of_accessible accessible]
        refine .after (fun _ _ => rfl) (.after_load accessible ?_)
        exact (items item).mono (StartOf.mono (within p part))
    · exact outer

theorem release_list_sparing {element : Descriptor} {singlyLinked pointer : Bool}
    (items : ∀ {s : Slot} {p : Footprint}, Confined h element s none p.all →
      h.Sparing (StartOf p.all) (release element s own.nested none))
    (confined : Confined h (.list element singlyLinked pointer) slot given blocks) :
    h.Sparing (StartOf blocks) (release (.list element singlyLinked pointer) slot own given) := by
  cases null : slot.isNull with
  | true => exact release_null_sparing null
  | false =>
    obtain ⟨links, within, linked⟩ := (confined_list null).1 confined
    unfold release
    rw [null, if_neg Bool.false_ne_true]
    refine sparing_forNodes (sixteen_le_nodeSize singlyLinked)
      (fun l listed guarded inside item => ?_) linked
    have node : h.Sparing (StartOf blocks)
        (do if own.container then Heap.act (Heap.free l.node.address)) :=
      Heap.sparing_free_if fun _ => ⟨l.node, (within l listed).1, rfl⟩
    dsimp only
    split
    · refine .after_load ⟨guarded, by omega⟩ (.bind ?_ fun _ => node)
      exact (items item).mono (StartOf.mono (within l listed).2)
    · exact node

/-- A pass without references stays within the blocks that a value is confined to. -/
theorem release_sparing {d : Descriptor} (plain : own.references = false)
    (confined : Confined h d slot given blocks) :
    h.Sparing (StartOf blocks) (release d slot own given) := by
  induction d generalizing slot own given blocks with
  | basic type pointer => exact release_basic_sparing confined
  | named type name pointer => exact release_named_sparing plain confined
  | hash key value pointer =>
    unfold release
    split <;> exact Heap.sparing_pure ()
  | array element mode form pointer ih =>
    have nested : own.nested.references = false := plain
    exact release_array_sparing plain (ih nested) confined
  | list element singlyLinked pointer ih =>
    have nested : own.nested.references = false := plain
    exact release_list_sparing (ih nested) confined

end Release

end Passes

end ForeignCall
