import ForeignCall.Conversion.Release
import ForeignCall.Proofs.Heap.Blocks

/-!
What a native value owns.

`Owns h d slot count f` relates a slot of type `d` to the blocks that belong to the value in it: the
outer ones, which the slot leads to, and the inner ones, which belong to the elements. It reads the
bytes of the heap only, so that it outlives the freeing of the blocks, and only those inside the
blocks, so that it survives whatever is written elsewhere.
-/

set_option autoImplicit false

namespace ForeignCall

structure Footprint where
  outer : List Block
  inner : List Block
  deriving DecidableEq, Repr

namespace Footprint

def empty : Footprint := ⟨[], []⟩

def all (f : Footprint) : List Block := f.inner ++ f.outer

/-- The blocks that a release pass frees. -/
def held (f : Footprint) (own : Holding) : List Block :=
  (if own.elements then f.inner else []) ++ (if own.container then f.outer else [])

@[simp] theorem all_empty : empty.all = [] := rfl

@[simp] theorem held_nested (f : Footprint) (own : Holding) : f.held own.nested = f.all := rfl

end Footprint

structure Link where
  node : Block
  item : Footprint

/-- From `position` on, the buffer at `base` holds the slots of values that own `parts`. -/
def Packed (h : Heap) (item : Slot → Footprint → Prop) (size base : Nat) :
    Nat → List Footprint → Prop
  | _, [] => True
  | position, f :: rest =>
    item (h.slotAt (base + position * size) size) f ∧ Packed h item size base (position + 1) rest

/-- The chain at `head` consists of nodes of `size` bytes whose elements own the given parts. -/
def Linked (h : Heap) (item : Slot → Footprint → Prop) (size : Nat) : Nat → List Link → Prop
  | head, [] => head = 0
  | head, l :: rest =>
    l.node = ⟨head, size⟩ ∧ Heap.guardSize ≤ head ∧ head + size ≤ h.size ∧
      item (h.slotAt head 8) l.item ∧ Linked h item size (h.slotAt (head + nextOffset) 8).toNat rest

def ArrayLength.isFixed : ArrayLength → Bool
  | .fixed _ => true
  | _ => false

/-- The block `b` holds an error record, and `texts` is the block of its message if it has one. -/
structure Heap.ErrorAt (h : Heap) (b : Block) (texts : List Block) : Prop where
  guarded : guardSize ≤ b.address
  inside : b.stop ≤ h.size
  room : errorSize ≤ b.size
  message : texts.map Block.address =
    if (h.slotAt (b.address + 8) 8).isNull then [] else [(h.slotAt (b.address + 8) 8).toNat]

/-- The buffer `b` holds `count` slots that are not null, with a terminator behind them. -/
structure Heap.Terminated (h : Heap) (b : Block) (count : Nat) : Prop where
  guarded : guardSize ≤ b.address
  inside : b.stop ≤ h.size
  room : (count + 1) * pointerSize ≤ b.size
  marked : ∀ i < count, (h.slotAt (b.address + i * pointerSize) pointerSize).isNull = false
  ended : ∀ x, b.address + count * pointerSize ≤ x → x < b.address + (count + 1) * pointerSize →
    h.byteAt x = 0

/-- Whether the count of an array that owns `f` matters to no pass, is fixed, or is found by the
terminator. -/
def Descriptor.Ended (d : Descriptor) (h : Heap) (slot : Slot) (count : Nat) (f : Footprint) : Prop :=
  match d with
  | .array element mode _ _ =>
    slot.isNull = true ∨ elementHoldsMemory element false = false ∨ mode.isFixed = true ∨
      mode = .zeroTerminated ∧ ∃ b ∈ f.outer, b.address = slot.toNat ∧ h.Terminated b count
  | _ => True

/-- Whether the value of type `d` in a slot, of `count` elements if it is an array, owns `f`. Nobody
is told the count of an array within another value. -/
def Owns (h : Heap) (d : Descriptor) (slot : Slot) (count : Nat) (f : Footprint) : Prop :=
  if slot.isNull then f = .empty
  else
    match d with
    | .basic (.string _) _ => ∃ b : Block, b.address = slot.toNat ∧ f = ⟨[b], []⟩
    | .basic .error _ => ∃ (b : Block) (texts : List Block),
      b.address = slot.toNat ∧ f = ⟨texts ++ [b], []⟩ ∧ h.ErrorAt b texts
    | .named (.structured _ byValue) _ pointer =>
      if byValue && !pointer then ∃ b : Block, b.address = slot.toNat ∧ f = ⟨[b], []⟩
      else f = .empty
    | .array element mode _ _ =>
      ∃ (b : Block) (parts : List Footprint),
        b.address = slot.toNat ∧ f = ⟨[b], parts.flatMap (·.all)⟩ ∧ parts.length = count ∧
          (∀ n, mode = .fixed n → count = n) ∧
          Heap.guardSize ≤ b.address ∧ b.stop ≤ h.size ∧ parts.length * element.size ≤ b.size ∧
          (elementHoldsMemory element false = true →
            Packed h (fun s g => ∃ n, Owns h element s n g ∧ element.Ended h s n g) element.size
              b.address 0 parts) ∧
          (elementHoldsMemory element false = false → ∀ p ∈ parts, p = .empty)
    | .list element singlyLinked _ =>
      ∃ links : List Link,
        f = ⟨links.map (·.node), links.flatMap (·.item.all)⟩ ∧ (links.map (·.node)).Nodup ∧
          Linked h (fun s g => ∃ n, Owns h element s n g ∧ element.Ended h s n g)
            (nodeSize singlyLinked) slot.toNat links
    | _ => f = .empty

/-- Whether the value in a slot owns `f`, as an element of a container. -/
def OwnsItem (h : Heap) (d : Descriptor) (slot : Slot) (f : Footprint) : Prop :=
  ∃ n, Owns h d slot n f ∧ d.Ended h slot n f

section Equations

variable {h : Heap} {slot : Slot} {count : Nat} {f : Footprint}

theorem owns_null {d : Descriptor} (null : slot.isNull = true) :
    Owns h d slot count f ↔ f = .empty := by
  unfold Owns
  rw [if_pos null]

theorem owns_empty_of_null {d : Descriptor} (null : slot.isNull = true) :
    Owns h d slot count .empty := (owns_null null).2 rfl

theorem owns_string {filename pointer : Bool} (some : slot.isNull = false) :
    Owns h (.basic (.string filename) pointer) slot count f ↔
      ∃ b : Block, b.address = slot.toNat ∧ f = ⟨[b], []⟩ := by
  unfold Owns
  rw [if_neg (by simp [some])]

theorem owns_error {pointer : Bool} (some : slot.isNull = false) :
    Owns h (.basic .error pointer) slot count f ↔
      ∃ (b : Block) (texts : List Block), b.address = slot.toNat ∧ f = ⟨texts ++ [b], []⟩ ∧
        h.ErrorAt b texts := by
  unfold Owns
  rw [if_neg (by simp [some])]

theorem owns_structured {size : Option Nat} {byValue pointer : Bool} {name : String}
    (some : slot.isNull = false) :
    Owns h (.named (.structured size byValue) name pointer) slot count f ↔
      if byValue && !pointer then ∃ b : Block, b.address = slot.toNat ∧ f = ⟨[b], []⟩
      else f = .empty := by
  unfold Owns
  rw [if_neg (by simp [some])]

theorem owns_array {element : Descriptor} {mode : ArrayLength} {form : ArrayForm} {pointer : Bool}
    (some : slot.isNull = false) :
    Owns h (.array element mode form pointer) slot count f ↔
      ∃ (b : Block) (parts : List Footprint),
        b.address = slot.toNat ∧ f = ⟨[b], parts.flatMap (·.all)⟩ ∧ parts.length = count ∧
          (∀ n, mode = .fixed n → count = n) ∧
          Heap.guardSize ≤ b.address ∧ b.stop ≤ h.size ∧ parts.length * element.size ≤ b.size ∧
          (elementHoldsMemory element false = true →
            Packed h (OwnsItem h element) element.size b.address 0 parts) ∧
          (elementHoldsMemory element false = false → ∀ p ∈ parts, p = .empty) := by
  rw [Owns, if_neg (by simp [some])]
  rfl

theorem owns_list {element : Descriptor} {singlyLinked pointer : Bool}
    (some : slot.isNull = false) :
    Owns h (.list element singlyLinked pointer) slot count f ↔
      ∃ links : List Link,
        f = ⟨links.map (·.node), links.flatMap (·.item.all)⟩ ∧ (links.map (·.node)).Nodup ∧
          Linked h (OwnsItem h element) (nodeSize singlyLinked) slot.toNat links := by
  rw [Owns, if_neg (by simp [some])]
  rfl

end Equations

theorem Owns.inner_eq_nil {h : Heap} {d : Descriptor} {slot : Slot} {count : Nat} {f : Footprint}
    (owns : Owns h d slot count f) (bare : f.outer = []) : f.inner = [] := by
  cases null : slot.isNull with
  | true => rw [(owns_null null).1 owns, Footprint.empty]
  | false =>
    unfold Owns at owns
    rw [if_neg (by simp [null])] at owns
    split at owns
    · obtain ⟨b, -, rfl⟩ := owns
      rfl
    · obtain ⟨b, texts, -, rfl, -⟩ := owns
      rfl
    · split at owns
      · obtain ⟨b, -, rfl⟩ := owns
        rfl
      · rw [owns, Footprint.empty]
    · obtain ⟨b, parts, -, rfl, -⟩ := owns
      cases bare
    · obtain ⟨links, rfl, -⟩ := owns
      rw [List.map_eq_nil_iff.1 bare, List.flatMap_nil]
    · rw [owns, Footprint.empty]

namespace Descriptor

/-- Whether a release pass that is told no element count can find all that values of the type own:
every array among them is of fixed size or has elements that own no memory. -/
def isMeasured : Descriptor → Bool
  | .array element mode _ _ =>
    (mode.isFixed || !elementHoldsMemory element false) && element.isMeasured
  | .list element _ _ => element.isMeasured
  | _ => true

def isMeasuredWithin : Descriptor → Bool
  | .array element _ _ _ | .list element _ _ => element.isMeasured
  | _ => true

/-- Whether no value of the type is a struct or an object behind a pointer, nor holds one. -/
def isReferenceFree : Descriptor → Bool
  | .array element _ _ _ | .list element _ _ => element.isReferenceFree
  | d => !d.isReference

def Told (d : Descriptor) (given : Option Nat) (count : Nat) : Prop :=
  match d with
  | .array element mode _ _ =>
    given = some count ∨ (given = none ∧ mode.isFixed = true) ∨
      elementHoldsMemory element false = false
  | _ => True

theorem isMeasuredWithin_of_isMeasured {d : Descriptor} (measured : d.isMeasured = true) :
    d.isMeasuredWithin = true := by
  cases d <;> simp_all [isMeasured, isMeasuredWithin]

theorem ended_of_isMeasured {d : Descriptor} (measured : d.isMeasured = true) (h : Heap) (slot : Slot)
    (count : Nat) (f : Footprint) : d.Ended h slot count f := by
  cases d with
  | array element mode form pointer =>
    simp only [isMeasured, Bool.and_eq_true, Bool.or_eq_true, Bool.not_eq_true'] at measured
    exact .inr (measured.1.elim (fun fixed => .inr (.inl fixed)) .inl)
  | _ => trivial

end Descriptor

theorem size_of_elementHoldsMemory {element : Descriptor}
    (holds : elementHoldsMemory element false = true) : element.size = pointerSize := by
  unfold elementHoldsMemory at holds
  split at holds <;> first | rfl | simp at holds

/-! ### Frame -/

section Frame

variable {h g : Heap} {item item' : Slot → Footprint → Prop} {size base position head : Nat}

theorem Packed.frame {parts : List Footprint} (packed : Packed h item size base position parts)
    (same : ∀ x, base ≤ x → x < base + (position + parts.length) * size →
      g.byteAt x = h.byteAt x)
    (items : ∀ p ∈ parts, ∀ s, item s p → item' s p) :
    Packed g item' size base position parts := by
  induction parts generalizing position with
  | nil => trivial
  | cons p rest ih =>
    have reach :
        (position + (rest.length + 1)) * size = position * size + size + rest.length * size := by
      ring
    simp only [List.length_cons] at same
    have slots : g.slotAt (base + position * size) size = h.slotAt (base + position * size) size :=
      Heap.slotAt_congr fun x above below => same x (by omega) (by omega)
    refine ⟨?_, ih packed.2 (fun x above below => same x above ?_)
      fun q later => items q (by simp [later])⟩
    · rw [slots]
      exact items p (by simp) _ packed.1
    · rwa [show position + 1 + rest.length = position + (rest.length + 1) by omega] at below

theorem Linked.frame {links : List Link} (linked : Linked h item size head links)
    (room : ∀ l ∈ links, l.node.stop ≤ h.size → l.node.stop ≤ g.size)
    (same : ∀ l ∈ links, ∀ x, l.node.address ≤ x → x < l.node.address + 16 →
      g.byteAt x = h.byteAt x)
    (items : ∀ l ∈ links, ∀ s, item s l.item → item' s l.item) :
    Linked g item' size head links := by
  induction links generalizing head with
  | nil => exact linked
  | cons l rest ih =>
    obtain ⟨node, guarded, inside, owned, tail⟩ := linked
    have here := same l (by simp)
    simp only [node] at here
    have element : g.slotAt head 8 = h.slotAt head 8 :=
      Heap.slotAt_congr fun x above below => here x above (by omega)
    have next : g.slotAt (head + nextOffset) 8 = h.slotAt (head + nextOffset) 8 :=
      Heap.slotAt_congr fun x above below =>
        here x (by omega) (by simp only [nextOffset] at below; omega)
    have fits := room l (by simp)
    rw [node] at fits
    refine ⟨node, guarded, fits inside, ?_, ?_⟩
    · rw [element]
      exact items l (by simp) _ owned
    · rw [next]
      exact ih tail (fun q later => room q (by simp [later])) (fun q later => same q (by simp [later]))
        fun q later => items q (by simp [later])

theorem sixteen_le_nodeSize (singlyLinked : Bool) : 16 ≤ nodeSize singlyLinked := by
  cases singlyLinked <;> decide

theorem Linked.node_size {links : List Link} (linked : Linked h item size head links) :
    ∀ l ∈ links, l.node.size = size := by
  induction links generalizing head with
  | nil => simp
  | cons l rest ih =>
    intro q listed
    rcases List.mem_cons.1 listed with rfl | later
    · rw [linked.1]
    · exact ih linked.2.2.2.2 q later

theorem Linked.node_inside {links : List Link} (linked : Linked h item size head links) :
    ∀ l ∈ links, l.node.stop ≤ h.size := by
  induction links generalizing head with
  | nil => simp
  | cons l rest ih =>
    intro q listed
    rcases List.mem_cons.1 listed with rfl | later
    · rw [linked.1]
      exact linked.2.2.1
    · exact ih linked.2.2.2.2 q later

/-- `g` has the bytes that `h` has in the blocks. -/
structure Heap.Agrees (h g : Heap) (blocks : List Block) : Prop where
  room : ∀ b ∈ blocks, b.stop ≤ h.size → b.stop ≤ g.size
  byteAt_eq : ∀ b ∈ blocks, ∀ x, b.address ≤ x → x < b.stop → x < h.size → g.byteAt x = h.byteAt x

theorem Heap.Agrees.subset {blocks more : List Block} (same : h.Agrees g blocks)
    (fewer : more ⊆ blocks) : h.Agrees g more :=
  ⟨fun b listed => same.room b (fewer listed), fun b listed => same.byteAt_eq b (fewer listed)⟩

theorem Heap.Agrees.of_size_le {blocks : List Block} (grown : h.size ≤ g.size)
    (same : ∀ b ∈ blocks, ∀ x, b.address ≤ x → x < b.stop → x < h.size → g.byteAt x = h.byteAt x) :
    h.Agrees g blocks :=
  ⟨fun _ _ inside => Nat.le_trans inside grown, same⟩

theorem Heap.ErrorAt.agree {b : Block} {texts : List Block} (error : h.ErrorAt b texts)
    (same : h.Agrees g [b]) : g.ErrorAt b texts where
  guarded := error.guarded
  inside := same.room b (List.mem_singleton_self _) error.inside
  room := error.room
  message := by
    have room := error.room
    have inside := error.inside
    simp only [Heap.errorSize] at room
    have pointer : g.slotAt (b.address + 8) 8 = h.slotAt (b.address + 8) 8 := by
      refine Heap.slotAt_congr fun x above below =>
        same.byteAt_eq b (List.mem_singleton_self _) x ?_ ?_ ?_
      · omega
      · simp only [Block.stop]
        omega
      · simp only [Block.stop] at inside
        omega
    rw [pointer]
    exact error.message

theorem Heap.Terminated.agree {b : Block} {count : Nat} (terminated : h.Terminated b count)
    (same : h.Agrees g [b]) : g.Terminated b count where
  guarded := terminated.guarded
  inside := same.room b (List.mem_singleton_self _) terminated.inside
  room := terminated.room
  marked i below := by
    have room := terminated.room
    have inside := terminated.inside
    have reach : (i + 1) * pointerSize ≤ count * pointerSize := Nat.mul_le_mul_right _ below
    rw [Nat.add_one_mul] at reach room
    simp only [Block.stop] at inside
    rw [Heap.slotAt_congr fun x above under => same.byteAt_eq b (List.mem_singleton_self _) x
      (by omega) (by simp only [Block.stop]; omega) (by omega)]
    exact terminated.marked i below
  ended x above below := by
    have room := terminated.room
    have inside := terminated.inside
    simp only [Block.stop] at inside
    rw [same.byteAt_eq b (List.mem_singleton_self _) x (by omega) (by simp only [Block.stop]; omega)
      (by omega)]
    exact terminated.ended x above below

theorem Descriptor.Ended.agree {d : Descriptor} {slot : Slot} {count : Nat} {f : Footprint}
    (ended : d.Ended h slot count f) (same : h.Agrees g f.outer) :
    d.Ended g slot count f := by
  cases d with
  | array element mode form pointer =>
    refine ended.imp_right (Or.imp_right (Or.imp_right ?_))
    rintro ⟨mode, b, listed, start, terminated⟩
    refine ⟨mode, b, listed, start, terminated.agree (same.subset ?_)⟩
    exact List.cons_subset.2 ⟨listed, List.nil_subset _⟩
  | _ => trivial

/-- Of an array the bytes of its buffer matter, and those of its elements. -/
theorem Owns.agree_array {element : Descriptor} {mode : ArrayLength} {form : ArrayForm}
    {pointer : Bool} {slot : Slot} {count : Nat} {f : Footprint}
    (owns : Owns h (.array element mode form pointer) slot count f) (same : h.Agrees g f.outer)
    (items : ∀ p : Footprint, p.all ⊆ f.inner → ∀ s, OwnsItem h element s p → OwnsItem g element s p) :
    Owns g (.array element mode form pointer) slot count f := by
  cases null : slot.isNull with
  | true => exact (owns_null null).2 ((owns_null null).1 owns)
  | false =>
    rw [owns_array null] at owns ⊢
    obtain ⟨b, parts, start, rfl, counted, fixed, guarded, inside, room, holding, bare⟩ := owns
    refine ⟨b, parts, start, rfl, counted, fixed, guarded,
      same.room b (List.mem_singleton_self b) inside, room, fun holds => ?_, bare⟩
    refine (holding holds).frame (fun x above below => ?_) fun p listed => items p fun c piece =>
      List.mem_flatMap.2 ⟨p, listed, piece⟩
    rw [Nat.zero_add] at below
    simp only [Block.stop] at inside
    refine same.byteAt_eq b (List.mem_singleton_self b) x above ?_ (by omega)
    simp only [Block.stop]
    omega

/-- Of a list the bytes of its nodes matter, and those of its elements. -/
theorem Owns.agree_list {element : Descriptor} {singlyLinked pointer : Bool} {slot : Slot}
    {count : Nat} {f : Footprint} (owns : Owns h (.list element singlyLinked pointer) slot count f)
    (same : h.Agrees g f.outer)
    (items : ∀ p : Footprint, p.all ⊆ f.inner → ∀ s, OwnsItem h element s p → OwnsItem g element s p) :
    Owns g (.list element singlyLinked pointer) slot count f := by
  cases null : slot.isNull with
  | true => exact (owns_null null).2 ((owns_null null).1 owns)
  | false =>
    rw [owns_list null] at owns ⊢
    obtain ⟨links, rfl, distinct, linked⟩ := owns
    have node {l : Link} (listed : l ∈ links) : l.node ∈ links.map (·.node) :=
      List.mem_map.2 ⟨l, listed, rfl⟩
    refine ⟨links, rfl, distinct, linked.frame (fun l listed => same.room l.node (node listed))
      (fun l listed x above below => ?_) fun l listed => items l.item fun c piece =>
        List.mem_flatMap.2 ⟨l, listed, piece⟩⟩
    have := linked.node_size l listed
    have := sixteen_le_nodeSize singlyLinked
    have := linked.node_inside l listed
    exact same.byteAt_eq l.node (node listed) x above (by simp only [Block.stop]; omega)
      (by simp only [Block.stop] at this; omega)

/-- Only the bytes inside the blocks matter, and of these only those that the heap has. -/
theorem Owns.agree {d : Descriptor} {slot : Slot} {count : Nat} {f : Footprint}
    (owns : Owns h d slot count f) (same : h.Agrees g f.all) : Owns g d slot count f := by
  induction d generalizing slot count f with
  | basic type pointer =>
    cases type with
    | error =>
      cases null : slot.isNull with
      | true => exact (owns_null null).2 ((owns_null null).1 owns)
      | false =>
        rw [owns_error null] at owns ⊢
        obtain ⟨b, texts, start, rfl, error⟩ := owns
        refine ⟨b, texts, start, rfl, error.agree (same.subset ?_)⟩
        simp [Footprint.all]
    | _ => exact owns
  | named type name pointer => cases type <;> exact owns
  | hash key value pointer => exact owns
  | array element mode form pointer ih =>
    refine owns.agree_array (same.subset (List.subset_append_right _ _)) ?_
    rintro p part s ⟨n, owned, ended⟩
    have kept := same.subset (List.Subset.trans part (List.subset_append_left _ _))
    exact ⟨n, ih owned kept, ended.agree (kept.subset (List.subset_append_right _ _))⟩
  | list element singlyLinked pointer ih =>
    refine owns.agree_list (same.subset (List.subset_append_right _ _)) ?_
    rintro p part s ⟨n, owned, ended⟩
    have kept := same.subset (List.Subset.trans part (List.subset_append_left _ _))
    exact ⟨n, ih owned kept, ended.agree (kept.subset (List.subset_append_right _ _))⟩

theorem Owns.frame {d : Descriptor} {slot : Slot} {count : Nat} {f : Footprint}
    (owns : Owns h d slot count f) (grown : h.size ≤ g.size)
    (same : ∀ b ∈ f.all, ∀ x, b.address ≤ x → x < b.stop → g.byteAt x = h.byteAt x) :
    Owns g d slot count f :=
  owns.agree (.of_size_le grown fun b listed x above below _ => same b listed x above below)

theorem Heap.Prolongs.agrees (prolongs : h.Prolongs g) (blocks : List Block) : h.Agrees g blocks :=
  .of_size_le prolongs.size_le fun _ _ x _ _ inside => prolongs.byteAt_eq x inside

theorem Owns.prolongs {d : Descriptor} {slot : Slot} {count : Nat} {f : Footprint}
    (owns : Owns h d slot count f) (prolongs : h.Prolongs g) : Owns g d slot count f :=
  owns.agree (prolongs.agrees _)

theorem OwnsItem.prolongs {d : Descriptor} {slot : Slot} {f : Footprint} (owns : OwnsItem h d slot f)
    (prolongs : h.Prolongs g) : OwnsItem g d slot f := by
  obtain ⟨n, owned, ended⟩ := owns
  exact ⟨n, owned.prolongs prolongs, ended.agree (prolongs.agrees _)⟩

theorem OwnsItem.frame {d : Descriptor} {slot : Slot} {f : Footprint} (owns : OwnsItem h d slot f)
    (grown : h.size ≤ g.size)
    (same : ∀ b ∈ f.all, ∀ x, b.address ≤ x → x < b.stop → g.byteAt x = h.byteAt x) :
    OwnsItem g d slot f := by
  obtain ⟨n, owned, ended⟩ := owns
  refine ⟨n, owned.frame grown same, ended.agree (.of_size_le grown ?_)⟩
  exact fun b listed x above below _ => same b (List.mem_append_right _ listed) x above below

theorem OwnsItem.of_sheds {d : Descriptor} {slot : Slot} {f : Footprint} {blocks : List Block}
    (owns : OwnsItem h d slot f) (sheds : h.Sheds g blocks) : OwnsItem g d slot f :=
  owns.prolongs sheds.prolongs

theorem Owns.of_sheds {d : Descriptor} {slot : Slot} {count : Nat} {f : Footprint}
    {blocks : List Block} (owns : Owns h d slot count f) (sheds : h.Sheds g blocks) :
    Owns g d slot count f :=
  owns.prolongs sheds.prolongs

end Frame

end ForeignCall
