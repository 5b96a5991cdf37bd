import ForeignCall.Proofs.Conversion.Measuring

/-!
Values with structs and objects behind pointers.

Such a struct or object is not owned by the value that refers to it: a wrapper takes it over when the
value is lifted. To a pass that holds references it is a block like a text. So there are two footprints
of a value, and what it owns by itself is a part of what it owns when references count as blocks.
-/

set_option autoImplicit false

namespace ForeignCall

variable {h g : Heap} {d element : Descriptor} {slot : Slot} {count : Nat} {f : Footprint}
  {own : Holding} {given : Option Nat}

/-! ### Measuring in a later heap -/

section Later

variable {base address length : Nat}

theorem Heap.Prolongs.slice_eq (prolongs : h.Prolongs g) (within : h.Accessible address length) :
    g.Accessible address length ∧ g.slice address length = h.slice address length := by
  have inside := within.2
  have grown := prolongs.size_le
  exact ⟨⟨within.1, by omega⟩, Heap.slice_congr fun x _ below => prolongs.byteAt_eq x (by omega)⟩

theorem Heap.Prolongs.load (prolongs : h.Prolongs g)
    (run : Heap.load address length h = .ok slot h) : Heap.load address length g = .ok slot g := by
  by_cases within : h.Accessible address length
  · obtain ⟨within', same⟩ := prolongs.slice_eq within
    rw [Heap.load_eq within] at run
    rw [Heap.load_eq within', Heap.slotAt, same]
    cases run
    rfl
  · rw [Heap.load, Action.bind_of_error (by rw [Heap.read, if_neg within])] at run
    cases run

theorem Heap.Prolongs.zeroed_iff (prolongs : h.Prolongs g) (within : h.Accessible address length) :
    g.Zeroed address length ↔ h.Zeroed address length := by
  rw [← Heap.all_slice_iff, ← Heap.all_slice_iff, (prolongs.slice_eq within).2]

theorem Heap.Prolongs.terminatedLength (prolongs : h.Prolongs g)
    (run : terminatedLength element base h = .ok count h) :
    ForeignCall.terminatedLength element base g = .ok count g := by
  obtain ⟨-, ⟨passes, ends⟩, last⟩ := terminatedLength_eq_ok_iff.1 run
  refine terminatedLength_eq_ok_iff.2 ⟨rfl, ⟨fun i above below => ?_, fun _ => ?_⟩,
    (prolongs.slice_eq last).1⟩
  · obtain ⟨inside, marked⟩ := passes i above below
    exact ⟨(prolongs.slice_eq inside).1, mt (prolongs.zeroed_iff inside).1 marked⟩
  · exact (prolongs.zeroed_iff last).2 (ends last)

theorem Heap.Prolongs.arrayLength (prolongs : h.Prolongs g)
    (run : arrayLength d base given h = .ok count h) :
    ForeignCall.arrayLength d base given g = .ok count g := by
  unfold ForeignCall.arrayLength at run ⊢
  split at run
  · split at run
    · cases run
      rfl
    · cases run
      rfl
    · exact prolongs.terminatedLength run
    · cases run
    · cases run
  · cases run

theorem Heap.Prolongs.counted (prolongs : h.Prolongs g) (counted : d.Counted h slot given count) :
    d.Counted g slot given count := fun some =>
  (counted some).imp_right prolongs.arrayLength

end Later

namespace Descriptor

theorem elementHoldsMemory_mono (holds : elementHoldsMemory d false = true) :
    elementHoldsMemory d.asBlocks false = true := by
  rw [elementHoldsMemory_asBlocks]
  unfold elementHoldsMemory at *
  split <;> simp_all

theorem bare_of_asBlocks (bare : elementHoldsMemory d.asBlocks false = false) :
    elementHoldsMemory d false = false := by
  by_contra holds
  rw [elementHoldsMemory_mono (by simpa using holds)] at bare
  cases bare

/-- The count that is known of a value whose references count as blocks is known of the value. -/
theorem counted_of_asBlocks (counted : d.asBlocks.Counted h slot given count) :
    d.Counted h slot given count := by
  intro some
  cases d with
  | array element mode form pointer =>
    rcases counted some with (told | ⟨rfl, fixed⟩ | bare) | run
    · exact .inl (.inl told)
    · exact .inl (.inr (.inl ⟨rfl, fixed⟩))
    · exact .inl (.inr (.inr (bare_of_asBlocks bare)))
    · exact .inr (arrayLength_of_size element.size_asBlocks run)
  | _ => exact .inl trivial

end Descriptor

/-! ### The parts that are owned -/

/-- Block by block, one footprint is part of another. -/
structure Footprint.Within (f whole : Footprint) : Prop where
  outer : f.outer.Sublist whole.outer
  inner : f.inner.Sublist whole.inner

namespace Footprint.Within

variable {whole : Footprint}

theorem refl (f : Footprint) : f.Within f := ⟨.refl _, .refl _⟩

theorem empty (whole : Footprint) : Footprint.empty.Within whole :=
  ⟨List.nil_sublist _, List.nil_sublist _⟩

theorem all (within : f.Within whole) : f.all.Sublist whole.all := within.inner.append within.outer

theorem held (within : f.Within whole) (own : Holding) : (f.held own).Sublist (whole.held own) := by
  refine List.Sublist.append ?_ ?_
  · cases own.elements
    · exact .refl _
    · exact within.inner
  · cases own.container
    · exact .refl _
    · exact within.outer

end Footprint.Within

theorem flatMap_sublist {α β γ : Type} {part : α → β → Prop} {as : List α} {bs : List β}
    {f : α → List γ} {g : β → List γ} (parts : List.Forall₂ part as bs)
    (each : ∀ a b, part a b → (f a).Sublist (g b)) : (as.flatMap f).Sublist (bs.flatMap g) := by
  induction parts with
  | nil => exact .refl _
  | cons first _ ih =>
    rw [List.flatMap_cons, List.flatMap_cons]
    exact (each _ _ first).append ih

theorem Packed.exists_within {item item' : Slot → Footprint → Prop} {size base position : Nat}
    {wholes : List Footprint} (packed : Packed h item size base position wholes)
    (each : ∀ s whole, item s whole → ∃ f, item' s f ∧ f.Within whole) :
    ∃ parts, Packed h item' size base position parts ∧ List.Forall₂ Footprint.Within parts wholes := by
  induction wholes generalizing position with
  | nil => exact ⟨[], trivial, .nil⟩
  | cons whole rest ih =>
    obtain ⟨f, owned, within⟩ := each _ _ packed.1
    obtain ⟨parts, packed', within'⟩ := ih packed.2
    exact ⟨f :: parts, ⟨owned, packed'⟩, .cons within within'⟩

theorem Linked.exists_within {item item' : Slot → Footprint → Prop} {size head : Nat}
    {wholes : List Link} (linked : Linked h item size head wholes)
    (each : ∀ s whole, item s whole → ∃ f, item' s f ∧ f.Within whole) :
    ∃ links, Linked h item' size head links ∧ links.map (·.node) = wholes.map (·.node) ∧
      List.Forall₂ (fun l whole : Link => l.item.Within whole.item) links wholes := by
  induction wholes generalizing head with
  | nil => exact ⟨[], linked, rfl, .nil⟩
  | cons whole rest ih =>
    obtain ⟨node, guarded, inside, owned, tail⟩ := linked
    obtain ⟨f, owned', within⟩ := each _ _ owned
    obtain ⟨links, linked', nodes, within'⟩ := ih tail
    refine ⟨⟨whole.node, f⟩ :: links, ⟨node, guarded, inside, owned', linked'⟩, ?_,
      .cons within within'⟩
    rw [List.map_cons, List.map_cons, nodes]

theorem Descriptor.Ended.within {whole : Footprint} (ended : d.asBlocks.Ended h slot count whole)
    (owned : Owns h d.asBlocks slot count whole) (part : Owns h d slot count f)
    (within : f.Within whole) : d.Ended h slot count f := by
  cases d with
  | array element mode form pointer =>
    rcases ended with null | bare | fixed | ⟨mode, b, listed, start, terminated⟩
    · exact .inl null
    · exact .inr (.inl (bare_of_asBlocks bare))
    · exact .inr (.inr (.inl fixed))
    · cases null : slot.isNull with
      | true => exact .inl null
      | false =>
        obtain ⟨c, _, -, rfl, -⟩ := (owns_array null).1 owned
        obtain ⟨c', _, -, rfl, -⟩ := (owns_array null).1 part
        obtain rfl := List.mem_singleton.1 (within.outer.subset (List.mem_singleton_self c'))
        exact .inr (.inr (.inr ⟨mode, b, listed, start, terminated⟩))
  | _ => trivial

section Items

variable {element : Descriptor}

theorem OwnsItem.exists_within {whole : Footprint}
    (parts : ∀ {slot count whole}, Owns h element.asBlocks slot count whole →
      ∃ f, Owns h element slot count f ∧ f.Within whole)
    (item : OwnsItem h element.asBlocks slot whole) :
    ∃ f, OwnsItem h element slot f ∧ f.Within whole := by
  obtain ⟨n, owned, ended⟩ := item
  obtain ⟨f, owned', within⟩ := parts owned
  exact ⟨f, ⟨n, owned', ended.within owned owned' within⟩, within⟩

/-- The elements of an array own parts by themselves, or nothing when they hold no memory. -/
theorem exists_parts_within {wholes : List Footprint} {base : Nat}
    (items : ∀ s p, OwnsItem h element.asBlocks s p → ∃ f, OwnsItem h element s f ∧ f.Within p)
    (holding : elementHoldsMemory element.asBlocks false = true →
      Packed h (OwnsItem h element.asBlocks) element.size base 0 wholes) :
    ∃ parts, (elementHoldsMemory element false = true →
        Packed h (OwnsItem h element) element.size base 0 parts) ∧
      (elementHoldsMemory element false = false → ∀ p ∈ parts, p = .empty) ∧
      List.Forall₂ Footprint.Within parts wholes := by
  cases holds : elementHoldsMemory element false with
  | true =>
    obtain ⟨parts, packed, within⟩ :=
      (holding (Descriptor.elementHoldsMemory_mono holds)).exists_within items
    exact ⟨parts, fun _ => packed, nofun, within⟩
  | false =>
    refine ⟨wholes.map fun _ => .empty, nofun, fun _ p listed => ?_, ?_⟩
    · obtain ⟨_, -, rfl⟩ := List.mem_map.1 listed
      rfl
    · rw [List.forall₂_map_left_iff, List.forall₂_same]
      exact fun p _ => .empty p

end Items

/-- Of what a value owns when references count as blocks, it owns a part by itself. -/
theorem Owns.exists_within {whole : Footprint} (owns : Owns h d.asBlocks slot count whole) :
    ∃ f, Owns h d slot count f ∧ f.Within whole := by
  induction d generalizing slot count whole with
  | basic type pointer => exact ⟨whole, owns, .refl _⟩
  | hash key value pointer => exact ⟨whole, owns, .refl _⟩
  | named type name pointer =>
    cases type with
    | structured size byValue =>
      rw [Descriptor.asBlocks] at owns
      split at owns
      · exact ⟨whole, owns, .refl _⟩
      · rename_i other
        refine ⟨.empty, ?_, .empty _⟩
        unfold Owns
        simp [other]
    | object =>
      refine ⟨.empty, ?_, .empty _⟩
      unfold Owns
      simp
    | _ => exact ⟨whole, owns, .refl _⟩
  | array element mode form pointer ih =>
    cases null : slot.isNull with
    | true => exact ⟨whole, (owns_null null).2 ((owns_null null).1 owns), .refl _⟩
    | false =>
      obtain ⟨b, wholes, start, rfl, counted, fixed, guarded, inside, room, holding, -⟩ :=
        (owns_array null).1 owns
      rw [Descriptor.size_asBlocks] at room holding
      obtain ⟨parts, packed, bare, within⟩ :=
        exists_parts_within (fun _ _ => OwnsItem.exists_within ih) holding
      refine ⟨⟨[b], parts.flatMap (·.all)⟩, (owns_array null).2 ⟨b, parts, start, rfl, ?_, fixed,
        guarded, inside, ?_, packed, bare⟩, ⟨.refl _, ?_⟩⟩
      · rw [within.length_eq, counted]
      · rwa [within.length_eq]
      · exact flatMap_sublist within fun _ _ => Footprint.Within.all
  | list element singlyLinked pointer ih =>
    cases null : slot.isNull with
    | true => exact ⟨whole, (owns_null null).2 ((owns_null null).1 owns), .refl _⟩
    | false =>
      obtain ⟨wholes, rfl, distinct, linked⟩ := (owns_list null).1 owns
      obtain ⟨links, linked', nodes, within⟩ :=
        linked.exists_within fun _ _ => OwnsItem.exists_within ih
      refine ⟨⟨links.map (·.node), links.flatMap (·.item.all)⟩, (owns_list null).2
        ⟨links, rfl, by rwa [nodes], linked'⟩, ⟨by rw [nodes], ?_⟩⟩
      exact flatMap_sublist within fun _ _ => Footprint.Within.all

end ForeignCall
