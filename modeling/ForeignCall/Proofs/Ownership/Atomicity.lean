import ForeignCall.Proofs.Ownership.ConfinedLowering

/-!
Lowering that fails leaves nothing behind.

A value can be refused at any element of any container in it, after earlier ones were packed. What was
in the heap before is never touched, and as long as the release passes can tell how much there is, they
give back all that was packed by then.
-/

set_option autoImplicit false

namespace ForeignCall

open ForeignCall.Action

variable {α : Type} {x : ConversionM α} {unwinds : Prop}

/-- Whether it succeeds or fails, the action keeps all bytes and live blocks of before. If it fails and
`unwinds` holds, then no other block is live. -/
def Atomic (x : ConversionM α) (unwinds : Prop) : Prop :=
  ∀ m, x.Gives m (fun _ t => m.heap.Retains t.heap)
    (fun _ t => m.heap.Retains t.heap ∧ (unwinds → t.heap.blockSize? = m.heap.blockSize?))
    fun halt => unwinds → halt = .exhausted

theorem atomic_of_gives
    (retains : ∀ m, x.Gives m (fun _ t => m.heap.Retains t.heap) (fun _ t => m.heap.Retains t.heap)
      fun _ => True)
    (grows : unwinds → ∀ m, x.Gives m (fun _ _ => True) fun _ t => m.heap.Grows t.heap []) :
    Atomic x unwinds := by
  intro m
  by_cases holds : unwinds
  · have both := ((grows holds m).both (retains m)).mono_halted fun _ exhausted (_ : unwinds) => exhausted
    exact both.mono (fun _ _ kept => kept.2) fun _ _ kept => ⟨kept.2, fun _ => kept.1.blockSize?_eq⟩
  · refine ((retains m).mono (fun _ _ kept => kept) fun _ _ kept => ⟨kept, ?_⟩).mono_halted fun _ _ => ?_
    · exact fun given => absurd given holds
    · exact fun given => absurd given holds

variable {env : Environment} {d : Descriptor} {v : Value} {nullable : Bool}

theorem Confines.atomic {y : ConversionM Slot} (confines : Confines y d)
    (lowers : unwinds → ∃ allocates, Lowers y d allocates) : Atomic y unwinds := by
  refine atomic_of_gives (fun m => (confines m).mono ?_ fun _ _ kept => kept) fun holds m => ?_
  · rintro slot t ⟨blocks, -, adds⟩
    exact adds.toRetains
  · obtain ⟨allocates, gives⟩ := lowers holds
    exact (gives m).mono (fun _ _ _ => trivial) fun _ _ grows => grows

theorem lower_atomic : Atomic (lower env d v nullable) (d.isMeasuredWithin = true) :=
  (lower_confines d v nullable).atomic fun measured => ⟨_, lower_lowers measured nullable v⟩

theorem lowerArray_atomic : Atomic (lowerArray env d v nullable) (d.isMeasuredWithin = true) := by
  refine atomic_of_gives (fun m => (lowerArray_confines m).mono ?_ fun _ _ kept => kept)
    fun measured m => ?_
  · rintro packed t ⟨blocks, adds, -⟩
    exact adds.toRetains
  · exact (lowerArray_gives measured m).mono (fun _ _ _ => trivial) fun _ _ grows => grows

theorem lowerList_atomic : Atomic (lowerList env d v) (d.isMeasuredWithin = true) := by
  cases d with
  | list element singlyLinked pointer =>
    refine (buildList_confines fun item => lower_confines element item false).atomic fun measured => ?_
    have within := Descriptor.isMeasuredWithin_of_isMeasured measured
    exact ⟨_, buildList_lowers (fun item => lower_lowers within false item) measured⟩
  | _ =>
    refine atomic_of_gives (fun m => ?_) fun _ m => ?_
    · exact Heap.Retains.refl m.heap
    · exact Heap.Grows.refl m.heap

/-- Lowering a value, an array or a list touches nothing that was in the heap before, whatever becomes
of it. If it fails, exactly the blocks of before are live, provided that each array nested in another
container is of fixed size or has elements that own no memory. -/
theorem lowering_atomic (env : Environment) (d : Descriptor) (v : Value) (nullable : Bool) :
    Atomic (lower env d v nullable) (d.isMeasuredWithin = true) ∧
      Atomic (lowerArray env d v nullable) (d.isMeasuredWithin = true) ∧
      Atomic (lowerList env d v) (d.isMeasuredWithin = true) :=
  ⟨lower_atomic, lowerArray_atomic, lowerList_atomic⟩

/-- A list is built from its end, so that a whole row and half of another one are given back here. The
rows of an array of unknown length are not. -/
example :
    let rows (mode : ArrayLength) : Descriptor :=
      .list (.array (.basic (.string false) true) mode .c true) false true
    let v : Value := .array [.array [.string "a", .bool true], .array [.string "b", .string "c"]]
    ((lower ⟨.initial, .pin⟩ (rows (.fixed 2)) v false).fails .empty fun _ t =>
        t.heap.liveCount == 0) = true ∧
      ((lower ⟨.initial, .pin⟩ (rows .unspecified) v false).fails .empty fun _ t =>
        t.heap.liveCount == 4) = true := by
  decide +kernel

end ForeignCall
