import ForeignCall.Conversion.Release
import ForeignCall.Proofs.Heap.Blocks
import ForeignCall.Proofs.Trampolines

/-!
What a release pass does to the native state, whatever native code left there.

Reading changes nothing, and all else that a pass does is to free blocks and to take trampolines out
of their table. It may fail at any step, but what is gone stays gone.
-/

set_option autoImplicit false

namespace ForeignCall

open ForeignCall.Action

/-! ### Reading -/

theorem Heap.composes_same : Composes fun h g : Heap => g = h :=
  ⟨fun _ => rfl, fun first second => second.trans first⟩

section Reading

variable {R : Heap → Heap → Prop} (c : Composes R)

include c

theorem across_read (address length : Nat) : (Heap.read address length).Across R := fun h =>
  (Heap.gives_read (fun _ => c.refl h) fun _ => c.refl h).partly

theorem across_load (address size : Nat) : (Heap.load address size).Across R :=
  (across_read c address size).bind c fun _ => across_pure c _

theorem across_loadPointer (address : Nat) : (Heap.loadPointer address).Across R :=
  (across_load c address 8).bind c fun _ => across_pure c _

theorem across_readString (address : Nat) : (Heap.readString address).Across R := by
  intro h
  rw [Action.Gives, Heap.readString]
  by_cases outside : address < Heap.guardSize ∨ h.size < address
  · rw [if_pos outside]
    exact c.refl h
  · rw [if_neg outside]
    dsimp only
    generalize (h.bytes.extract address h.size).toList = tail
    by_cases open_ : (tail.takeWhile (· != 0)).length = tail.length
    · rw [if_pos open_]
      exact c.refl h
    · rw [if_neg open_]
      cases String.fromUTF8? ⟨(tail.takeWhile (· != 0)).toArray⟩ <;> exact c.refl h

theorem across_readError (address : Nat) : (Heap.readError address).Across R := by
  refine (across_load c address 4).bind c fun domain => ?_
  refine (across_load c (address + 4) 4).bind c fun code => ?_
  refine (across_loadPointer c (address + 8)).bind c fun text => ?_
  dsimp only
  split
  · exact across_pure c _
  · exact (across_readString c text).bind c fun message => across_pure c _

theorem across_elementAddress (base index size : Nat) :
    (Action.ofExcept (elementAddress base index size) : LayoutM Nat).Across R :=
  across_ofExcept c _

theorem across_nextNode (node : Nat) : (nextNode node).Across R :=
  (across_elementAddress c node 1 nextOffset).bind c fun address =>
    (across_loadPointer c address).mapError

theorem across_scanTerminator (size base fuel count : Nat) :
    (scanTerminator size base fuel count).Across R := by
  induction fuel generalizing count with
  | zero => exact across_endless
  | succ fuel ih =>
    refine (across_elementAddress c base count size).bind c fun address => ?_
    refine (across_read c address size).mapError.bind c fun bytes => ?_
    split
    · exact across_pure c count
    · exact ih (count + 1)

theorem across_arrayLength (d : Descriptor) (base : Nat) (given : Option Nat) :
    (arrayLength d base given).Across R := by
  unfold arrayLength
  split
  · split
    · exact across_pure c _
    · exact across_pure c _
    · exact (across_get c).bind c fun h => across_scanTerminator c _ _ _ _
    · exact across_fail c _
    · exact across_fail c _
  · exact across_fail c _

end Reading

/-! ### Freeing -/

/-- No block is live that was not. -/
def Heap.Clears (h g : Heap) : Prop := ∀ b, g.Live b → h.Live b

theorem Heap.composes_clears : Composes Heap.Clears where
  refl _ _ live := live
  trans first second b live := first b (second b live)

theorem Heap.Clears.not_live {h g : Heap} {a : Nat} (clears : h.Clears g)
    (gone : h.isLive a = false) : g.isLive a = false := by
  by_contra live
  rw [Bool.not_eq_false, isLive_iff] at live
  obtain ⟨n, live⟩ := live
  rw [isLive_iff.2 ⟨n, clears _ live⟩] at gone
  cases gone

namespace Heap

/-- Whether freeing succeeds or not, the address is not live afterwards. -/
theorem gives_free (address : Nat) (h : Heap) :
    (free address).Gives h (fun _ g => h.Clears g ∧ g.isLive address = false)
      (fun _ g => h.Clears g ∧ g.isLive address = false) := by
  cases listed : h.isLive address with
  | true =>
    obtain ⟨n, live⟩ := isLive_iff.1 listed
    obtain ⟨g, freed, sheds⟩ := free_eq live
    refine gives_of_ok freed ⟨fun b left => ((sheds.live_iff b).1 left).1, ?_⟩
    by_contra still
    rw [Bool.not_eq_false, isLive_iff] at still
    obtain ⟨k, still⟩ := still
    obtain ⟨old, other⟩ := (sheds.live_iff _).1 still
    exact other (List.mem_singleton.2 (old.eq_of_address live rfl))
  | false =>
    rw [Action.Gives, free]
    by_cases null : address = 0
    · rw [if_pos null]
      exact ⟨composes_clears.refl h, listed⟩
    · rw [if_neg null, dif_neg (by rw [← isLive, listed]; exact Bool.false_ne_true)]
      cases h.freed.contains address <;> exact ⟨composes_clears.refl h, listed⟩

theorem across_free (address : Nat) : (free address).Across Clears := fun h =>
  ((gives_free address h).mono (fun _ _ freed => freed.1) fun _ _ freed => freed.1).partly

theorem across_freeError (address : Nat) : (freeError address).Across Clears := by
  have c := composes_clears
  unfold freeError
  split
  · exact across_pure c ()
  · refine (across_loadPointer c (address + 8)).bind c fun message => ?_
    exact (across_free message).bind c fun _ => across_free address

end Heap

theorem across_forPositions {step : Nat → LayoutM Unit} (each : ∀ i, (step i).Across Heap.Clears)
    (count position : Nat) : (forPositions step count position).Across Heap.Clears := by
  induction count generalizing position with
  | zero => exact across_pure Heap.composes_clears ()
  | succ count ih => exact (each position).bind Heap.composes_clears fun _ => ih (position + 1)

theorem across_forNodes {step : Nat → LayoutM Unit} (each : ∀ node, (step node).Across Heap.Clears)
    (fuel node : Nat) : (forNodes step fuel node).Across Heap.Clears := by
  have c := Heap.composes_clears
  induction fuel generalizing node with
  | zero => exact across_endless
  | succ fuel ih =>
    unfold forNodes
    split
    · exact across_pure c ()
    · refine (across_nextNode c node).bind c fun next => ?_
      exact (each node).bind c fun _ => ih next

theorem across_free_if (held : Bool) (address : Nat) :
    (if held then Heap.act (Heap.free address) else pure () : LayoutM Unit).Across Heap.Clears := by
  cases held
  · exact across_pure Heap.composes_clears ()
  · exact (Heap.across_free address).mapError

theorem across_release (d : Descriptor) (slot : Slot) (own : Holding) (length : Option Nat) :
    (release d slot own length).Across Heap.Clears := by
  have c := Heap.composes_clears
  induction d generalizing slot own length with
  | basic type pointer =>
    unfold release
    split
    · exact across_pure c ()
    · cases type with
      | string filename => exact across_free_if _ _
      | error =>
        dsimp only
        split
        · exact (Heap.across_freeError _).mapError
        · exact across_pure c ()
      | _ => exact across_pure c ()
  | named type name pointer =>
    unfold release
    split
    · exact across_pure c ()
    · cases type with
      | structured size byValue => exact across_free_if _ _
      | object => exact across_free_if _ _
      | _ => exact across_pure c ()
  | hash key value pointer =>
    unfold release
    split <;> exact across_pure c ()
  | array element mode form pointer ih =>
    unfold release
    split
    · exact across_pure c ()
    · have item : ∀ i, (do
          let address ← Action.ofExcept (elementAddress slot.toNat i element.size)
          let item ← Heap.act (Heap.load address element.size)
          release element item own.nested none : LayoutM Unit).Across Heap.Clears := by
        intro i
        refine (across_elementAddress c _ i _).bind c fun address => ?_
        exact (across_load c address _).mapError.bind c fun item => ih item own.nested none
      dsimp only
      split
      · refine (across_arrayLength c _ _ _).bind c fun count => ?_
        exact (across_forPositions item count 0).bind c fun _ => across_free_if _ _
      · exact across_free_if _ _
  | list element singlyLinked pointer ih =>
    unfold release
    split
    · exact across_pure c ()
    · refine across_forNodes (fun node => ?_) _ _
      dsimp only
      split
      · refine (across_load c node 8).mapError.bind c fun item => ?_
        exact (ih item own.nested none).bind c fun _ => across_free_if _ _
      · exact across_free_if _ _

theorem across_freeRetained (plan : Plan) (slots : List Slot) :
    (freeRetained plan slots).Across Heap.Clears := by
  have c := Heap.composes_clears
  induction slots with
  | nil => exact across_pure c ()
  | cons slot rest ih => exact (across_release _ slot _ none).bind c fun _ => ih

/-! ### The native state -/

/-- Nothing but releases: no block is live and no trampoline registered that was not. -/
structure Memory.Clears (m t : Memory) : Prop where
  blocks : m.heap.Clears t.heap
  trampolines : ∀ a, m.trampolines.get? a = none → t.trampolines.get? a = none

namespace Memory

theorem composes_clears : Composes Memory.Clears where
  refl _ := ⟨Heap.composes_clears.refl _, fun _ none => none⟩
  trans first second := ⟨Heap.composes_clears.trans first.blocks second.blocks, fun a none =>
    second.trampolines a (first.trampolines a none)⟩

theorem Clears.of_heap {m : Memory} {g : Heap} (clears : m.heap.Clears g) :
    m.Clears { m with heap := g } := ⟨clears, fun _ none => none⟩

theorem across_onHeap {ε α : Type} {x : Action ε Heap α} (across : x.Across Heap.Clears) :
    (Memory.onHeap x).Across Memory.Clears := by
  intro m
  rw [Action.gives_onHeap]
  exact (across m.heap).mono (fun _ _ => Clears.of_heap) fun _ _ => Clears.of_heap

end Memory

/-- Whether releasing a trampoline succeeds or not, the table does not have it afterwards. -/
theorem gives_releaseTrampoline (address : Nat) (m : Memory) :
    (releaseTrampoline address).Gives m
      (fun _ t => m.Clears t ∧ t.trampolines.get? address = none)
      (fun _ t => m.Clears t ∧ t.trampolines.get? address = none) fun _ => True := by
  rw [releaseTrampoline, Action.gives_bind, Action.gives_get]
  split
  · exact ⟨Memory.composes_clears.refl m, ‹_›⟩
  · rename_i trampoline found
    rw [Action.gives_bind, Action.gives_modify, Action.gives_bind, Action.gives_onHeap]
    have removed : (m.trampolines.remove address).get? address = none := by
      rw [TrampolineTable.get?_remove, if_pos rfl]
    have fewer : ∀ a, m.trampolines.get? a = none →
        (m.trampolines.remove address).get? a = none := by
      intro a none
      rw [TrampolineTable.get?_remove, none, ite_self]
    exact (across_freeRetained _ _ m.heap).mono (fun _ _ clears => ⟨⟨clears, fewer⟩, removed⟩)
      fun _ _ clears => ⟨⟨clears, fewer⟩, removed⟩

end ForeignCall
