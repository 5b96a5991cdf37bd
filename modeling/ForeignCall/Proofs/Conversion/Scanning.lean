import ForeignCall.Conversion.Layout
import ForeignCall.Proofs.Heap.Bytes

/-!
The search for the terminator of an array.

The search goes on past an element that is in the heap and is not zero. Such an element has one byte at
least, so there are fewer of them than the heap has bytes, and the search ends with the first other one:
it is found there if that element is in the heap, and refused if it is not.
-/

set_option autoImplicit false

namespace ForeignCall

open ForeignCall.Action

variable {h t : Heap} {base size start stop i k : Nat} {element : Descriptor}

/-! ### Elements of a buffer -/

namespace Heap

/-- All bytes of the region are zero. -/
def Zeroed (h : Heap) (address length : Nat) : Prop :=
  ∀ x, address ≤ x → x < address + length → h.byteAt x = 0

theorem all_slice_iff {address length : Nat} :
    (h.slice address length).all (· == 0) = true ↔ h.Zeroed address length := by
  simp only [slice, List.all_map, List.all_eq_true, List.mem_range, Function.comp_apply, beq_iff_eq]
  constructor
  · intro zero x above below
    have here := zero (x - address) (by omega)
    rwa [Nat.add_sub_cancel' above] at here
  · exact fun zero i below => zero _ (Nat.le_add_right _ _) (Nat.add_lt_add_left below _)

instance (h : Heap) (address length : Nat) : Decidable (h.Zeroed address length) :=
  decidable_of_iff _ all_slice_iff

/-- The elements from `start` on and before `stop` are in the heap, and none of them is zero. -/
def Passes (h : Heap) (base size start stop : Nat) : Prop :=
  ∀ i, start ≤ i → i < stop →
    h.Accessible (base + i * size) size ∧ ¬ h.Zeroed (base + i * size) size

/-- The element at `k` is the first one that is zero or not in the heap. -/
structure EndsAt (h : Heap) (base size k : Nat) : Prop where
  passes : h.Passes base size 0 k
  ends : h.Accessible (base + k * size) size → h.Zeroed (base + k * size) size

/-- Why an element that is not in the heap is refused. -/
def elementFault (h : Heap) (base size i : Nat) : ConversionFault :=
  if base + i * size < UInt64.size then .heap (.invalidPointer (base + i * size) size h.size)
  else .addressOverflow base i

/-- There is no room for more elements than the heap has bytes, since none of them is empty. -/
theorem Passes.stop_le (passes : h.Passes base size 0 stop) : stop ≤ h.size := by
  by_contra long
  obtain ⟨⟨guarded, inside⟩, marked⟩ := passes h.size (Nat.zero_le _) (Nat.lt_of_not_le long)
  have positive : 0 < size := by
    refine Nat.pos_of_ne_zero fun empty => marked fun x above below => ?_
    omega
  have room : h.size ≤ h.size * size := Nat.le_mul_of_pos_right _ positive
  simp only [guardSize] at guarded
  omega

/-- No element that ends the search is passed. -/
theorem Passes.le_of_ends (passes : h.Passes base size 0 stop)
    (ends : h.Accessible (base + i * size) size → h.Zeroed (base + i * size) size) : stop ≤ i := by
  by_contra below
  obtain ⟨inside, marked⟩ := passes i (Nat.zero_le i) (Nat.lt_of_not_le below)
  exact marked (ends inside)

theorem EndsAt.unique (first : h.EndsAt base size i) (second : h.EndsAt base size k) : i = k :=
  Nat.le_antisymm (first.passes.le_of_ends second.ends) (second.passes.le_of_ends first.ends)

theorem exists_endsAt (h : Heap) (base size : Nat) : ∃ k, h.EndsAt base size k := by
  have ends : ∃ k, h.Accessible (base + k * size) size → h.Zeroed (base + k * size) size := by
    by_contra endless
    simp only [not_exists, Classical.not_imp] at endless
    exact Nat.not_succ_le_self _ (Passes.stop_le fun i _ (_ : i < h.size + 1) => endless i)
  refine ⟨Nat.find ends, fun i _ below => ?_, Nat.find_spec ends⟩
  exact Classical.not_imp.1 (Nat.find_min ends below)

end Heap

/-! ### One element after the other -/

theorem elementAddress_of_accessible (inside : h.Accessible (base + i * size) size) :
    elementAddress base i size = .ok (base + i * size) := by
  have reach := inside.2
  have := h.size_le_capacity
  have := Heap.capacity_lt
  rw [elementAddress, if_pos (by omega)]

theorem scanTerminator_inside {fuel : Nat} (inside : h.Accessible (base + i * size) size) :
    scanTerminator size base (fuel + 1) i h =
      if h.Zeroed (base + i * size) size then .ok i h
      else scanTerminator size base fuel (i + 1) h := by
  rw [scanTerminator, elementAddress_of_accessible inside]
  refine (bind_of_ok (act_of_ok (Heap.read_eq inside))).trans ?_
  simp only [Heap.all_slice_iff]
  split <;> rfl

theorem scanTerminator_outside {fuel : Nat} (outside : ¬ h.Accessible (base + i * size) size) :
    scanTerminator size base (fuel + 1) i h =
      .error (.error (h.elementFault base size i)) h := by
  rw [scanTerminator, elementAddress, Heap.elementFault]
  split
  · refine (bind_of_ok rfl).trans (bind_of_error ?_)
    simp only [Heap.act, mapError, Heap.read, if_neg outside]
    rfl
  · rfl

/-- What the search says of the element that ends it. -/
def scanOutcome (h : Heap) (base size k : Nat) : EStateM.Result (Stop ConversionFault) Heap Nat :=
  if h.Accessible (base + k * size) size then .ok k h
  else .error (.error (h.elementFault base size k)) h

theorem scanTerminator_eq_outcome {fuel : Nat} (passes : h.Passes base size start k)
    (ends : h.Accessible (base + k * size) size → h.Zeroed (base + k * size) size)
    (reached : start ≤ k) (enough : k < start + fuel) :
    scanTerminator size base fuel start h = scanOutcome h base size k := by
  induction fuel generalizing start with
  | zero => omega
  | succ fuel ih =>
    rcases Nat.eq_or_lt_of_le reached with rfl | later
    · by_cases inside : h.Accessible (base + start * size) size
      · rw [scanTerminator_inside inside, if_pos (ends inside), scanOutcome, if_pos inside]
      · rw [scanTerminator_outside inside, scanOutcome, if_neg inside]
    · obtain ⟨inside, marked⟩ := passes start (Nat.le_refl _) later
      rw [scanTerminator_inside inside, if_neg marked]
      exact ih (fun i above => passes i (Nat.le_of_succ_le above)) later (by omega)

theorem scanTerminator_of_endsAt {fuel : Nat} (ends : h.EndsAt base size k) (enough : h.size < fuel) :
    scanTerminator size base fuel 0 h = scanOutcome h base size k := by
  refine scanTerminator_eq_outcome ends.passes ends.ends (Nat.zero_le _) ?_
  have := ends.passes.stop_le
  omega

theorem terminatedLength_of_endsAt (ends : h.EndsAt base element.size k) :
    terminatedLength element base h = scanOutcome h base element.size k :=
  scanTerminator_of_endsAt ends (Nat.lt_succ_self h.size)

theorem terminatedLength_eq_ok_iff :
    terminatedLength element base h = .ok k t ↔
      t = h ∧ h.EndsAt base element.size k ∧
        h.Accessible (base + k * element.size) element.size := by
  obtain ⟨last, ends⟩ := h.exists_endsAt base element.size
  rw [terminatedLength_of_endsAt ends, scanOutcome]
  constructor
  · split
    · rename_i inside
      rintro ⟨⟩
      exact ⟨rfl, ends, inside⟩
    · exact nofun
  · rintro ⟨rfl, here, inside⟩
    rw [ends.unique here, if_pos inside]

theorem terminatedLength_eq_error_iff {e : ConversionFault} :
    terminatedLength element base h = .error (.error e) t ↔
      t = h ∧ ∃ k, h.EndsAt base element.size k ∧
        ¬ h.Accessible (base + k * element.size) element.size ∧
        e = h.elementFault base element.size k := by
  obtain ⟨last, ends⟩ := h.exists_endsAt base element.size
  rw [terminatedLength_of_endsAt ends, scanOutcome]
  constructor
  · split
    · exact nofun
    · rename_i outside
      rintro ⟨⟩
      exact ⟨rfl, last, ends, outside, rfl⟩
  · rintro ⟨rfl, k, here, outside, rfl⟩
    rw [ends.unique here, if_neg outside]

theorem terminatedLength_ne_halt (a : Halt) : terminatedLength element base h ≠ .error (.halt a) t := by
  obtain ⟨last, ends⟩ := h.exists_endsAt base element.size
  rw [terminatedLength_of_endsAt ends, scanOutcome]
  split <;> exact nofun

/-- The search for the terminator of an array comes to an end: it is never given up, and any number of
steps above the number of bytes in the heap gives the same answer. It finds the first element that is
zero, if that and all elements before it are in the heap. Otherwise it is refused, for the first element
that is not: either the heap ends before it or its address is beyond the last one. -/
theorem terminator_found_first (h : Heap) (element : Descriptor) (base : Nat) :
    let size := element.size
    let inside (i : Nat) := h.Accessible (base + i * size) size
    let zero (i : Nat) := h.Zeroed (base + i * size) size
    (∀ steps, h.size < steps → scanTerminator size base steps 0 h = terminatedLength element base h) ∧
    (∀ a t, terminatedLength element base h ≠ .error (.halt a) t) ∧
    (∀ k t, terminatedLength element base h = .ok k t ↔
      t = h ∧ (∀ i ≤ k, inside i) ∧ zero k ∧ ∀ i < k, ¬ zero i) ∧
    ∀ e t, terminatedLength element base h = .error (.error e) t ↔
      t = h ∧ ∃ k, ¬ inside k ∧ (∀ i < k, inside i ∧ ¬ zero i) ∧ e = h.elementFault base size k := by
  intro size inside zero
  refine ⟨fun steps enough => ?_, fun a t => terminatedLength_ne_halt a, fun k t => ?_, fun e t => ?_⟩
  · obtain ⟨last, ends⟩ := h.exists_endsAt base size
    rw [scanTerminator_of_endsAt ends enough, terminatedLength_of_endsAt ends]
  · rw [terminatedLength_eq_ok_iff]
    refine and_congr_right fun _ => ⟨?_, ?_⟩
    · rintro ⟨⟨passes, ends⟩, last⟩
      refine ⟨fun i upTo => ?_, ends last, fun i below => (passes i (Nat.zero_le i) below).2⟩
      rcases Nat.eq_or_lt_of_le upTo with rfl | below
      · exact last
      · exact (passes i (Nat.zero_le i) below).1
    · rintro ⟨within, ends, marked⟩
      exact ⟨⟨fun i _ below => ⟨within i (Nat.le_of_lt below), marked i below⟩, fun _ => ends⟩,
        within k (Nat.le_refl k)⟩
  · rw [terminatedLength_eq_error_iff]
    refine and_congr_right fun _ => exists_congr fun k => ⟨?_, ?_⟩
    · rintro ⟨⟨passes, -⟩, outside, fault⟩
      exact ⟨outside, fun i => passes i (Nat.zero_le i), fault⟩
    · rintro ⟨outside, passes, fault⟩
      exact ⟨⟨fun i _ => passes i, fun within => absurd within outside⟩, outside, fault⟩

end ForeignCall
