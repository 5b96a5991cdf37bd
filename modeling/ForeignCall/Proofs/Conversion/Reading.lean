import ForeignCall.Conversion.Lift
import ForeignCall.Conversion.Lower
import ForeignCall.Proofs.Heap.Text
import ForeignCall.Proofs.Number.Integer
import ForeignCall.Proofs.Ownership.Release

/-!
Plain data in native memory: which values are plain data, and what it takes to read them back.

`Reads h start stop d slot given v` says that a slot reads as `v` in every memory that has the bytes
of `h` from `start` to `stop`. What is lowered reads from the bytes it was lowered to, so that later
allocations and writes elsewhere do not disturb it.
-/

set_option autoImplicit false

namespace ForeignCall

namespace Descriptor

/-- Whether values of the type are found without a length from elsewhere. -/
def isSelfSized : Descriptor → Bool
  | .array _ mode _ _ => mode.isFixed || mode == .zeroTerminated
  | _ => true

/-- Booleans, integers, enums, characters and strings, and lists and C arrays of plain data. Only an
array that is in no other container may need a length from elsewhere. -/
def isData : Descriptor → Bool
  | .basic .boolean _ | .basic (.integer _) _ | .basic .unichar _ | .basic (.string _) _
  | .named (.enumeration ..) _ _ => true
  | .array element _ form _ => form == .c && element.isSelfSized && element.isData
  | .list element _ _ => element.isSelfSized && element.isData
  | _ => false

/-- Whether all bytes that an element with this value is stored as are zero. -/
def storesZero : Descriptor → Value → Bool
  | .basic .boolean _, .bool b => !b
  | .basic (.integer format) _, .number n | .named (.enumeration format _) _ _, .number n =>
    n.truncate format.width.bits == 0
  | .basic .unichar _, .string s => s.toList == ['\x00']
  | .list .., .array items => items.isEmpty
  | _, _ => false

/-- The values of a type of plain data. -/
def Carries : Descriptor → Value → Prop
  | .basic .boolean _, v => ∃ b, v = .bool b
  | .basic (.integer format) _, v | .named (.enumeration format _) _ _, v =>
    ∃ n i, v = .number n ∧ n.toInt? = some i ∧ format.Represents i
  | .basic .unichar _, v => ∃ c, v = .string (String.singleton c)
  | .basic (.string _) _, v => ∃ s, v = .string s ∧ '\x00' ∉ s.toList
  | .array element mode _ _, v =>
    ∃ items, v = .array items ∧ lengthAllows mode items.length = true ∧
      (∀ item ∈ items, element.Carries item) ∧
      (mode = .zeroTerminated → ∀ item ∈ items, element.storesZero item = false)
  | .list element _ _, v => ∃ items, v = .array items ∧ ∀ item ∈ items, element.Carries item
  | _, _ => False

/-- Whether a length that is given with a slot suits the value in it: for an array it is the number
of items, unless the array tells it by itself. -/
def Tells (d : Descriptor) (given : Option Nat) (v : Value) : Prop :=
  match d with
  | .array .. => given = v.items?.map List.length ∨ (given = none ∧ d.isSelfSized = true)
  | _ => True

/-- Address space enough to lower a value of plain data. -/
def room : Descriptor → Value → Nat
  | .basic (.string _) _, .string s => s.utf8ByteSize + 1
  | .array element _ _ _, .array items =>
    7 + (items.length + 1) * element.size + (items.map element.room).sum
  | .list element _ _, .array items => (items.map fun item => 31 + element.room item).sum
  | _, _ => 0

variable {d : Descriptor}

theorem size_of_isData (data : d.isData = true) : 1 ≤ d.size ∧ d.size ≤ 8 := by
  have width (w : Width) : 1 ≤ w.bytes ∧ w.bytes ≤ 8 := by cases w <;> decide
  cases d with
  | basic type pointer =>
    cases type with
    | integer format => exact width format.width
    | boolean | unichar | string => simp [size, pointerSize]
    | _ => cases data
  | named type name pointer =>
    cases type with
    | enumeration storage flags =>
      cases pointer with
      | false => exact width storage.width
      | true => simp [size, pointerSize]
    | _ => cases data
  | array | list => simp [size, pointerSize]
  | hash => cases data

theorem isInlineStruct_of_isData (data : d.isData = true) : d.isInlineStruct = false := by
  unfold isData at data
  split at data <;> first | rfl | cases data

theorem slotSize_of_isData (data : d.isData = true) : d.slotSize = d.size := by
  rw [slotSize, isInlineStruct_of_isData data, if_neg (by simp)]

theorem tells_none (sized : d.isSelfSized = true) (v : Value) : d.Tells none v := by
  unfold Tells
  split
  · exact .inr ⟨rfl, sized⟩
  · trivial

end Descriptor

section Reads

variable {h g : Heap} {d element : Descriptor} {slot : Slot} {start stop base : Nat}
  {values : List Value} {m : Memory} {held : List Value} {copy : Bool}

def Reads (h : Heap) (start stop : Nat) (d : Descriptor) (slot : Slot) (given : Option Nat)
    (v : Value) : Prop :=
  ∀ (m : Memory) (held : List Value) (copy : Bool), stop ≤ m.heap.size →
    (∀ x, start ≤ x → x < stop → m.heap.byteAt x = h.byteAt x) →
      lift held d slot given copy m = .ok v m

theorem Reads.frame {start' stop' : Nat} {given : Option Nat} {v : Value}
    (reads : Reads h start stop d slot given v) (above : start' ≤ start) (below : stop ≤ stop')
    (same : ∀ x, start ≤ x → x < stop → g.byteAt x = h.byteAt x) :
    Reads g start' stop' d slot given v := by
  intro m held copy inside agree
  apply reads m held copy (by omega)
  intro x from_start to_stop
  rw [agree x (by omega) (by omega), same x from_start to_stop]

/-! ### Buffers -/

theorem liftPositions_eq {liftAt : List Value → Nat → ConversionM Value} {position : Nat}
    (each : ∀ i w held, values[i]? = some w → liftAt held (position + i) m = .ok w m) :
    liftPositions liftAt held values.length position m = .ok values m := by
  induction values generalizing position held with
  | nil => rfl
  | cons v rest ih =>
    have first : liftAt held position m = .ok v m := each 0 v held rfl
    have others : liftPositions liftAt (v :: held) rest.length (position + 1) m = .ok rest m := by
      apply ih
      intro i w held found
      rw [Nat.add_assoc, Nat.add_comm 1]
      exact each (i + 1) w held found
    rw [List.length_cons, liftPositions, Action.bind_of_ok first, Action.bind_of_ok others]
    rfl

/-- A buffer whose elements read as `values` is lifted as the array of them. -/
theorem liftBuffer_eq (data : element.isData = true) (guarded : Heap.guardSize ≤ base)
    (inside : base + values.length * element.size ≤ m.heap.size)
    (each : ∀ i w, values[i]? = some w → ∀ held,
      lift held element (m.heap.slotAt (base + i * element.size) element.size) none copy m =
        .ok w m) :
    liftBuffer (fun held item => lift held element item none copy) held element base values.length
      m = .ok (.array values) m := by
  have positive := (Descriptor.size_of_isData data).1
  rw [liftBuffer, Action.bind_of_ok (liftPositions_eq fun i w held found => ?_)]
  · rfl
  · have below : i < values.length := (List.getElem?_eq_some_iff.1 found).1
    have reach : (i + 1) * element.size ≤ values.length * element.size :=
      Nat.mul_le_mul_right _ below
    rw [Nat.add_one_mul] at reach
    have within : m.heap.Accessible (base + i * element.size) element.size := by
      simp only [Heap.Accessible]
      omega
    have load : (Memory.touch (Heap.load (base + i * element.size) element.size) : ConversionM Slot)
        m = .ok (m.heap.slotAt (base + i * element.size) element.size) m := by
      rw [Memory.touch, Memory.onHeap, Action.act_of_ok (Heap.load_eq within)]
    have address : (Action.ofExcept (elementAddress base i element.size) : ConversionM Nat) m =
        .ok (base + i * element.size) m := by
      rw [elementAddress_of_accessible within]
      rfl
    rw [Nat.zero_add, Action.bind_of_ok address,
      if_neg (by simp [Descriptor.isInlineStruct_of_isData data]), Action.bind_of_ok load]
    exact each i w found held

/-! ### Chains -/

/-- The chain at `head` reads as `values` wherever the bytes up to its first node are those of `h`.
The link back in a node is not read. -/
def ChainReads (h : Heap) (start : Nat) (element : Descriptor) (head : Nat) (values : List Value) :
    Prop :=
  ∀ (m : Memory) (held : List Value) (copy : Bool) (fuel : Nat), values.length < fuel →
    (head ≠ 0 → head + 16 ≤ m.heap.size) →
    (∀ x, start ≤ x → x < head + 16 → m.heap.byteAt x = h.byteAt x) →
      liftNodes (fun held item => lift held element item none copy) held fuel head m =
        .ok values m

theorem chainReads_nil (h : Heap) (start : Nat) (element : Descriptor) :
    ChainReads h start element 0 [] := by
  intro m held copy fuel enough _ _
  obtain ⟨fuel, rfl⟩ := Nat.exists_eq_add_of_lt enough
  rw [List.length_nil, Nat.zero_add, liftNodes, if_pos rfl]
  rfl

theorem chainReads_cons {node head : Nat} {w : Value} (guarded : Heap.guardSize ≤ node)
    (after : start ≤ node)
    (next : h.slotAt (node + nextOffset) 8 = .ofNat head) (small : head < UInt64.size)
    (item : ∀ m : Memory, (∀ x, start ≤ x → x < node + 16 → m.heap.byteAt x = h.byteAt x) →
      node ≤ m.heap.size → ∀ held copy,
        lift held element (h.slotAt node 8) none copy m = .ok w m)
    (before : head ≠ 0 → head ≤ node) (rest : ChainReads h start element head values) :
    ChainReads h start element node (w :: values) := by
  intro m held copy fuel enough inside agree
  simp only [Heap.guardSize] at guarded
  have inside := inside (by omega)
  obtain ⟨fuel, rfl⟩ : ∃ n, fuel = n + 1 := ⟨fuel - 1, by omega⟩
  have first : m.heap.slotAt node 8 = h.slotAt node 8 :=
    Heap.slotAt_congr fun x above below => agree x (by omega) (by omega)
  have second : m.heap.slotAt (node + nextOffset) 8 = h.slotAt (node + nextOffset) 8 :=
    Heap.slotAt_congr fun x above below =>
      agree x (by omega) (by simp only [nextOffset] at below; omega)
  have load : (Memory.touch (Heap.load node 8) : ConversionM Slot) m = .ok (h.slotAt node 8) m := by
    have within : m.heap.Accessible node 8 := ⟨guarded, by omega⟩
    rw [Memory.touch, Memory.onHeap, Action.act_of_ok (Heap.load_eq within), first]
  have step : (Memory.onHeap (nextNode node) : ConversionM Nat) m = .ok head m := by
    rw [Memory.onHeap, nextNode_eq guarded inside, second, next, Slot.toNat_ofNat small]
  have others := rest m (w :: held) copy fuel (by simpa using enough)
    (fun some => by have := before some; omega)
    fun x above below => agree x above (by by_cases zero : head = 0 <;> simp_all <;> omega)
  rw [liftNodes, if_neg (by omega), Action.bind_of_ok load,
    Action.bind_of_ok (item m agree (by omega) held copy), Action.bind_of_ok step,
    Action.bind_of_ok others]
  rfl

end Reads

end ForeignCall
