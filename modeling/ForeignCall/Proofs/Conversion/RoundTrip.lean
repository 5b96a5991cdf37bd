import ForeignCall.Proofs.Conversion.Storing

/-!
Lifting undoes lowering.

A value of plain data is lowered to memory that nothing else uses, and is lifted from there as an
equal value. Lowering is refused nothing it needs but address space.
-/

set_option autoImplicit false

namespace ForeignCall

variable {d : Descriptor} {slot : Slot} {v w : Value}

theorem RoundTrips.of_pure {x : ConversionM Slot} (run : ∀ m, x m = .ok slot m)
    (fits : slot.toNat < 256 ^ d.size) (marked : d.storesZero v = false → slot.toNat ≠ 0)
    (equal : w.equals v = true)
    (reads : ∀ held given copy m, lift held d slot given copy m = .ok w m) : RoundTrips x d v := by
  intro m limit _
  apply Action.gives_of_ok (run m)
  refine ⟨Nat.le_add_right _ _, w, .refl _, fits, marked, equal, ?_⟩
  exact fun given _ m held copy _ _ => reads held given copy m

section Scalars

variable {env : Environment} {nullable : Bool} {format : IntFormat} {n : Number} {i : Int}

theorem truncate_lt_size (n : Number) (format : IntFormat) :
    (Slot.ofNat (n.truncate format.width.bits)).toNat < 256 ^ format.width.bytes := by
  rw [Slot.toNat_ofNat (IntFormat.truncate_lt n format.width), Number.truncate, twoPow_eq]
  cases format.width <;> exact Nat.mod_lt _ (by decide)

theorem integer_roundTrips (same : n.toInt? = some i) (fits : format.Represents i)
    (wide : format.width.bytes ≤ d.size)
    (marks : d.storesZero (.number n) = (n.truncate format.width.bits == 0))
    (lifts : ∀ held slot given copy, lift held d slot given copy =
      pure (.number (.ofInt (slot.asInt format.width.bits format.signed)))) :
    RoundTrips (lowerInteger d (.number n) format.width.bits) d (.number n) := by
  have int := Number.isInt_of_toInt? same
  refine .of_pure (w := .number (.ofInt i)) (fun _ => rfl) ?_ ?_ int.ofInt_equals ?_
  · exact Nat.lt_of_lt_of_le (truncate_lt_size n format) (Nat.pow_le_pow_right (by decide) wide)
  · rw [marks, Slot.toNat_ofNat (IntFormat.truncate_lt n format.width)]
    simp
  · intro held given copy m
    rw [lifts, IntFormat.asInt_of_represents int fits]
    rfl

theorem char_roundTrips {pointer : Bool} (c : Char) :
    RoundTrips (lowerChar (.basic .unichar pointer) (.string (String.singleton c)))
      (.basic .unichar pointer) (.string (String.singleton c)) := by
  have valid : c.toNat.isValidChar := c.valid
  have small : c.toNat < 1114112 := by
    simp only [Nat.isValidChar] at valid
    omega
  have code : (Slot.ofNat c.toNat).toNat = c.toNat := Slot.toNat_ofNat (by
    simp only [UInt64.size]
    omega)
  have run : ∀ m, lowerChar (.basic .unichar pointer) (.string (String.singleton c)) m =
      .ok (.ofNat c.toNat) m := by
    intro m
    rw [lowerChar, String.toList_singleton]
    rfl
  refine .of_pure (w := .string (String.singleton c)) run ?_ ?_ ?_ ?_
  · rw [code]
    exact Nat.lt_trans small (show 1114112 < 256 ^ 4 by decide)
  · rw [code]
    intro marked zero
    have same : c = '\x00' := Char.ext (UInt32.toNat_inj.1 zero)
    simp [Descriptor.storesZero, same] at marked
  · simp [Value.equals]
  · intro held given copy m
    rw [lift, code, Nat.mod_eq_of_lt (Nat.lt_trans small (by decide)), liftChar, if_pos valid,
      Char.ofNat_toNat]
    rfl

theorem string_roundTrips {filename pointer : Bool} {s : String} (clean : '\x00' ∉ s.toList) :
    RoundTrips (do return .ofNat (← Memory.touch (Heap.duplicate s)))
      (.basic (.string filename) pointer) (.string s) := by
  intro m limit enough
  have length := Heap.length_terminated s
  simp only [Descriptor.room] at enough ⊢
  rw [Action.gives_bind, Action.gives_touch, Heap.duplicate]
  refine Action.Gives.mono (Heap.gives_allocBytes_unless fun full => ⟨rfl, ?_⟩) ?_
    fun _ _ never => never
  · rw [← Heap.terminated, length] at full
    omega
  · rintro address g ⟨⟨grows, within, content⟩, bound⟩
    rw [← Heap.terminated] at within content bound
    have guarded : 16 ≤ m.heap.size := m.heap.guarded
    have fresh := grows.fresh _ (List.mem_singleton_self _)
    have small := g.size_le_capacity
    have word := Heap.capacity_lt
    have inside := within.2
    dsimp only at fresh
    have place : (Slot.ofNat address).toNat = address := Slot.toNat_ofNat (by omega)
    refine ⟨by dsimp only; omega, .string s, grows.retains, (Slot.ofNat address).toNat_lt,
      fun _ => by omega, by simp [Value.equals], fun given _ k held copy larger agree => ?_⟩
    have larger : g.size ≤ k.heap.size := larger
    have agree : ∀ x, m.heap.size ≤ x → x < g.size → k.heap.byteAt x = g.byteAt x := agree
    have same : k.heap.slice address (Heap.terminated s).length = Heap.terminated s :=
      (Heap.slice_congr fun x above below => agree x (by omega) (by omega)).trans content
    have read : (Memory.touch (Heap.readString address) : ConversionM String) k = .ok s k := by
      rw [Memory.touch, Memory.onHeap, Action.act_of_ok
        (Heap.readString_eq clean ⟨within.1, by omega⟩ same)]
    rw [lift, Slot.isNull, place, if_neg (by rw [beq_iff_eq]; omega), Action.bind_of_ok read]
    rfl

end Scalars

/-- Whatever plain data a value is, lowering stores it where it reads as an equal value. -/
theorem lower_roundTrips {env : Environment} {nullable : Bool} (data : d.isData = true)
    (carries : d.Carries v) : RoundTrips (lower env d v nullable) d v := by
  induction d generalizing v nullable with
  | basic type pointer =>
    cases type with
    | boolean =>
      obtain ⟨b, rfl⟩ := carries
      have run : ∀ m, lower env (.basic .boolean pointer) (.bool b) nullable m =
          .ok (.ofBool b) m := fun _ => rfl
      refine .of_pure (w := .bool b) run ?_ ?_ ?_ ?_
      · have small : (Slot.ofBool b).toNat < 256 ^ 4 := by cases b <;> decide
        exact small
      · cases b
        · exact fun marked => absurd marked (by simp [Descriptor.storesZero])
        · exact fun _ => by decide
      · cases b <;> rfl
      · intro held given copy m
        cases b <;> rfl
    | integer format =>
      obtain ⟨n, i, rfl, same, fits⟩ := carries
      exact integer_roundTrips same fits (Nat.le_refl _) rfl fun _ _ _ _ => rfl
    | unichar =>
      obtain ⟨c, rfl⟩ := carries
      exact char_roundTrips c
    | string filename =>
      obtain ⟨s, rfl, clean⟩ := carries
      exact string_roundTrips clean
    | _ => cases data
  | named type name pointer =>
    cases type with
    | enumeration storage flags =>
      obtain ⟨n, i, rfl, same, fits⟩ := carries
      refine integer_roundTrips same fits ?_ rfl fun _ _ _ _ => rfl
      cases pointer with
      | false => exact Nat.le_refl _
      | true => exact (show storage.width.bytes ≤ 8 by cases storage.width <;> decide)
    | _ => cases data
  | array element mode form pointer ih =>
    have inner : element.isData = true := by
      simp only [Descriptor.isData, Bool.and_eq_true] at data
      exact data.2
    have some : v.isNullish = false := by
      obtain ⟨items, rfl, -⟩ := carries
      rfl
    rw [lower, if_neg (by simp [some])]
    intro m limit enough
    rw [Action.gives_bind]
    exact (packArray_roundTrips (fun item fits => ih inner fits) data carries enough).mono
      (fun _ _ packed => packed.2) fun _ _ never => never
  | list element singlyLinked pointer ih =>
    simp only [Descriptor.isData, Bool.and_eq_true] at data
    have some : v.isNullish = false := by
      obtain ⟨items, rfl, -⟩ := carries
      rfl
    rw [lower, if_neg (by simp [some])]
    exact buildList_roundTrips data.1 (fun item fits => ih data.2 fits) carries
  | hash key value pointer => cases data

/-- Lowering plain data succeeds, and lifting the slot in the memory it leaves gives an equal value,
whatever the script holds and whether structs are to be copied. An array that does not tell its
length is lifted with the count that its lowering reports. -/
theorem lift_undoes_lowering {env : Environment} {nullable : Bool} {m : Memory}
    (data : d.isData = true) (carries : d.Carries v) :
    (lower env d v nullable).Gives m
        (fun slot t => ∃ w, w.equals v = true ∧
          ∀ given, d.Tells given v → ∀ held copy, lift held d slot given copy t = .ok w t)
        (fun _ _ => False) (Heap.Full (m.heap.size + d.room v)) ∧
      ∀ element mode form pointer, d = .array element mode form pointer →
        (lowerArray env d v nullable).Gives m
          (fun lowered t => ∃ w, w.equals v = true ∧
            ∀ held copy, lift held d lowered.1 (some lowered.2) copy t = .ok w t)
          (fun _ _ => False) (Heap.Full (m.heap.size + d.room v)) := by
  constructor
  · refine (lower_roundTrips data carries m _ (Nat.le_refl _)).mono ?_ fun _ _ never => never
    rintro slot t ⟨-, w, stores⟩
    refine ⟨w, stores.equal, fun given told held copy => ?_⟩
    exact stores.reads given told t held copy (Nat.le_refl _) fun _ _ _ => rfl
  · rintro element mode form pointer rfl
    have inner : element.isData = true := by
      simp only [Descriptor.isData, Bool.and_eq_true] at data
      exact data.2
    refine (packArray_roundTrips (m := m) (fun item fits => lower_roundTrips inner fits) data carries
      (Nat.le_refl _)).mono ?_ fun _ _ never => never
    rintro ⟨slot, count⟩ t ⟨counted, -, w, stores⟩
    refine ⟨w, stores.equal, fun held copy => ?_⟩
    exact stores.reads _ (.inl counted) t held copy (Nat.le_refl _) fun _ _ _ => rfl

theorem lift_undoes_lowering_rows :
    let cells : Descriptor := .array (.basic (.integer ⟨.w16, true⟩) false) .zeroTerminated .c true
    let rows : Descriptor := .array (.list cells false true) (.parameter 1) .c true
    let v : Value := .array [.array [.array [.number (.ofInt (-2)), .number (.ofInt 300)], .array []],
      .array []]
    rows.isData = true ∧ rows.Carries v ∧
      ∃ slot count t w, lowerArray ⟨.initial, .pin⟩ rows v false .empty = .ok (slot, count) t ∧
        w.equals v = true ∧ lift [] rows slot (some count) true t = .ok w t := by
  intro cells rows v
  have cell : ∀ i : Int, i ∈ [-2, 300] →
      (Descriptor.basic (.integer ⟨.w16, true⟩) false).Carries (.number (.ofInt i)) ∧
        (Descriptor.basic (.integer ⟨.w16, true⟩) false).storesZero (.number (.ofInt i)) = false := by
    intro i listed
    have whole : ∀ i ∈ [(-2 : Int), 300], (Number.ofInt i).toInt? = some i ∧
        (IntFormat.mk .w16 true).Represents i ∧ ((Number.ofInt i).truncate 16 == 0) = false := by
      decide +kernel
    obtain ⟨same, fits, marked⟩ := whole i listed
    exact ⟨⟨_, i, rfl, same, fits⟩, marked⟩
  have row : ∀ item ∈ [Value.array [.number (.ofInt (-2)), .number (.ofInt 300)], .array []],
      cells.Carries item := by
    intro item listed
    rcases List.mem_pair.1 listed with rfl | rfl
    · refine ⟨_, rfl, rfl, ?_, fun _ => ?_⟩ <;> intro item listed <;>
        rcases List.mem_pair.1 listed with rfl | rfl
      · exact (cell (-2) (by decide)).1
      · exact (cell 300 (by decide)).1
      · exact (cell (-2) (by decide)).2
      · exact (cell 300 (by decide)).2
    · exact ⟨_, rfl, rfl, by simp, by simp⟩
  have carries : rows.Carries v := by
    refine ⟨_, rfl, rfl, ?_, by simp⟩
    intro item listed
    rcases List.mem_pair.1 listed with rfl | rfl
    · exact ⟨_, rfl, row⟩
    · exact ⟨_, rfl, by simp⟩
  have run : ∃ lowered t, lowerArray ⟨.initial, .pin⟩ rows v false .empty = .ok lowered t :=
    Action.exists_ok (by decide +kernel)
  obtain ⟨⟨slot, count⟩, t, run⟩ := run
  obtain ⟨w, equal, lifts⟩ := ((lift_undoes_lowering rfl carries).2 _ _ _ _ rfl).of_ok run
  exact ⟨rfl, carries, slot, count, t, w, run, equal, lifts [] true⟩

end ForeignCall
