import ForeignCall.Proofs.Conversion.Bounds
import ForeignCall.Proofs.Conversion.Wrapping

/-!
Lifting the same slot again.

What was read once is read the same later: bytes that were there stay, so do trampolines, and a wrapper
that is held is still known. So a slot that was lifted is not refused when it is lifted again, and it is
not walked any further than the first time. Only the addresses for the copies of structs can run out.
-/

set_option autoImplicit false

namespace ForeignCall

open ForeignCall.Action

/-- All that was there, with some values held, is there later, with other values held. -/
structure Later (held : List Value) (m : Memory) (held' : List Value) (t : Memory) : Prop where
  prolongs : m.heap.Prolongs t.heap
  trampolines : t.trampolines = m.trampolines
  knows : ∀ x, m.wrappers.Knows held x → t.wrappers.Knows held' x

namespace Later

variable {held held' held'' : List Value} {m t u : Memory}

theorem refl (held : List Value) (m : Memory) : Later held m held m := ⟨.refl _, rfl, fun _ => id⟩

theorem trans (first : Later held m held' t) (second : Later held' t held'' u) :
    Later held m held'' u where
  prolongs := first.prolongs.trans second.prolongs
  trampolines := second.trampolines.trans first.trampolines
  knows x known := second.knows x (first.knows x known)

/-- While more is held, no less is known. -/
theorem holding (m : Memory)
    (more : ∀ id, Value.anyHolds id held = true → Value.anyHolds id held' = true) :
    Later held m held' m :=
  ⟨.refl _, rfl, fun x known => ⟨known.cached, more x.id known.held⟩⟩

theorem cons (held : List Value) (v : Value) (m : Memory) : Later held m (v :: held) m :=
  holding m fun _ holds => Value.anyHolds_cons holds v

/-- The items of an array are held with it. -/
theorem array (held : List Value) (v : Value) (vs : List Value) (m : Memory) :
    Later (.array vs :: v :: held) m (.array (v :: vs) :: held) m := by
  refine holding m fun id holds => ?_
  simp only [Value.anyHolds, Value.holds, Bool.or_eq_true] at holds ⊢
  tauto

theorem lookup? (later : Later held m held' t) {address : Nat} {w : Wrapper}
    (found : m.wrappers.lookup? held address = some w) :
    t.wrappers.lookup? held' address = some w := by
  have cached := WrapperTable.cached_of_lookup? found
  rw [WrapperTable.lookup?, Option.filter_eq_some_iff] at found
  obtain rfl := m.wrappers.addressed address w cached
  exact WrapperTable.lookup?_eq (later.knows w ⟨cached, found.2⟩)

end Later

/-- Lifting leads to a later state, and what was lifted once is lifted again then. -/
structure Repeats (lifts : List Value → ConversionM Value) : Prop where
  advances : ∀ held m, (lifts held).Gives m (fun v t => Later held m (v :: held) t)
    (fun _ _ => True) fun _ => True
  again : ∀ {held held' m v t u}, lifts held m = .ok v t → Later (v :: held) t held' u →
    (lifts held').Gives u (fun _ _ => True) fun _ _ => False

theorem Repeats.repeated {lifts : List Value → ConversionM Value} {held held' : List Value}
    {m t u : Memory} {v : Value} (repeats : Repeats lifts) (ran : lifts held m = .ok v t)
    (later : Later (v :: held) t held' u) :
    (lifts held').Gives u (fun w x => Later held' u (w :: held') x) fun _ _ => False :=
  ((repeats.again ran later).both (repeats.advances held' u)).mono (fun _ _ both => both.2)
    fun _ _ never => never.1

/-! ### What advances -/

variable {held held' : List Value} {element : Descriptor} {base count position : Nat} {copy : Bool}
  {m t u : Memory} {v : Value}

theorem Memory.Lifts.later {given : List Wrapper} {right : Heap → Wrapper → Prop}
    (lifts : m.Lifts held given right t) (same : t.trampolines = m.trampolines) :
    Later held m (v :: held) t :=
  ⟨lifts.prolongs, same, fun _ known => (known.later lifts.keeps).holding v⟩

theorem wrapping_trampolines : Wrapping fun m t : Memory => t.trampolines = m.trampolines where
  refl _ := rfl
  trans first second := second.trans first
  wrappers _ _ _ := rfl

theorem growing_trampolines : Growing fun m t : Memory => t.trampolines = m.trampolines :=
  fun _ _ _ _ => rfl

theorem liftInstance_advances (d : Descriptor) (address : Nat) (copy : Bool) (held : List Value)
    (m : Memory) :
    (liftInstance held d address copy).Gives m (fun v t => Later held m (v :: held) t)
      (fun _ _ => True) fun _ => True := by
  have same := across_liftInstance wrapping_trampolines held d address copy
    (fun _ => growing_trampolines) m
  exact ((lifts_liftInstance d address copy).both same).mono
    (fun _ _ lifted => lifted.1.later lifted.2) fun _ _ _ => trivial

theorem lift_advances (d : Descriptor) (slot : Slot) (length : Option Nat) (copy : Bool)
    (held : List Value) (m : Memory) :
    (lift held d slot length copy).Gives m (fun v t => Later held m (v :: held) t)
      (fun _ _ => True) fun _ => True := by
  have same := across_lift_of_copies wrapping_trampolines held d slot length copy
    (fun _ => growing_trampolines) m
  exact ((lifts_lift held d slot length copy m).both same).mono
    (fun _ _ lifted => lifted.1.later lifted.2) fun _ _ _ => trivial

/-! ### Reading again -/

theorem Heap.rest_eq_slice {h : Heap} {address : Nat} (inside : address ≤ h.size) :
    (h.bytes.extract address h.size).toList = h.slice address (h.size - address) := by
  have whole : address + (h.size - address) = h.size := Nat.add_sub_cancel' inside
  rw [← h.slice_eq_extract (by omega), whole]

/-- A string that is terminated is not read any further in a longer heap. -/
theorem Heap.Prolongs.readString {h g : Heap} {address : Nat} {text : String}
    (prolongs : h.Prolongs g) (ran : Heap.readString address h = .ok text h) :
    Heap.readString address g = .ok text g := by
  have longer := prolongs.size_le
  unfold Heap.readString at ran ⊢
  split at ran
  · cases ran
  · rename_i inside
    have behind : ¬ h.size < address := fun past => inside (.inr past)
    have more : (g.bytes.extract address g.size).toList =
        (h.bytes.extract address h.size).toList ++ g.slice h.size (g.size - h.size) := by
      have same : g.slice address (h.size - address) = h.slice address (h.size - address) :=
        Heap.slice_congr fun x _ below => prolongs.byteAt_eq x (by omega)
      have parts : g.slice address (h.size - address + (g.size - h.size)) = _ :=
        g.slice_append (h.size - address) (g.size - h.size)
      rw [Heap.rest_eq_slice (by omega), Heap.rest_eq_slice (by omega), ← same]
      rwa [show h.size - address + (g.size - h.size) = g.size - address by omega,
        show address + (h.size - address) = h.size by omega] at parts
    dsimp only at ran
    split at ran
    · cases ran
    · rename_i ends
      have first : (g.bytes.extract address g.size).toList.takeWhile (· != 0) =
          (h.bytes.extract address h.size).toList.takeWhile (· != 0) := by
        rw [more, List.takeWhile_append, if_neg ends]
      have shorter := (List.takeWhile_sublist (fun b : UInt8 => b != 0)
        (l := (h.bytes.extract address h.size).toList)).length_le
      have ends' : ((h.bytes.extract address h.size).toList.takeWhile (· != 0)).length ≠
          (g.bytes.extract address g.size).toList.length := by
        rw [more, List.length_append]
        omega
      rw [if_neg (by omega)]
      dsimp only
      rw [first, if_neg ends']
      cases decoded : String.fromUTF8?
          ⟨((h.bytes.extract address h.size).toList.takeWhile (· != 0)).toArray⟩ with
      | none =>
        rw [decoded] at ran
        cases ran
      | some s =>
        rw [decoded] at ran
        cases ran
        rfl

/-! ### Lifting again -/

theorem liftInstance_again {d : Descriptor} {address : Nat}
    (ran : liftInstance held d address copy m = .ok v t) (later : Later (v :: held) t held' u) :
    (liftInstance held' d address copy).Gives u (fun _ _ => True) fun _ _ => False := by
  have whole := ((liftInstance_advances d address copy held m).of_ok ran).trans later
  unfold liftInstance at ran ⊢
  split at ran
  · rename_i null
    rw [if_pos null]
    trivial
  · rename_i somewhere
    rw [if_neg somewhere, gives_bind, gives_get]
    obtain ⟨_, _, state, onward⟩ := exists_of_bind ran
    cases state
    cases known : m.wrappers.lookup? held address with
    | some w =>
      rw [whole.lookup? known]
      trivial
    | none =>
      rw [known] at onward
      cases u.wrappers.lookup? held' address with
      | some w => trivial
      | none =>
        dsimp only at onward ⊢
        split at onward
        · split at onward
          · rename_i copied
            rw [if_pos copied]
            split at onward
            · cases onward
            · obtain ⟨a, x, copies, -⟩ := exists_of_bind onward
              have within := (whole.prolongs.slice_eq (accessible_of_copyBlock copies)).1
              rw [gives_bind, gives_touch]
              exact (Heap.copyBlock_extends within).mono (fun _ _ _ => trivial) fun _ _ never => never
          · rename_i shared
            rw [if_neg shared]
            trivial
        · trivial

theorem liftChar_again {code : Nat} (ran : liftChar code m = .ok v t) :
    (liftChar code).Gives u (fun _ _ => True) fun _ _ => False := by
  unfold liftChar at ran ⊢
  split
  · trivial
  · rename_i surrogate
    rw [if_neg surrogate] at ran
    cases ran

theorem liftCallback_again {address : Nat} (ran : liftCallback address m = .ok v t)
    (same : u.trampolines = m.trampolines) :
    (liftCallback address).Gives u (fun _ _ => True) fun _ _ => False := by
  unfold liftCallback at ran ⊢
  split
  · trivial
  · rename_i somewhere
    rw [if_neg somewhere] at ran
    rw [gives_bind, gives_get, same]
    obtain ⟨_, _, state, onward⟩ := exists_of_bind ran
    cases state
    split
    · trivial
    · rename_i unknown
      rw [unknown] at onward
      cases onward

theorem repeats_liftInstance (d : Descriptor) (address : Nat) (copy : Bool) :
    Repeats fun held => liftInstance held d address copy :=
  ⟨liftInstance_advances d address copy, liftInstance_again⟩

section Loops

variable {liftAt : List Value → Nat → ConversionM Value}
  {liftItem : List Value → Slot → ConversionM Value} {vs : List Value}

theorem repeats_liftPositions (repeats : ∀ position, Repeats fun held => liftAt held position)
    (count position : Nat) :
    Repeats fun held => do return .array (← liftPositions liftAt held count position) := by
  induction count generalizing position with
  | zero => exact ⟨fun held m => .cons held _ m, fun _ _ => trivial⟩
  | succ count ih =>
    constructor
    · intro held m
      rw [gives_bind, liftPositions, gives_bind]
      refine ((repeats position).advances held m).mono (fun v t first => ?_) fun _ _ _ => trivial
      have rest := (ih (position + 1)).advances (v :: held) t
      rw [gives_bind] at rest ⊢
      exact rest.mono (fun vs u second => (first.trans second).trans (.array held v vs u))
        fun _ _ _ => trivial
    · intro held held' m w t u ran later
      obtain ⟨_, _, onward, done⟩ := exists_of_bind ran
      cases done
      obtain ⟨v, x, here, onward⟩ := exists_of_bind onward
      obtain ⟨vs, _, others, done⟩ := exists_of_bind onward
      cases done
      have packed : (do return .array (← liftPositions liftAt (v :: held) count (position + 1)) :
          ConversionM Value) x = .ok (.array vs) t := bind_of_ok others
      have after := (((ih (position + 1)).advances (v :: held) x).of_ok packed).trans
        ((Later.array held v vs t).trans later)
      rw [gives_bind, liftPositions, gives_bind]
      refine ((repeats position).repeated here after).mono (fun v' u' second => ?_)
        fun _ _ never => never
      have rest := (ih (position + 1)).again packed
        (((Later.array held v vs t).trans later).trans second)
      rw [gives_bind] at rest ⊢
      exact rest

/-- Lifts the item of a node, and gives the next node with it. -/
def liftNode (liftItem : List Value → Slot → ConversionM Value) (held : List Value) (node : Nat) :
    ConversionM (Value × Nat) := do
  let item ← Memory.touch (Heap.load node 8)
  let v ← liftItem held item
  let next ← Memory.onHeap (nextNode node)
  return (v, next)

theorem liftNodes_succ {fuel node : Nat} (nonzero : node ≠ 0) :
    liftNodes liftItem held (fuel + 1) node = do
      let (v, next) ← liftNode liftItem held node
      let rest ← liftNodes liftItem (v :: held) fuel next
      return v :: rest := by
  rw [liftNodes, if_neg nonzero, liftNode]
  simp only [bind_assoc, pure_bind]

theorem loaded_of_touch {address size : Nat} {item : Slot}
    (ran : (Memory.touch (Heap.load address size) : ConversionM Slot) m = .ok item t) :
    t = m ∧ Heap.load address size m.heap = .ok item m.heap := by
  obtain ⟨same, loaded⟩ :=
    (gives_reading (across_load Heap.composes_same address size).mapError).of_ok ran
  exact ⟨same, ok_of_act loaded⟩

theorem stepped_of_onHeap {node next : Nat}
    (ran : (Memory.onHeap (nextNode node) : ConversionM Nat) m = .ok next t) :
    t = m ∧ nextNode node m.heap = .ok next m.heap :=
  (gives_reading (across_nextNode Heap.composes_same node)).of_ok ran

theorem onHeap_of_ok {α : Type} {x : LayoutM α} {a : α} (run : x m.heap = .ok a m.heap) :
    (Memory.onHeap x : ConversionM α) m = .ok a m := by
  rw [Memory.onHeap, run]

theorem liftNode_advances (repeats : ∀ item, Repeats fun held => liftItem held item)
    (held : List Value) (node : Nat) (m : Memory) :
    (liftNode liftItem held node).Gives m (fun r t => Later held m (r.1 :: held) t)
      (fun _ _ => True) fun _ => True := by
  refine (gives_self _ m).mono (fun r t ran => ?_) fun _ _ _ => trivial
  obtain ⟨item, _, loaded, onward⟩ := exists_of_bind ran
  obtain ⟨rfl, -⟩ := loaded_of_touch loaded
  obtain ⟨v, u, lifted, onward⟩ := exists_of_bind onward
  obtain ⟨next, _, stepped, done⟩ := exists_of_bind onward
  obtain ⟨rfl, -⟩ := stepped_of_onHeap stepped
  cases done
  exact ((repeats item).advances held _).of_ok lifted

/-- A node whose item was lifted is followed by the same node later. -/
theorem liftNode_again (repeats : ∀ item, Repeats fun held => liftItem held item) {node next : Nat}
    (ran : liftNode liftItem held node m = .ok (v, next) t) (later : Later (v :: held) t held' u) :
    (liftNode liftItem held' node).Gives u
      (fun r x => r.2 = next ∧ Later held' u (r.1 :: held') x) fun _ _ => False := by
  have whole := ((liftNode_advances repeats held node m).of_ok ran).trans later
  obtain ⟨item, _, loaded, onward⟩ := exists_of_bind ran
  obtain ⟨rfl, loaded⟩ := loaded_of_touch loaded
  obtain ⟨v, u', lifted, onward⟩ := exists_of_bind onward
  obtain ⟨next, _, stepped, done⟩ := exists_of_bind onward
  obtain ⟨rfl, stepped⟩ := stepped_of_onHeap stepped
  cases done
  have load := onHeap_of_ok (act_of_ok (whole.prolongs.load loaded))
  rw [liftNode, gives_bind]
  refine gives_of_ok load ?_
  rw [gives_bind]
  refine ((repeats item).repeated lifted later).mono (fun w x second => ?_) fun _ _ never => never
  have step := onHeap_of_ok ((later.prolongs.trans second.prolongs).nextNode stepped)
  rw [gives_bind]
  exact gives_of_ok step ⟨rfl, second⟩

theorem repeats_liftNodes (repeats : ∀ item, Repeats fun held => liftItem held item)
    (fuel node : Nat) :
    Repeats fun held => do return .array (← liftNodes liftItem held fuel node) := by
  induction fuel generalizing node with
  | zero => exact ⟨fun _ _ => trivial, fun ran _ => by cases ran⟩
  | succ fuel ih =>
    by_cases null : node = 0
    · subst null
      exact ⟨fun held m => .cons held _ m, fun _ _ => trivial⟩
    · constructor
      · intro held m
        rw [gives_bind, liftNodes_succ null, gives_bind]
        refine (liftNode_advances repeats held node m).mono (fun r t first => ?_) fun _ _ _ => trivial
        have rest := (ih r.2).advances (r.1 :: held) t
        rw [gives_bind] at rest ⊢
        exact rest.mono (fun vs u second => (first.trans second).trans (.array held r.1 vs u))
          fun _ _ _ => trivial
      · intro held held' m w t u ran later
        obtain ⟨_, _, onward, done⟩ := exists_of_bind ran
        cases done
        rw [liftNodes_succ null] at onward
        obtain ⟨⟨v, next⟩, x, here, onward⟩ := exists_of_bind onward
        obtain ⟨vs, _, others, done⟩ := exists_of_bind onward
        cases done
        have packed : (do return .array (← liftNodes liftItem (v :: held) fuel next) :
            ConversionM Value) x = .ok (.array vs) t := bind_of_ok others
        have after := (((ih next).advances (v :: held) x).of_ok packed).trans
          ((Later.array held v vs t).trans later)
        rw [gives_bind, liftNodes_succ null, gives_bind]
        refine (liftNode_again repeats here after).mono (fun r u' both => ?_) fun _ _ never => never
        obtain ⟨v', next'⟩ := r
        obtain ⟨same, second⟩ := both
        dsimp only at same
        subst same
        have rest := (ih next').again packed (((Later.array held v vs t).trans later).trans second)
        rw [gives_bind] at rest ⊢
        exact rest

/-- The element of an array that is no inline struct is read from the buffer and lifted. -/
theorem Repeats.loaded (repeats : ∀ item, Repeats fun held => liftItem held item)
    (address size : Nat) :
    Repeats fun held => Memory.touch (Heap.load address size) >>= liftItem held := by
  have advances (held : List Value) (m : Memory) :
      (Memory.touch (Heap.load address size) >>= liftItem held).Gives m
        (fun v t => Later held m (v :: held) t) (fun _ _ => True) fun _ => True := by
    refine (gives_self _ m).mono (fun v t ran => ?_) fun _ _ _ => trivial
    obtain ⟨item, _, loaded, lifted⟩ := exists_of_bind ran
    obtain ⟨rfl, -⟩ := loaded_of_touch loaded
    exact ((repeats item).advances held _).of_ok lifted
  refine ⟨advances, fun {held held' m v t u} ran later => ?_⟩
  have whole := ((advances held m).of_ok ran).trans later
  obtain ⟨item, _, loaded, lifted⟩ := exists_of_bind ran
  obtain ⟨rfl, loaded⟩ := loaded_of_touch loaded
  rw [gives_bind]
  exact gives_of_ok (onHeap_of_ok (act_of_ok (whole.prolongs.load loaded)))
    ((repeats item).again lifted later)

end Loops

theorem repeats_liftElement
    (repeats : ∀ item, Repeats fun held => lift held element item none copy) (position : Nat) :
    Repeats fun held => liftElement element base copy held position := by
  unfold liftElement
  cases placed : elementAddress base position element.size with
  | error fault => exact ⟨fun _ _ => trivial, fun ran _ => by cases ran⟩
  | ok address =>
    split
    · exact repeats_liftInstance element address true
    · exact .loaded repeats address element.size

theorem repeats_lift (d : Descriptor) (slot : Slot) (length : Option Nat) (copy : Bool) :
    Repeats fun held => lift held d slot length copy := by
  have advances := lift_advances d slot length copy
  induction d generalizing slot length with
  | basic type pointer =>
    cases type with
    | string filename =>
      refine ⟨advances, fun {held held' m v t u} ran later => ?_⟩
      have whole := ((advances held m).of_ok ran).trans later
      rw [lift] at ran ⊢
      split
      · trivial
      · rename_i somewhere
        rw [if_neg somewhere] at ran
        obtain ⟨text, t', reads, done⟩ := exists_of_bind ran
        obtain ⟨rfl, reads⟩ :=
          (gives_reading (across_readString Heap.composes_same slot.toNat).mapError).of_ok reads
        have found := whole.prolongs.readString (ok_of_act reads)
        rw [gives_bind]
        exact gives_of_ok (onHeap_of_ok (act_of_ok found)) trivial
    | unichar => exact ⟨advances, fun ran _ => liftChar_again ran⟩
    | error => exact ⟨advances, fun ran _ => by cases ran⟩
    | _ => exact ⟨advances, fun _ _ => trivial⟩
  | named type name pointer =>
    cases type with
    | enumeration storage flags => exact ⟨advances, fun _ _ => trivial⟩
    | callback =>
      exact ⟨advances, fun {held _ m _ _ _} ran later =>
        liftCallback_again ran (((advances held m).of_ok ran).trans later).trampolines⟩
    | _ => exact ⟨advances, liftInstance_again⟩
  | hash key value pointer => exact ⟨advances, fun ran _ => by cases ran⟩
  | array element mode form pointer ih =>
    have each (item : Slot) : Repeats fun held => lift held element item none copy :=
      ih item none (lift_advances element item none copy)
    refine ⟨advances, fun {held held' m v t u} ran later => ?_⟩
    have whole := ((advances held m).of_ok ran).trans later
    rw [lift] at ran ⊢
    split
    · trivial
    · rename_i somewhere
      rw [if_neg somewhere] at ran
      obtain ⟨count, t', counted, elements⟩ := exists_of_bind ran
      obtain ⟨rfl, counted⟩ :=
        (gives_reading (across_arrayLength Heap.composes_same _ _ _)).of_ok counted
      rw [gives_bind]
      refine gives_of_ok (onHeap_of_ok (whole.prolongs.arrayLength counted)) ?_
      exact (repeats_liftPositions (repeats_liftElement each) count 0).again elements later
  | list element singlyLinked pointer ih =>
    have each (item : Slot) : Repeats fun held => lift held element item none copy :=
      ih item none (lift_advances element item none copy)
    refine ⟨advances, fun ran later => ?_⟩
    rw [lift] at ran ⊢
    exact (repeats_liftNodes each chainBound slot.toNat).again ran later

end ForeignCall
