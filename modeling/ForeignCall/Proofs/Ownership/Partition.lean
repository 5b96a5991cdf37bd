import ForeignCall.Proofs.Ownership.Lowering

/-!
The two sides of a transfer share what a lowered value owns.

What the caller still holds of a value that went in and what the callee was given of it are disjoint
and together everything. So one pass for each side, in whichever order, undoes the lowering.
-/

set_option autoImplicit false

namespace ForeignCall

open Heap (Frees)

variable {d : Descriptor} {v : Value} {m t : Memory} {env : Environment} {nullable : Bool}
  {slot : Slot} {given : Option Nat} {f : Footprint} {count : Nat}

theorem held_perm_all (f : Footprint) (transfer : Transfer) :
    (f.held (.of transfer .input) ++ f.held (.of transfer .output)).Perm f.all := by
  cases transfer <;> simp [Footprint.held, Footprint.all, Holding.of]

/-- A slot that a value was lowered to, and the length that release passes are told with it. -/
inductive LoweredTo (env : Environment) (d : Descriptor) (v : Value) (nullable : Bool) (m : Memory) :
    Slot → Option Nat → Memory → Prop
  /-- No length has to be told, or none at all tells everything. -/
  | value {slot : Slot} {given : Option Nat} {t : Memory}
      (run : lower env d v nullable m = .ok slot t) (told : ∀ count, d.Told given count) :
      LoweredTo env d v nullable m slot given t
  /-- The count is told that was reported for an array. -/
  | array {slot : Slot} {count : Nat} {t : Memory}
      (run : lowerArray env d v nullable m = .ok (slot, count) t) :
      LoweredTo env d v nullable m slot (some count) t

theorem LoweredTo.owns (lowered : LoweredTo env d v nullable m slot given t)
    (measured : d.isMeasuredWithin = true) :
    ∃ f count, Owns t.heap d slot count f ∧ d.Told given count ∧ m.heap.Grows t.heap f.all := by
  cases lowered with
  | value run told =>
    obtain ⟨count, f, owned, grows, -⟩ := (lower_lowers measured nullable v m).of_ok run
    exact ⟨f, count, owned, told count, grows⟩
  | array run =>
    obtain ⟨f, owned, grows, -⟩ := (lowerArray_gives measured m).of_ok run
    refine ⟨f, _, owned, ?_, grows⟩
    cases d with
    | array element mode form pointer => exact .inl rfl
    | _ => trivial

theorem release_twice {h g : Heap} {first second : Holding} (owned : Owns g d slot count f)
    (grows : h.Grows g f.all) (told : d.Told given count)
    (plain : d.isReferenceFree = true) (whole : (f.held first ++ f.held second).Perm f.all) :
    ∃ k e, release d slot first given g = .ok () k ∧ g.Sheds k (f.held first) ∧
      release d slot second given k = .ok () e ∧ k.Sheds e (f.held second) ∧
      e.blockSize? = h.blockSize? := by
  have gained := grows.perm whole.symm
  obtain ⟨k, run, sheds⟩ :=
    release_owned owned told (fun _ => plain) gained.keeps.left
  obtain ⟨e, run', sheds'⟩ :=
    release_owned (owned.of_sheds sheds) told (fun _ => plain) (gained.keeps.right sheds)
  exact ⟨k, e, run, sheds, run', sheds', ((gained.sheds sheds).sheds_all sheds').blockSize?_eq⟩

/-- A value that was lowered can be released once for each side, in either order: the passes succeed,
free disjoint blocks, and what they free together is exactly what the lowering took. -/
theorem lowering_partitioned (lowered : LoweredTo env d v nullable m slot given t)
    (measured : d.isMeasuredWithin = true) (plain : d.isReferenceFree = true)
    (transfer : Transfer) :
    ∃ inside outside : List Block, m.heap.Grows t.heap (inside ++ outside) ∧
      (∃ g k, freeValue d slot transfer .input given t.heap = .ok () g ∧ t.heap.Sheds g inside ∧
        freeValue d slot transfer .output given g = .ok () k ∧ g.Sheds k outside ∧
        k.blockSize? = m.heap.blockSize?) ∧
      (∃ g k, freeValue d slot transfer .output given t.heap = .ok () g ∧ t.heap.Sheds g outside ∧
        freeValue d slot transfer .input given g = .ok () k ∧ g.Sheds k inside ∧
        k.blockSize? = m.heap.blockSize?) := by
  obtain ⟨f, count, owned, told, grows⟩ := lowered.owns measured
  have whole := held_perm_all f transfer
  refine ⟨f.held (.of transfer .input), f.held (.of transfer .output), grows.perm whole.symm, ?_, ?_⟩
  · exact release_twice owned grows told plain whole
  · exact release_twice owned grows told plain (List.perm_append_comm.trans whole)

theorem lowering_partitioned_rows :
    let row : Descriptor := .list (.basic (.string false) true) false true
    let rows : Descriptor := .array row (.parameter 1) .c true
    let v : Value := .array [.array [.string "ab", .string "c"], .array []]
    ∃ slot count t, lowerArray ⟨.initial, .pin⟩ rows v false .empty = .ok (slot, count) t ∧
      ∃ inside outside : List Block, Memory.empty.heap.Grows t.heap (inside ++ outside) ∧
        (∃ g k, freeValue rows slot .container .input (some count) t.heap = .ok () g ∧
          t.heap.Sheds g inside ∧
          freeValue rows slot .container .output (some count) g = .ok () k ∧ g.Sheds k outside ∧
          k.blockSize? = Memory.empty.heap.blockSize?) ∧
        (∃ g k, freeValue rows slot .container .output (some count) t.heap = .ok () g ∧
          t.heap.Sheds g outside ∧
          freeValue rows slot .container .input (some count) g = .ok () k ∧ g.Sheds k inside ∧
          k.blockSize? = Memory.empty.heap.blockSize?) := by
  intro row rows v
  have run : ∃ packed t, lowerArray ⟨.initial, .pin⟩ rows v false .empty = .ok packed t :=
    Action.exists_ok (by decide +kernel)
  obtain ⟨⟨slot, count⟩, t, run⟩ := run
  exact ⟨slot, count, t, run, lowering_partitioned (.array run) rfl rfl .container⟩

end ForeignCall
