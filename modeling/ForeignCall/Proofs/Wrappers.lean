import ForeignCall.Memory
import Mathlib.Tactic.Common

/-!
What becomes of a table of wrappers.

`Wraps t u`: `u` came from `t` by making wrappers, each with an identity that none had before. An address
may have a new wrapper in place of an older one, and none gave up what it owns.

`Becomes t u`: in between, wrappers were released, too. A wrapper that gave up what it owned never owns
anything again, and no wrapper did so before it was made.
-/

set_option autoImplicit false

namespace ForeignCall

namespace WrapperTable

variable {t u v : WrapperTable}

structure Wraps (t u : WrapperTable) : Prop where
  next_le : t.next ≤ u.next
  disowned_eq : u.disowned = t.disowned
  fresh : ∀ (a : Nat) (y : Wrapper), u.cached[a]? = some y →
    t.cached[a]? = some y ∨ t.next ≤ y.id ∧ y.id < u.next

theorem Wraps.refl (t : WrapperTable) : t.Wraps t := ⟨Nat.le_refl _, rfl, fun _ _ => .inl⟩

theorem Wraps.trans (first : t.Wraps u) (second : u.Wraps v) : t.Wraps v where
  next_le := Nat.le_trans first.next_le second.next_le
  disowned_eq := second.disowned_eq.trans first.disowned_eq
  fresh a y found := by
    rcases second.fresh a y found with earlier | ⟨above, below⟩
    · exact (first.fresh a y earlier).imp_right (And.imp_right (Nat.lt_of_lt_of_le · second.next_le))
    · exact .inr ⟨Nat.le_trans first.next_le above, below⟩

theorem wraps_fresh (t : WrapperTable) (address : Nat) (typeName : String) (adopts : Bool) :
    t.Wraps (t.fresh address typeName adopts).2 :=
  ⟨Nat.le_succ _, rfl, fun _ _ => .inl⟩

theorem wraps_wrap (t : WrapperTable) (held : List Value) (address : Nat) (typeName : String)
    (adopts : Bool) : t.Wraps (t.wrap held address typeName adopts).2 := by
  unfold wrap
  cases t.lookup? held address with
  | some w => exact .refl t
  | none =>
    refine ⟨Nat.le_succ _, rfl, fun a y found => ?_⟩
    dsimp only [WrapperTable.fresh] at found ⊢
    rw [Std.TreeMap.getElem?_insert] at found
    split at found
    · cases found
      exact .inr ⟨Nat.le_refl _, Nat.lt_succ_self _⟩
    · exact .inl found

/-! ### The wrapper of an address -/

section Address

variable {held : List Value} {address : Nat}

theorem address_of_lookup? {w : Wrapper} (found : t.lookup? held address = some w) :
    w.address = address ∧ Value.anyHolds w.id held = true := by
  rw [lookup?, Option.filter_eq_some_iff] at found
  exact ⟨t.addressed address w found.1, found.2⟩

theorem wrap_of_missing (missing : t.lookup? held address = none) (typeName : String)
    (adopts : Bool) :
    (t.wrap held address typeName adopts).1 = (t.fresh address typeName adopts).1 := by
  rw [wrap]
  split
  · rename_i found
    rw [missing] at found
    cases found
  · rfl

theorem wrap_address (t : WrapperTable) (held : List Value) (address : Nat) (typeName : String)
    (adopts : Bool) : (t.wrap held address typeName adopts).1.address = address := by
  cases found : t.lookup? held address with
  | some w =>
    simp only [wrap, found]
    exact (address_of_lookup? found).1
  | none => rw [wrap_of_missing found, WrapperTable.fresh]

end Address

/-! ### Releases -/

/-- What can become of a table: wrappers are made, and wrappers that were made are released. -/
inductive Becomes (t : WrapperTable) : WrapperTable → Prop
  | refl : Becomes t t
  | wraps {u v : WrapperTable} (earlier : Becomes t u) (step : u.Wraps v) : Becomes t v
  | disown {u : WrapperTable} {y : Wrapper} (earlier : Becomes t u) (made : y.id < u.next) :
    Becomes t (u.disown y)

variable {y : Wrapper}

theorem contains_disown (t : WrapperTable) (y : Wrapper) (id : Nat) :
    (t.disown y).disowned.contains id = (y.id == id || t.disowned.contains id) := by
  rw [disown, Std.TreeSet.contains_insert]
  congr 1
  rw [Bool.eq_iff_iff, beq_iff_eq, beq_iff_eq, Std.LawfulEqCmp.compare_eq_iff_eq]

theorem Becomes.disowned (becomes : t.Becomes u) {id : Nat} (gone : t.disowned.contains id = true) :
    u.disowned.contains id = true := by
  induction becomes with
  | refl => exact gone
  | wraps _ step ih => rwa [step.disowned_eq]
  | disown _ _ ih => rw [contains_disown, ih, Bool.or_true]

theorem Becomes.disowned_lt (becomes : empty.Becomes t) {id : Nat}
    (gone : t.disowned.contains id = true) : id < t.next := by
  induction becomes with
  | refl => simp [empty] at gone
  | wraps _ step ih =>
    rw [step.disowned_eq] at gone
    exact Nat.lt_of_lt_of_le (ih gone) step.next_le
  | disown _ made ih =>
    rw [contains_disown, Bool.or_eq_true, beq_iff_eq] at gone
    rcases gone with rfl | earlier
    · exact made
    · exact ih earlier

theorem owns_disown (t : WrapperTable) (y : Wrapper) : (t.disown y).owns y = false := by
  rw [owns, contains_disown, beq_self_eq_true, Bool.true_or, Bool.not_true, Bool.and_false]

theorem Wraps.owns_eq (wraps : t.Wraps u) (y : Wrapper) : u.owns y = t.owns y := by
  rw [owns, wraps.disowned_eq, owns]

theorem Becomes.owns_eq_false (becomes : t.Becomes u) (nothing : t.owns y = false) :
    u.owns y = false := by
  rw [owns, Bool.and_eq_false_iff, Bool.not_eq_false'] at nothing ⊢
  exact nothing.imp_right becomes.disowned

/-- The wrapper that an address gives to own it does so, unless a value held refers to one that does
not. -/
theorem owns_wrap (reached : empty.Becomes t) (held : List Value) (address : Nat)
    (typeName : String) :
    (t.wrap held address typeName true).2.owns (t.wrap held address typeName true).1 =
      (t.lookup? held address).all t.owns := by
  rw [(t.wraps_wrap held address typeName true).owns_eq]
  cases found : t.lookup? held address with
  | some w => simp only [wrap, found, Option.all_some]
  | none =>
    have unreleased : t.disowned.contains t.next = false := by
      rw [Bool.eq_false_iff]
      exact fun gone => Nat.lt_irrefl _ (reached.disowned_lt gone)
    rw [wrap_of_missing found, WrapperTable.fresh, owns, unreleased]
    rfl

end WrapperTable

end ForeignCall
