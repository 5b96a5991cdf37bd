import ForeignCall.Trampoline
import Mathlib.Data.List.Nodup
import Mathlib.Data.List.Perm.Basic

/-!
How a table of trampolines gains addresses and loses them.

`Gains t u added`: `u` came from `t` by registrations of which exactly those at `added` are still
there, with nothing given back to native code yet.
-/

set_option autoImplicit false

namespace ForeignCall

namespace TrampolineTable

variable {t u w : TrampolineTable} {added more : List Nat} {a b : Nat}

theorem addressOf_injective {m n : Nat} (same : addressOf m = addressOf n) : m = n := by
  simp only [addressOf, base, stride] at same
  omega

theorem get?_register (function : FunctionId) (plan : Plan) (release : Release) :
    (t.register function plan release).2.get? a =
      if a = addressOf t.next then some { function, plan, release } else t.get? a := by
  simp only [get?, register, Std.TreeMap.getElem?_insert, Std.LawfulEqCmp.compare_eq_iff_eq,
    eq_comm (a := a)]

theorem get?_remove : (t.remove a).get? b = if b = a then none else t.get? b := by
  simp only [get?, remove, Std.TreeMap.getElem?_erase, Std.LawfulEqCmp.compare_eq_iff_eq,
    eq_comm (a := b)]

theorem exists_number {trampoline : Trampoline} (found : t.get? a = some trampoline) :
    ∃ n < t.next, a = addressOf n := by
  refine t.numbered a (Std.TreeMap.mem_iff_isSome_getElem?.2 ?_)
  simp only [get?] at found
  rw [found, Option.isSome_some]

theorem get?_fresh {n : Nat} (later : t.next ≤ n) : t.get? (addressOf n) = none := by
  cases found : t.get? (addressOf n) with
  | none => rfl
  | some trampoline =>
    obtain ⟨m, below, same⟩ := exists_number found
    have := addressOf_injective same
    omega

structure Gains (t u : TrampolineTable) (added : List Nat) : Prop where
  next_le : t.next ≤ u.next
  kept : ∀ a, a ∉ added → u.get? a = t.get? a
  new : ∀ a ∈ added, ∃ trampoline, u.get? a = some trampoline ∧ trampoline.retained = []
  fresh : ∀ a ∈ added, ∃ n, t.next ≤ n ∧ a = addressOf n
  nodup : added.Nodup

theorem Gains.refl (t : TrampolineTable) : t.Gains t [] where
  next_le := Nat.le_refl _
  kept _ _ := rfl
  new := by simp
  fresh := by simp
  nodup := .nil

theorem Gains.register (function : FunctionId) (plan : Plan) (release : Release) :
    t.Gains (t.register function plan release).2 [(t.register function plan release).1] where
  next_le := Nat.le_succ _
  kept a other := by
    rw [get?_register, if_neg (by simpa [TrampolineTable.register] using other)]
  new a listed := by
    rw [List.mem_singleton.1 listed, get?_register]
    exact ⟨_, if_pos rfl, rfl⟩
  fresh a listed := ⟨t.next, Nat.le_refl _, List.mem_singleton.1 listed⟩
  nodup := List.nodup_singleton _

theorem Gains.below (gains : t.Gains u added) (listed : a ∈ added) :
    ∃ n < u.next, a = addressOf n := by
  obtain ⟨trampoline, found, -⟩ := gains.new a listed
  exact exists_number found

theorem Gains.apart (first : t.Gains u added) (second : u.Gains w more) (listed : a ∈ added) :
    a ∉ more := by
  intro again
  obtain ⟨m, below, rfl⟩ := first.below listed
  obtain ⟨n, later, same⟩ := second.fresh _ again
  have := addressOf_injective same
  omega

theorem Gains.trans (first : t.Gains u added) (second : u.Gains w more) :
    t.Gains w (added ++ more) where
  next_le := Nat.le_trans first.next_le second.next_le
  kept a other := by
    rw [List.mem_append, not_or] at other
    rw [second.kept a other.2, first.kept a other.1]
  new a listed := by
    rcases List.mem_append.1 listed with earlier | later
    · rw [second.kept a (first.apart second earlier)]
      exact first.new a earlier
    · exact second.new a later
  fresh a listed := by
    rcases List.mem_append.1 listed with earlier | later
    · exact first.fresh a earlier
    · obtain ⟨n, above, same⟩ := second.fresh a later
      exact ⟨n, Nat.le_trans first.next_le above, same⟩
  nodup := first.nodup.append second.nodup fun _ earlier later => first.apart second earlier later

theorem Gains.perm (gains : t.Gains u added) (same : added.Perm more) : t.Gains u more where
  next_le := gains.next_le
  kept a other := gains.kept a fun listed => other (same.mem_iff.1 listed)
  new a listed := gains.new a (same.mem_iff.2 listed)
  fresh a listed := gains.fresh a (same.mem_iff.2 listed)
  nodup := same.nodup_iff.1 gains.nodup

theorem Gains.get?_eq_none (gains : t.Gains u added) (listed : a ∈ added) : t.get? a = none := by
  obtain ⟨n, later, rfl⟩ := gains.fresh a listed
  exact get?_fresh later

/-- Losing some of the addresses that were gained leaves the others. -/
theorem Gains.without (gains : t.Gains u (added ++ more)) (next : w.next = u.next)
    (gone : ∀ a, w.get? a = if a ∈ added then none else u.get? a) : t.Gains w more where
  next_le := Nat.le_trans gains.next_le (Nat.le_of_eq next.symm)
  kept a other := by
    rw [gone]
    split
    · rename_i listed
      rw [gains.get?_eq_none (List.mem_append_left _ listed)]
    · rename_i absent
      exact gains.kept a (by simp [absent, other])
  new a listed := by
    rw [gone, if_neg fun again => List.disjoint_of_nodup_append gains.nodup again listed]
    exact gains.new a (List.mem_append_right _ listed)
  fresh a listed := gains.fresh a (List.mem_append_right _ listed)
  nodup := (List.nodup_append.1 gains.nodup).2.1

theorem Gains.get?_eq_iff (gains : t.Gains u added) : u.get? = t.get? ↔ added = [] := by
  constructor
  · intro same
    apply List.eq_nil_iff_forall_not_mem.2
    intro a listed
    obtain ⟨trampoline, found, -⟩ := gains.new a listed
    rw [same, gains.get?_eq_none listed] at found
    cases found
  · rintro rfl
    exact funext fun a => gains.kept a List.not_mem_nil

/-! ### Release points -/

/-- The release point of the trampoline at an address, if there is one. -/
def releaseAt (t : TrampolineTable) (a : Nat) : Option Release := (t.get? a).map (·.release)

theorem releaseAt_eq_none : t.releaseAt a = none ↔ t.get? a = none := Option.map_eq_none_iff

theorem isSpent_iff : t.isSpent a = true ↔ t.releaseAt a = some .afterFirstInvocation := by
  rw [isSpent, releaseAt]
  cases t.get? a <;> simp

theorem releaseAt_of_get? {trampoline : Trampoline} (found : t.get? a = some trampoline) :
    t.releaseAt a = some trampoline.release := by
  rw [releaseAt, found, Option.map_some]

theorem exists_number_of_releaseAt {r : Release} (found : t.releaseAt a = some r) :
    ∃ n < t.next, a = addressOf n := by
  obtain ⟨trampoline, present, -⟩ := Option.map_eq_some_iff.1 found
  exact exists_number present

theorem get?_update (f : Trampoline → Trampoline) :
    (t.update a f).get? b = if b = a then (t.get? a).map f else t.get? b := by
  unfold update
  split
  · rename_i trampoline found
    simp only [get?, Std.TreeMap.getElem?_insert, Std.LawfulEqCmp.compare_eq_iff_eq, eq_comm (a := b)]
    simp only [get?] at found
    simp [found]
  · rename_i absent
    split
    · rename_i same
      rw [same, absent, Option.map_none]
    · rfl

theorem next_update (f : Trampoline → Trampoline) : (t.update a f).next = t.next := by
  unfold update
  split <;> rfl

/-- Nothing was registered and nothing left. -/
structure Keeps (t u : TrampolineTable) : Prop where
  next_eq : u.next = t.next
  releaseAt_eq : ∀ a, u.releaseAt a = t.releaseAt a

theorem Keeps.refl (t : TrampolineTable) : t.Keeps t := ⟨rfl, fun _ => rfl⟩

theorem Keeps.trans (first : t.Keeps u) (second : u.Keeps w) : t.Keeps w :=
  ⟨second.next_eq.trans first.next_eq, fun a => (second.releaseAt_eq a).trans (first.releaseAt_eq a)⟩

theorem Keeps.update {f : Trampoline → Trampoline} (same : ∀ x, (f x).release = x.release) :
    t.Keeps (t.update a f) where
  next_eq := next_update f
  releaseAt_eq b := by
    simp only [releaseAt, get?_update]
    split
    · rename_i here
      rw [here, Option.map_map]
      exact Option.map_congr fun x _ => same x
    · rfl

/-- Registrations only, at new addresses. -/
structure Extends (t u : TrampolineTable) : Prop where
  next_le : t.next ≤ u.next
  releaseAt_eq : ∀ n < t.next, u.releaseAt (addressOf n) = t.releaseAt (addressOf n)

theorem Keeps.extends (keeps : t.Keeps u) : t.Extends u :=
  ⟨Nat.le_of_eq keeps.next_eq.symm, fun n _ => keeps.releaseAt_eq (addressOf n)⟩

theorem Extends.trans (first : t.Extends u) (second : u.Extends w) : t.Extends w where
  next_le := Nat.le_trans first.next_le second.next_le
  releaseAt_eq n below := by
    rw [second.releaseAt_eq n (Nat.lt_of_lt_of_le below first.next_le), first.releaseAt_eq n below]

theorem Extends.register (function : FunctionId) (plan : Plan) (release : Release) :
    t.Extends (t.register function plan release).2 where
  next_le := Nat.le_succ _
  releaseAt_eq n below := by
    rw [releaseAt, get?_register, if_neg, releaseAt]
    intro same
    have := addressOf_injective same
    omega

/-- What is in the table stays there, with its release point. -/
theorem Extends.releaseAt_of_some (extends_ : t.Extends u) {r : Release}
    (found : t.releaseAt a = some r) : u.releaseAt a = some r := by
  obtain ⟨n, below, rfl⟩ := exists_number_of_releaseAt found
  rw [extends_.releaseAt_eq n below, found]

/-- The trampolines at exactly these addresses left, as far as there were any. -/
structure Loses (t u : TrampolineTable) (gone : List Nat) : Prop where
  next_eq : u.next = t.next
  releaseAt_eq : ∀ a, u.releaseAt a = if a ∈ gone then none else t.releaseAt a

variable {gone : List Nat}

theorem Keeps.loses (keeps : t.Keeps u) : t.Loses u [] :=
  ⟨keeps.next_eq, fun a => by rw [if_neg List.not_mem_nil, keeps.releaseAt_eq]⟩

theorem Loses.trans (first : t.Loses u gone) (second : u.Loses w more) :
    t.Loses w (gone ++ more) where
  next_eq := second.next_eq.trans first.next_eq
  releaseAt_eq a := by
    rw [second.releaseAt_eq, first.releaseAt_eq]
    by_cases later : a ∈ more <;> by_cases earlier : a ∈ gone <;> simp [later, earlier]

theorem Loses.absent (none : t.releaseAt a = none) : t.Loses t [a] where
  next_eq := rfl
  releaseAt_eq b := by
    by_cases here : b = a <;> simp [here, none]

theorem Loses.remove (a : Nat) : t.Loses (t.remove a) [a] where
  next_eq := rfl
  releaseAt_eq b := by
    simp only [releaseAt, get?_remove, List.mem_singleton]
    split <;> rfl

/-- However `u` came from `t`, no trampoline came back and none changed its release point. -/
structure Later (t u : TrampolineTable) : Prop where
  next_le : t.next ≤ u.next
  releaseAt_eq : ∀ n < t.next, u.releaseAt (addressOf n) = t.releaseAt (addressOf n) ∨
    u.releaseAt (addressOf n) = none

theorem Extends.later (extends_ : t.Extends u) : t.Later u :=
  ⟨extends_.next_le, fun n below => .inl (extends_.releaseAt_eq n below)⟩

theorem Loses.later (loses : t.Loses u gone) : t.Later u := by
  refine ⟨Nat.le_of_eq loses.next_eq.symm, fun n _ => ?_⟩
  rw [loses.releaseAt_eq]
  split
  · exact .inr rfl
  · exact .inl rfl

theorem Later.trans (first : t.Later u) (second : u.Later w) : t.Later w where
  next_le := Nat.le_trans first.next_le second.next_le
  releaseAt_eq n below := by
    rcases second.releaseAt_eq n (Nat.lt_of_lt_of_le below first.next_le) with same | none
    · rw [same]
      exact first.releaseAt_eq n below
    · exact .inr none

theorem Later.releaseAt_of_some (later : t.Later u) {r : Release}
    (found : t.releaseAt a = some r) : u.releaseAt a = some r ∨ u.releaseAt a = none := by
  obtain ⟨n, below, rfl⟩ := exists_number_of_releaseAt found
  rw [← found]
  exact later.releaseAt_eq n below

/-- What is in the table was there as soon as its address was given out. -/
theorem Later.releaseAt_of_lt (later : t.Later u) {n : Nat} {r : Release} (below : n < t.next)
    (found : u.releaseAt (addressOf n) = some r) : t.releaseAt (addressOf n) = some r := by
  rcases later.releaseAt_eq n below with same | none
  · rw [← same, found]
  · rw [found] at none
    cases none

/-- An address that was given out and is not in the table any more. -/
def Retired (t : TrampolineTable) (a : Nat) : Prop :=
  (∃ n < t.next, a = addressOf n) ∧ t.releaseAt a = none

theorem Later.retired (later : t.Later u) (retired : t.Retired a) : u.Retired a := by
  obtain ⟨⟨n, below, rfl⟩, none⟩ := retired
  refine ⟨⟨n, Nat.lt_of_lt_of_le below later.next_le, rfl⟩, ?_⟩
  rcases later.releaseAt_eq n below with same | none'
  · rw [same, none]
  · exact none'

/-- No trampoline stands at the address of the destroy notifier. -/
theorem ne_destroyNotifyAddress (n : Nat) : addressOf n ≠ destroyNotifyAddress := by
  simp only [addressOf, base, destroyNotifyAddress]
  omega

end TrampolineTable

end ForeignCall
