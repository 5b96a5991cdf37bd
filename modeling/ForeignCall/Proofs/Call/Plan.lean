import ForeignCall.Plan
import Mathlib.Data.List.Basic

/-!
What deriving a plan guarantees about the links between arguments.

Whatever an argument refers to exists, and the script does not see it.
-/

set_option autoImplicit false

namespace ForeignCall

theorem Except.exists_of_bind {ε α β : Type} {x : Except ε α} {f : α → Except ε β} {b : β}
    (run : (x >>= f) = .ok b) : ∃ a, x = .ok a ∧ f a = .ok b := by
  cases x with
  | error e => cases run
  | ok a => exact ⟨a, rfl, run⟩

theorem Except.exists_bind_iff {ε α β : Type} {x : Except ε α} {f : α → Except ε β} :
    (∃ b, (x >>= f) = .ok b) ↔ ∃ a, x = .ok a ∧ ∃ b, f a = .ok b := by
  constructor
  · rintro ⟨b, run⟩
    obtain ⟨a, first, second⟩ := exists_of_bind run
    exact ⟨a, first, b, second⟩
  · rintro ⟨a, rfl, second⟩
    exact second

theorem Except.mapError_eq_ok_iff {ε ε' α : Type} {x : Except ε α} {f : ε → ε'} {a : α} :
    x.mapError f = .ok a ↔ x = .ok a := by
  cases x <;> simp [Except.mapError]

namespace Plan

structure Wired (plan : Plan) : Prop where
  array : ∀ p ∈ plan.parameters, ∀ length, p.role = .array length →
    (∃ element form pointer, p.type = .array element (.parameter length) form pointer) ∧
      ∃ q, plan.parameters[length]? = some q ∧ q.role = .skip
  callback : ∀ p ∈ plan.parameters, ∀ closure destroy, p.role = .callback closure destroy →
    (∃ name pointer, p.type = .named .callback name pointer) ∧
      ∀ i ∈ closure.toList ++ destroy.toList, ∃ q, plan.parameters[i]? = some q ∧ q.role = .skip

inductive Claimed.Fits (count : Nat) : Claimed → Prop
  | array {p : Parameter} {length : Nat} {element : Descriptor} {form : ArrayForm} {pointer : Bool}
      (role : p.role = .array length)
      (type : p.type = .array element (.parameter length) form pointer) (inside : length < count) :
      Claimed.Fits count ⟨p, [length]⟩
  | callback {p : Parameter} {closure destroy : Option Nat} {name : String} {pointer : Bool}
      (role : p.role = .callback closure destroy) (type : p.type = .named .callback name pointer)
      (inside : ∀ i ∈ closure.toList ++ destroy.toList, i < count) :
      Claimed.Fits count ⟨p, closure.toList ++ destroy.toList⟩
  | plain {p : Parameter} (role : p.role = .skip ∨ p.role = .normal) : Claimed.Fits count ⟨p, []⟩

variable {callable : String} {count position : Nat} {a : ArgumentRecord} {type : Descriptor}

theorem checkIndex_ok {argument : String} {index i : Nat}
    (run : checkIndex callable count argument index = .ok i) : i = index ∧ i < count := by
  unfold checkIndex at run
  split at run
  · cases run
    exact ⟨rfl, by assumption⟩
  · cases run

theorem checkLink_ok {argument : String} {link found : Option Nat}
    (run : checkLink callable count argument link = .ok found) :
    found = link ∧ ∀ i ∈ found, i < count := by
  cases link with
  | none =>
    cases run
    exact ⟨rfl, by simp⟩
  | some index =>
    obtain ⟨i, checked, done⟩ := Except.exists_of_bind run
    obtain ⟨rfl, inside⟩ := checkIndex_ok checked
    cases done
    exact ⟨rfl, by simpa using inside⟩

theorem claim_fits {c : Claimed} (run : claim callable count position a type = .ok c) :
    c.Fits count := by
  unfold claim at run
  split at run
  · obtain ⟨length, checked, done⟩ := Except.exists_of_bind run
    obtain ⟨rfl, inside⟩ := checkIndex_ok checked
    cases done
    exact .array rfl rfl inside
  · split at run
    · cases run
      exact .plain (.inl rfl)
    · split at run
      · cases run
      · obtain ⟨closure, first, rest⟩ := Except.exists_of_bind run
        obtain ⟨destroy, second, done⟩ := Except.exists_of_bind rest
        have inside := (checkLink_ok first).2
        have inside' := (checkLink_ok second).2
        cases done
        refine .callback rfl rfl fun i listed => ?_
        rcases List.mem_append.1 listed with closing | destroying
        · exact inside i (by simpa using closing)
        · exact inside' i (by simpa using destroying)
  · cases run
    refine .plain ?_
    dsimp only
    split
    · exact .inl rfl
    · exact .inr rfl

theorem claimAll_fits {arguments : List (ArgumentRecord × Descriptor)} {claimed : List Claimed}
    (run : claimAll callable count position arguments = .ok claimed) :
    claimed.length = arguments.length ∧ ∀ c ∈ claimed, c.Fits count := by
  induction arguments generalizing position claimed with
  | nil =>
    cases run
    simp
  | cons first rest ih =>
    obtain ⟨c, one, others⟩ := Except.exists_of_bind run
    obtain ⟨cs, all, done⟩ := Except.exists_of_bind others
    obtain ⟨length, fits⟩ := ih all
    cases done
    exact ⟨by simp [length], List.forall_mem_cons.2 ⟨claim_fits one, fits⟩⟩

theorem classifyArguments_length {r : Repository} {arguments : List ArgumentRecord}
    {typed : List (ArgumentRecord × Descriptor)}
    (run : classifyArguments r callable arguments = .ok typed) : typed.length = arguments.length := by
  induction arguments generalizing typed with
  | nil =>
    cases run
    rfl
  | cons a rest ih =>
    obtain ⟨type, _, others⟩ := Except.exists_of_bind run
    obtain ⟨more, all, done⟩ := Except.exists_of_bind others
    cases done
    simp [ih all]

theorem getElem?_hideAbsorbed {absorbed : List Nat} {parameters : List Parameter} (i : Nat) :
    (hideAbsorbed absorbed parameters)[i]? =
      parameters[i]?.map fun p =>
        if absorbed.contains i then { p with role := .skip } else p := by
  simp only [hideAbsorbed, List.getElem?_mapIdx]

theorem mem_of_mem_hideAbsorbed {absorbed : List Nat} {parameters : List Parameter} {p : Parameter}
    (listed : p ∈ hideAbsorbed absorbed parameters) (shown : p.role ≠ .skip) : p ∈ parameters := by
  obtain ⟨i, found⟩ := List.mem_iff_getElem?.1 listed
  rw [getElem?_hideAbsorbed, Option.map_eq_some_iff] at found
  obtain ⟨q, found, rfl⟩ := found
  split at shown
  · exact absurd rfl shown
  · split
    · contradiction
    · exact List.mem_of_getElem? found

/-- Arguments that a claim absorbs are there and hidden. -/
theorem hidden_of_absorbed {absorbed : List Nat} {claimed : List Claimed} {i : Nat}
    (inside : i < claimed.length) (listed : i ∈ absorbed) :
    ∃ q, (hideAbsorbed absorbed (claimed.map (·.parameter)))[i]? = some q ∧ q.role = .skip := by
  refine ⟨{ claimed[i].parameter with role := .skip }, ?_, rfl⟩
  rw [getElem?_hideAbsorbed, List.getElem?_map, List.getElem?_eq_getElem inside]
  simp [listed]

theorem wired_of_fits {plan : Plan} {claimed : List Claimed} {absorbed : List Nat}
    (fits : ∀ c ∈ claimed, c.Fits claimed.length)
    (covered : ∀ c ∈ claimed, ∀ i ∈ c.absorbed, i ∈ absorbed)
    (same : plan.parameters = hideAbsorbed absorbed (claimed.map (·.parameter))) : plan.Wired := by
  have source : ∀ p ∈ plan.parameters, p.role ≠ .skip → ∃ c ∈ claimed, c.parameter = p := by
    intro p listed shown
    rw [same] at listed
    exact List.mem_map.1 (mem_of_mem_hideAbsorbed listed shown)
  constructor
  · intro p listed length role
    obtain ⟨c, member, rfl⟩ := source p listed (by simp [role])
    have covers := covered c member
    rw [same]
    cases fits c member with
    | array role' type inside =>
      cases role.symm.trans role'
      exact ⟨⟨_, _, _, type⟩, hidden_of_absorbed inside (covers length (by simp))⟩
    | callback role' => cases role.symm.trans role'
    | plain role' => rcases role' with role' | role' <;> cases role.symm.trans role'
  · intro p listed closure destroy role
    obtain ⟨c, member, rfl⟩ := source p listed (by simp [role])
    have covers := covered c member
    rw [same]
    cases fits c member with
    | callback role' type inside =>
      cases role.symm.trans role'
      exact ⟨⟨_, _, type⟩, fun i linked => hidden_of_absorbed (inside i linked) (covers i linked)⟩
    | array role' => cases role.symm.trans role'
    | plain role' => rcases role' with role' | role' <;> cases role.symm.trans role'

theorem wired_of_derive {r : Repository} {c : CallableRecord} {plan : Plan}
    (derived : derive r c = .ok plan) : plan.Wired := by
  obtain ⟨typed, classified, derived⟩ := Except.exists_of_bind derived
  obtain ⟨returnType, _, derived⟩ := Except.exists_of_bind derived
  obtain ⟨claimed, claims, derived⟩ := Except.exists_of_bind derived
  obtain ⟨returnLength, _, derived⟩ := Except.exists_of_bind derived
  obtain ⟨length, fits⟩ := claimAll_fits claims
  have count : c.arguments.length = claimed.length := by
    rw [length, classifyArguments_length classified]
  rw [count] at fits
  cases derived
  refine wired_of_fits fits (fun c member i linked => ?_) rfl
  exact List.mem_append_left _ (List.mem_flatMap.2 ⟨c, member, linked⟩)

end Plan

end ForeignCall
