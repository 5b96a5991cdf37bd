import ForeignCall.Proofs.Call.Lifecycle

/-!
Trampolines for one invocation.

Such a trampoline leaves the table when its script function returned. Until then native code can
invoke it again, out of a call that the script function itself makes, and the script function is
entered once more. Once an invocation returned it is not entered any more.
-/

set_option autoImplicit false

namespace ForeignCall

open ForeignCall.Action
open TrampolineTable (addressOf)

variable {σ : Type}

/-- A script function is entered by the address of a trampoline that is for one invocation. -/
def Moment.uses (a : Nat) (m : Moment σ) : Bool :=
  m.mark == .entered a && m.before.memory.trampolines.releaseAt a == some .afterFirstInvocation

theorem Moment.uses_iff {a : Nat} {m : Moment σ} : m.uses a = true ↔
    m.mark = .entered a ∧ m.before.memory.trampolines.releaseAt a = some .afterFirstInvocation := by
  simp only [uses, Bool.and_eq_true, beq_iff_eq]

/-- When it is entered no invocation of it has returned. -/
theorem Leads.not_returned {s t : Session σ} {pre post : List (Moment σ)} {m : Moment σ} {a : Nat}
    (leads : Leads [] s (pre ++ m :: post) t) (uses : m.uses a = true) :
    ∀ r ∈ pre, r.mark ≠ .returned a := by
  intro r listed returned
  obtain ⟨-, present⟩ := Moment.uses_iff.1 uses
  obtain ⟨before, -, -, -⟩ := leads.split
  obtain ⟨first, rest, rfl⟩ := List.append_of_mem listed
  obtain ⟨entry, fair, follows, onward⟩ := before.split
  -- The invocation that returned was entered, so that the address was given out by then.
  obtain ⟨n, below, rfl⟩ : ∃ n < r.before.memory.trampolines.next, a = addressOf n := by
    rw [returned, Mark.Follows, List.append_nil] at follows
    obtain ⟨e, here, entered⟩ := List.mem_map.1 follows
    obtain ⟨start, others, rfl⟩ := List.append_of_mem here
    obtain ⟨-, registered, -, later⟩ := entry.split
    rw [Moment.Fair, entered] at registered
    obtain ⟨release, found⟩ := Option.isSome_iff_exists.1 registered.2
    obtain ⟨n, below, same⟩ := TrampolineTable.exists_number_of_releaseAt found
    exact ⟨n, Nat.lt_of_lt_of_le below
      (registered.1.advances.trans later.advances).table.next_le, same⟩
  have later := fair.advances.table
  have once := (later.trans onward.advances.table).releaseAt_of_lt below present
  have stays := onward.advances.table.releaseAt_of_lt (Nat.lt_of_lt_of_le below later.next_le) present
  rw [Moment.Fair, returned] at fair
  have left := fair.table.releaseAt_eq (addressOf n)
  rw [TrampolineTable.spent, if_pos once, if_pos (List.mem_singleton_self _), stays] at left
  cases left

theorem exists_two_of_countP {α : Type} {p : α → Bool} {l : List α} (two : 1 < l.countP p) :
    ∃ pre x mid y post, l = pre ++ x :: (mid ++ y :: post) ∧ p x = true ∧ p y = true := by
  rw [List.countP_eq_length_filter] at two
  obtain ⟨x, y, rest, found⟩ : ∃ x y rest, l.filter p = x :: y :: rest := by
    match found : l.filter p with
    | x :: y :: rest => exact ⟨x, y, rest, rfl⟩
    | [] | [_] => simp [found] at two
  have hx : x ∈ l.filter p := found ▸ List.mem_cons_self
  have hy : y ∈ l.filter p := found ▸ List.mem_cons_of_mem _ List.mem_cons_self
  have order : [x, y].Sublist l := by
    have whole : (x :: y :: rest).Sublist l := found ▸ List.filter_sublist
    exact (List.sublist_append_left [x, y] rest).trans whole
  obtain ⟨front, back, rfl, here, later⟩ := List.cons_sublist_iff.1 order
  obtain ⟨pre, between, rfl⟩ := List.append_of_mem here
  obtain ⟨mid, post, rfl⟩ := List.append_of_mem (List.singleton_sublist.1 later)
  refine ⟨pre, x, between ++ mid, y, post, ?_, (List.mem_filter.1 hx).2, (List.mem_filter.1 hy).2⟩
  rw [List.append_assoc, List.cons_append, List.append_assoc]

/-- In no run is the script function of such a trampoline entered once an invocation of it returned. So
it is entered once at most if every invocation of it returns before the next one begins. -/
theorem play_single_use (w : World σ) (depth : Nat) (activities : List (Activity σ)) (s : Session σ)
    (a : Nat) :
    let ms := (Watched.play w depth activities).seen s
    (∀ pre m post, ms = pre ++ m :: post → m.uses a = true → ∀ r ∈ pre, r.mark ≠ .returned a) ∧
      ((∀ pre m mid m' post, ms = pre ++ m :: (mid ++ m' :: post) → m.uses a = true →
          m'.uses a = true → ∃ r ∈ mid, r.mark = .returned a) →
        ms.countP (Moment.uses a) ≤ 1) := by
  intro ms
  obtain ⟨t, leads⟩ := Watched.exists_leads w depth activities s
  have first : ∀ pre m post, ms = pre ++ m :: post → m.uses a = true →
      ∀ r ∈ pre, r.mark ≠ .returned a := by
    intro pre m post split uses
    rw [show (Watched.play w depth activities).seen s = _ from split] at leads
    exact leads.not_returned uses
  refine ⟨first, fun apart => ?_⟩
  by_contra more
  obtain ⟨pre, m, mid, m', post, split, uses, again⟩ :=
    exists_two_of_countP (Nat.lt_of_not_le more)
  obtain ⟨r, listed, returned⟩ := apart pre m mid m' post split uses again
  have whole : ms = (pre ++ m :: mid) ++ m' :: post := by
    rw [split, List.append_assoc, List.cons_append]
  refine first _ m' post whole again r ?_ returned
  exact List.mem_append_right _ (List.mem_cons_of_mem _ listed)

/-! ### An invocation in an invocation -/

/-- The function `f` leaves the function pointer it is passed with the host and invokes it. The
script function calls `again`, which takes the pointer from the host and invokes it once more. -/
def reenteringWorld : World (Option Slot) where
  environment :=
    let run : CallableRecord := { namespaceName := "T", name := "Run" }
    let callback : ArgumentRecord := { name := "run", type := .named "T.Run", scope := some .async }
    let f : CallableRecord := { namespaceName := "T", name := "f", arguments := [callback] }
    let types := Repository.initial.insertEntry
      { namespaceName := "T", name := "Run", kind := .callback, signature := some run }
    ⟨(types.insertFunction f).insertFunction { namespaceName := "T", name := "again" }, .pin⟩
  library
    | "f" => some fun slots =>
      .write (some (slots.getD 0 .null)) (.callback (slots.getD 0 .null) [] .ret)
    | _ => some fun _ => .read fun
      | some pointer => .write none (.callback pointer [] .ret)
      | none => .ret .null
  script _ _ := .call "T.again" none [] fun _ => .ret .undefined
  kept _ := []

/-- The trampoline is registered once and is for one invocation, and its script function is entered two
times by it. -/
theorem single_use_reentered :
    ∃ t, Session.play reenteringWorld 4
        [.script [] (.call "T.f" none [.function ⟨0⟩] fun _ => .ret .undefined)] (.start none) =
          .ok () t ∧ t.memory.registrations = [TrampolineTable.base] ∧
      ((Watched.play reenteringWorld 4
        [.script [] (.call "T.f" none [.function ⟨0⟩] fun _ => .ret .undefined)]).seen
          (.start none)).countP (Moment.uses TrampolineTable.base) = 2 := by
  obtain ⟨_, t, ran, once⟩ := Action.exists_ok_such (x := Session.play reenteringWorld 4
    [.script [] (.call "T.f" none [.function ⟨0⟩] fun _ => .ret .undefined)]) (s := .start none)
    (fun _ t => t.memory.registrations == [TrampolineTable.base]) (by decide +kernel)
  exact ⟨t, ran, beq_iff_eq.1 once, by decide +kernel⟩

end ForeignCall
