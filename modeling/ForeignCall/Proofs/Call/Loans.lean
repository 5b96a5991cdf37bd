import ForeignCall.Proofs.Call.Leads
import ForeignCall.Proofs.Call.Refund
import ForeignCall.Proofs.Ownership.Terminators

/-!
What trampolines lend to native code.

A string that a script function gives back without transfer, or a list or an array of strings, is lent:
native code reads it until the trampoline is released. At every moment of a run the trampoline retains
the slots of exactly the results that its invocations lowered so far, and each of them owns the blocks
that were taken for it. So the release frees them all. That needs no count for strings, lists and arrays
that are of fixed size or have a terminator; of any other array nobody remembers the count, and the
release fails at the first one and frees nothing.
-/

set_option autoImplicit false

namespace ForeignCall

open ForeignCall.Action
open TrampolineTable (addressOf)

namespace TrampolineTable

variable {t u w : TrampolineTable} {n : Nat}

/-- Each trampoline of `u` has the plan that it had in `t`, unless it was registered since. -/
structure Plans (t u : TrampolineTable) : Prop where
  next_le : t.next ≤ u.next
  old_or_new : ∀ n x, u.get? (addressOf n) = some x →
    (∃ y, t.get? (addressOf n) = some y ∧ y.plan = x.plan) ∨ t.next ≤ n

/-- Each trampoline of `u` has the plan that it had in `t` and retains what it retained there, or it was
registered since and retains nothing. -/
structure Inherits (t u : TrampolineTable) : Prop where
  next_le : t.next ≤ u.next
  old_or_new : ∀ n x, u.get? (addressOf n) = some x →
    (∃ y, t.get? (addressOf n) = some y ∧ y.plan = x.plan ∧ x.retained = y.retained) ∨
      t.next ≤ n ∧ x.retained = []

theorem Plans.trans (first : t.Plans u) (second : u.Plans w) : t.Plans w where
  next_le := Nat.le_trans first.next_le second.next_le
  old_or_new n z there := by
    rcases second.old_or_new n z there with ⟨y, between, same⟩ | new
    · rcases first.old_or_new n y between with ⟨x, here, same'⟩ | new
      · exact .inl ⟨x, here, same'.trans same⟩
      · exact .inr new
    · exact .inr (Nat.le_trans first.next_le new)

theorem Inherits.plans (inherits : t.Inherits u) : t.Plans u where
  next_le := inherits.next_le
  old_or_new n x there :=
    (inherits.old_or_new n x there).imp (fun ⟨y, here, same, _⟩ => ⟨y, here, same⟩) And.left

theorem Inherits.trans (first : t.Inherits u) (second : u.Inherits w) : t.Inherits w where
  next_le := Nat.le_trans first.next_le second.next_le
  old_or_new n z there := by
    rcases second.old_or_new n z there with ⟨y, between, same, kept⟩ | ⟨new, none⟩
    · rw [kept, ← same]
      exact first.old_or_new n y between
    · exact .inr ⟨Nat.le_trans first.next_le new, none⟩

/-- Every trampoline that is left is one that was there. -/
theorem Inherits.of_present (next : u.next = t.next) (present : ∀ n x, u.get? (addressOf n) = some x →
    ∃ y, t.get? (addressOf n) = some y ∧ y.plan = x.plan ∧ x.retained = y.retained) : t.Inherits u :=
  ⟨Nat.le_of_eq next.symm, fun n x there => .inl (present n x there)⟩

theorem Inherits.refl (t : TrampolineTable) : t.Inherits t :=
  .of_present rfl fun _ x there => ⟨x, there, rfl, rfl⟩

theorem Inherits.register (function : FunctionId) (plan : Plan) (release : Release) :
    t.Inherits (t.register function plan release).2 := by
  refine ⟨Nat.le_succ _, fun n x there => ?_⟩
  rw [get?_register] at there
  split at there
  · rename_i new
    cases there
    exact .inr ⟨Nat.le_of_eq (addressOf_injective new).symm, rfl⟩
  · exact .inl ⟨x, there, rfl, rfl⟩

theorem Inherits.remove (a : Nat) : t.Inherits (t.remove a) := by
  refine .of_present rfl fun n x there => ?_
  rw [get?_remove] at there
  split at there
  · cases there
  · exact ⟨x, there, rfl, rfl⟩

theorem exists_of_update {f : Trampoline → Trampoline} {a : Nat} {x : Trampoline}
    (there : (t.update a f).get? (addressOf n) = some x) :
    ∃ y, t.get? (addressOf n) = some y ∧ x = if addressOf n = a then f y else y := by
  rw [get?_update] at there
  split at there
  · rename_i here
    obtain ⟨y, present, rfl⟩ := Option.map_eq_some_iff.1 there
    exact ⟨y, here ▸ present, (if_pos here).symm⟩
  · rename_i other
    exact ⟨x, there, (if_neg other).symm⟩

theorem Inherits.recordInvocation (a : Nat) : t.Inherits (t.recordInvocation a) := by
  refine .of_present (next_update _) fun n x there => ?_
  obtain ⟨y, present, rfl⟩ := exists_of_update there
  refine ⟨y, present, ?_⟩
  split <;> exact ⟨rfl, rfl⟩

/-- The trampoline number `n` retains the slots as well, and otherwise nothing became of the table but
that trampolines were registered or left. -/
structure Lends (n : Nat) (slots : List Slot) (t u : TrampolineTable) : Prop where
  next_le : t.next ≤ u.next
  others : ∀ k, k ≠ n → ∀ x, u.get? (addressOf k) = some x →
    (∃ y, t.get? (addressOf k) = some y ∧ y.plan = x.plan ∧ x.retained = y.retained) ∨
      t.next ≤ k ∧ x.retained = []
  lent : ∀ x, u.get? (addressOf n) = some x →
    ∃ y, t.get? (addressOf n) = some y ∧ y.plan = x.plan ∧ x.retained = y.retained ++ slots

theorem Inherits.lends (inherits : t.Inherits u) (given : n < t.next) : Lends n [] t u where
  next_le := inherits.next_le
  others k _ := inherits.old_or_new k
  lent x there := by
    rcases inherits.old_or_new n x there with ⟨y, here, same, kept⟩ | ⟨new, -⟩
    · exact ⟨y, here, same, by rw [kept, List.append_nil]⟩
    · exact absurd given (Nat.not_lt_of_le new)

theorem Inherits.lends_retain (inherits : t.Inherits u) (given : n < t.next) (slot : Slot) :
    Lends n [slot] t (u.retain (addressOf n) slot) where
  next_le := Nat.le_trans inherits.next_le (Nat.le_of_eq (next_update _).symm)
  others k other x there := by
    obtain ⟨y, present, rfl⟩ := exists_of_update there
    rw [if_neg fun same => other (addressOf_injective same)]
    exact inherits.old_or_new k y present
  lent x there := by
    obtain ⟨y, present, rfl⟩ := exists_of_update there
    rw [if_pos rfl]
    rcases inherits.old_or_new n y present with ⟨z, here, same, kept⟩ | ⟨new, -⟩
    · exact ⟨z, here, same, by rw [kept]⟩
    · exact absurd given (Nat.not_lt_of_le new)

end TrampolineTable

namespace Memory

def Plans (m t : Memory) : Prop := m.trampolines.Plans t.trampolines

def Inherits (m t : Memory) : Prop := m.trampolines.Inherits t.trampolines

theorem releasing_inherits : Releasing Memory.Inherits where
  refl m := .refl m.trampolines
  trans := TrampolineTable.Inherits.trans
  heap m _ := .refl m.trampolines
  wrappers m _ _ := .refl m.trampolines
  registered _ function plan release := .register function plan release
  released _ address := .remove address
  counted _ address := .recordInvocation address
  native m _ _ := .refl m.trampolines
  script m _ _ := .refl m.trampolines
  note m _ := .refl m.trampolines

theorem progress_plans : Progress Memory.Plans where
  refl m := (releasing_inherits.refl m).plans
  trans := TrampolineTable.Plans.trans
  heap m h := (releasing_inherits.heap m h).plans
  wrappers m wrappers wraps := (releasing_inherits.wrappers m wrappers wraps).plans
  registered m function plan release := (releasing_inherits.registered m function plan release).plans
  released m address := (releasing_inherits.released m address).plans
  counted m address := (releasing_inherits.counted m address).plans
  native m symbol slots := (releasing_inherits.native m symbol slots).plans
  script m function arguments := (releasing_inherits.script m function arguments).plans
  note m n := (releasing_inherits.note m n).plans
  retained m address slot := by
    refine ⟨Nat.le_of_eq (TrampolineTable.next_update _).symm, fun n x there => .inl ?_⟩
    obtain ⟨y, present, rfl⟩ := TrampolineTable.exists_of_update there
    refine ⟨y, present, ?_⟩
    split <;> rfl
  pending m _ := (releasing_inherits.refl m).plans

end Memory

/-- A slot that native code was lent, and what the value in it owns. -/
structure Loan where
  slot : Slot
  part : Footprint

/-- `g` came from `h` by lowering values that are lent: exactly their blocks are new, and their counts are
found in them where the type says how. -/
structure Heap.Lends (h g : Heap) (d : Descriptor) (loans : List Loan) : Prop where
  grows : h.Grows g (loans.flatMap (·.part.all))
  owns : ∀ l ∈ loans, l.slot.isNull = false ∧
    ∃ n, Owns g d l.slot n l.part ∧ (d.isSelfSized = true → d.Ended g l.slot n l.part)

/-- Whether results are strings, or lists or arrays of them, that stay with the script. -/
def Plan.LendsStrings (plan : Plan) : Prop :=
  plan.returnTransfer = .nothing ∧ plan.returnType.isOfStrings = true

theorem Plan.LendsStrings.returnHoldsMemory {plan : Plan} (lends : plan.LendsStrings) :
    returnHoldsMemory plan = true := by
  obtain ⟨kept, strings⟩ := lends
  unfold Descriptor.isOfStrings at strings
  unfold ForeignCall.returnHoldsMemory
  rw [kept]
  split at strings
  case h_4 => cases strings
  all_goals
    rename_i same
    simp only [same]
    rfl

section Results

variable {env : Environment} {plan : Plan} {m : Memory} {n : Nat}

theorem Heap.lends_nothing (d : Descriptor) {h g : Heap} (same : h.Grows g []) : h.Lends g d [] :=
  ⟨same, List.forall_mem_nil _⟩

theorem lower_lends (env : Environment) (plan : Plan) (v : Value) (m : Memory) :
    (lower env plan.returnType v plan.mayReturnNull).Gives m
      (fun slot t => m.Inherits t ∧ (plan.LendsStrings →
        if slot.isNull then m.heap.Lends t.heap plan.returnType []
        else ∃ part, m.heap.Lends t.heap plan.returnType [⟨slot, part⟩]))
      (fun _ t => m.Inherits t ∧ (plan.LendsStrings → m.heap.Lends t.heap plan.returnType []))
      fun _ => True := by
  have inherits := within_lower Memory.releasing_inherits.toRegistering env plan.returnType v
    plan.mayReturnNull m
  by_cases lends : plan.LendsStrings
  · have lowers : (lower env plan.returnType v plan.mayReturnNull).Gives m _ _ :=
      lower_strings lends.2 v plan.mayReturnNull m
    refine (lowers.both inherits).partly.mono ?_ fun _ _ step =>
      ⟨step.2, fun _ => Heap.lends_nothing _ step.1⟩
    rintro slot t ⟨⟨count, part, owns, grows, ended⟩, step⟩
    refine ⟨step, fun _ => ?_⟩
    split
    · rename_i null
      rw [(owns_null null).1 owns] at grows
      exact Heap.lends_nothing _ grows
    · rename_i some
      refine ⟨part, by simpa using grows, fun l listed => ?_⟩
      rw [List.mem_singleton.1 listed]
      exact ⟨by simpa using some, count, owns, ended⟩
  · exact inherits.mono (fun _ _ step => ⟨step, fun strings => absurd strings lends⟩)
      fun _ _ step => ⟨step, fun strings => absurd strings lends⟩

/-- The trampoline retains the slot that it gave back, if there is memory behind it. -/
theorem lowerResult_lends (env : Environment) (plan : Plan) (v : Value)
    (given : n < m.trampolines.next) :
    (lowerResult env plan (addressOf n) v).Gives m
      (fun _ t => ∃ loans : List Loan, m.trampolines.Lends n (loans.map Loan.slot) t.trampolines ∧
        (plan.LendsStrings → m.heap.Lends t.heap plan.returnType loans))
      (fun _ t => m.trampolines.Lends n [] t.trampolines ∧
        (plan.LendsStrings → m.heap.Lends t.heap plan.returnType [])) fun _ => True := by
  unfold lowerResult
  split
  · exact ⟨[], (TrampolineTable.Inherits.refl _).lends given,
      fun _ => Heap.lends_nothing _ (.refl _)⟩
  · rw [gives_bind]
    refine (lower_lends env plan v m).mono ?_ fun _ _ step => ⟨step.1.lends given, step.2⟩
    rintro slot t ⟨inherits, lends⟩
    split
    · rename_i retains
      simp only [Bool.and_eq_true, Bool.not_eq_true'] at retains
      rw [gives_bind, gives_modify, gives_pure]
      by_cases strings : plan.LendsStrings
      · have lent := lends strings
        rw [if_neg (by simp [retains.1])] at lent
        obtain ⟨part, lent⟩ := lent
        exact ⟨[⟨slot, part⟩], inherits.lends_retain given slot, fun _ => lent⟩
      · exact ⟨[⟨slot, .empty⟩], inherits.lends_retain given slot, fun again => absurd again strings⟩
    · rename_i bare
      refine ⟨[], inherits.lends given, fun strings => ?_⟩
      have lent := lends strings
      rw [if_pos (by simpa [strings.returnHoldsMemory] using bare)] at lent
      exact lent

end Results

/-! ### The history of a run -/

namespace Moment

variable {σ : Type}

/-- Whether the moment is one at which a result of the trampoline at `a` was lowered. -/
def answers (a : Nat) (m : Moment σ) : Bool := m.mark == .answered a

end Moment

/-- Each trampoline that was registered from number `start` on retains what it lent at the moments of
the past, if it lends strings. -/
structure Lent {σ : Type} (start : Nat) (past : List (Moment σ)) (m : Memory) : Prop where
  start_le : start ≤ m.trampolines.next
  unused : ∀ n, m.trampolines.next ≤ n → past.filter (Moment.answers (addressOf n)) = []
  retained : ∀ n x, start ≤ n → m.trampolines.get? (addressOf n) = some x → x.plan.LendsStrings →
    ∃ loans : List (List Loan),
      List.Forall₂ (fun e lent => e.before.memory.heap.Lends e.after.memory.heap x.plan.returnType lent)
        (past.filter (Moment.answers (addressOf n))) loans ∧
      x.retained = loans.flatten.map Loan.slot

namespace Lent

variable {σ : Type} {start : Nat} {past : List (Moment σ)} {m t : Memory}

theorem begin (m : Memory) : Lent (σ := σ) m.trampolines.next [] m where
  start_le := Nat.le_refl _
  unused _ _ := rfl
  retained n x new there := by
    rw [TrampolineTable.get?_fresh new] at there
    cases there

theorem inherits (lent : Lent start past m) (inherits : m.Inherits t) : Lent start past t where
  start_le := Nat.le_trans lent.start_le inherits.next_le
  unused n new := lent.unused n (Nat.le_trans inherits.next_le new)
  retained n x later there strings := by
    rcases inherits.old_or_new n x there with ⟨y, here, same, kept⟩ | ⟨new, none⟩
    · rw [kept]
      rw [← same] at strings ⊢
      exact lent.retained n y later here strings
    · exact ⟨[], by rw [lent.unused n new]; exact .nil, none⟩

/-- At a moment at which nothing was lowered for a result the history does not change. -/
theorem snoc_of_not_answers (lent : Lent start past t) {e : Moment σ}
    (other : ∀ n, e.answers (addressOf n) = false) : Lent start (past ++ [e]) t := by
  have same (n : Nat) : (past ++ [e]).filter (Moment.answers (addressOf n)) =
      past.filter (Moment.answers (addressOf n)) := by
    rw [List.filter_append, List.filter_singleton, other n]
    exact List.append_nil _
  exact ⟨lent.start_le, fun n => same n ▸ lent.unused n, fun n => same n ▸ lent.retained n⟩

theorem snoc (lent : Lent start past m) {e : Moment σ} {n : Nat} {plan : Plan} {loans : List Loan}
    (mark : e.mark = .answered (addressOf n)) (before : e.before.memory = m)
    (after : e.after.memory = t) (given : n < m.trampolines.next)
    (planned : ∀ x, m.trampolines.get? (addressOf n) = some x → x.plan = plan)
    (lends : m.trampolines.Lends n (loans.map Loan.slot) t.trampolines)
    (lowered : plan.LendsStrings → m.heap.Lends t.heap plan.returnType loans) :
    Lent start (past ++ [e]) t := by
  have own : (past ++ [e]).filter (Moment.answers (addressOf n)) =
      past.filter (Moment.answers (addressOf n)) ++ [e] := by
    rw [List.filter_append, List.filter_singleton, Moment.answers, mark]
    simp
  have same (k : Nat) (other : k ≠ n) : (past ++ [e]).filter (Moment.answers (addressOf k)) =
      past.filter (Moment.answers (addressOf k)) := by
    rw [List.filter_append, List.filter_singleton, Moment.answers, mark]
    have apart : (Mark.answered (addressOf n) == Mark.answered (addressOf k)) = false := by
      rw [beq_eq_false_iff_ne]
      intro equal
      exact other (TrampolineTable.addressOf_injective (Mark.answered.inj equal)).symm
    rw [apart]
    exact List.append_nil _
  refine ⟨Nat.le_trans lent.start_le lends.next_le, fun k new => ?_, fun k x later there strings => ?_⟩
  · have fresh := Nat.le_trans lends.next_le new
    rw [same k (by omega)]
    exact lent.unused k fresh
  by_cases here : k = n
  · subst here
    obtain ⟨y, present, alike, kept⟩ := lends.lent x there
    have typed := planned y present
    rw [alike] at typed
    subst typed
    obtain ⟨earlier, records, slots⟩ := lent.retained k y later present (alike ▸ strings)
    rw [alike] at records
    refine ⟨earlier ++ [loans], ?_, ?_⟩
    · rw [own]
      refine List.rel_append records (.cons ?_ .nil)
      rw [before, after]
      exact lowered strings
    · rw [kept, slots]
      simp
  · rcases lends.others k here x there with ⟨y, present, alike, kept⟩ | ⟨new, none⟩
    · rw [same k here, kept]
      rw [← alike] at strings ⊢
      exact lent.retained k y later present strings
    · exact ⟨[], by rw [same k here, lent.unused k new]; exact .nil, none⟩

end Lent

namespace Watched

variable {σ α β : Type} {s : Session σ} {start : Nat} {past : List (Moment σ)}

/-- Whatever the past, the history of what trampolines lent goes on with what is seen of the action, and is
true at every moment of it. -/
structure Records (start : Nat) (past : List (Moment σ)) (x : Watched σ α) (s : Session σ) :
    Prop where
  ends : x.run.Gives s (fun _ t => Lent start (past ++ x.seen s) t.memory)
    (fun _ t => Lent start (past ++ x.seen s) t.memory) fun _ => True
  seen : ∀ pre m post, x.seen s = pre ++ m :: post → Lent start (past ++ pre) m.before.memory

theorem records_silent {x : SessionM σ α} (inherits : x.Within Memory.Inherits)
    (lent : Lent start past s.memory) : (silent x).Records start past s where
  ends := by
    have same : past ++ (silent x).seen s = past := List.append_nil past
    rw [same]
    exact (inherits s).mono (fun _ _ => lent.inherits) fun _ _ => lent.inherits
  seen pre m post split := by
    cases pre <;> cases split

/-- An element of two lists in a row is one of the first or one of the second. -/
theorem split_append {γ : Type} {first second pre post : List γ} {m : γ}
    (split : first ++ second = pre ++ m :: post) :
    (∃ mid, first = pre ++ m :: mid) ∨ ∃ mid, pre = first ++ mid ∧ second = mid ++ m :: post := by
  rcases List.append_eq_append_iff.1 split with later | ⟨mid, rfl, tail⟩
  · exact .inr later
  · cases mid with
    | nil => exact .inr ⟨[], by simp, tail.symm⟩
    | cons e mid =>
      obtain ⟨rfl, -⟩ := List.cons.inj tail
      exact .inl ⟨mid, rfl⟩

theorem Records.bind {x : Watched σ α} {f : α → Watched σ β} (first : x.Records start past s)
    (rest : ∀ a t, x.run s = .ok a t → Lent start (past ++ x.seen s) t.memory →
      (f a).Records start (past ++ x.seen s) t) : (x >>= f).Records start past s where
  ends := by
    rw [run_bind, gives_bind]
    refine (first.ends.both (gives_outcome x.run s)).mono ?_ ?_
    · rintro a t ⟨lent, run⟩
      rw [seen_bind_of_ok run, ← List.append_assoc]
      exact (rest a t run lent).ends
    · rintro e t ⟨lent, run⟩
      rwa [seen_bind_of_error run]
  seen pre m post split := by
    cases run : x.run s with
    | error e t =>
      rw [seen_bind_of_error run] at split
      exact first.seen pre m post split
    | ok a t =>
      rw [seen_bind_of_ok run] at split
      rcases split_append split with ⟨mid, early⟩ | ⟨mid, rfl, late⟩
      · exact first.seen pre m mid early
      · rw [← List.append_assoc]
        exact (rest a t run (first.ends.of_ok run)).seen mid m post late

theorem Records.attempt {x : Watched σ α} (records : x.Records start past s) :
    (attempt x).Records start past s where
  ends := by
    rw [run_attempt, gives_attempt]
    exact records.ends
  seen := records.seen

theorem Lent.at_only {e m : Moment σ} {pre post : List (Moment σ)} (split : [e] = pre ++ m :: post)
    (lent : Lent start past e.before.memory) : Lent start (past ++ pre) m.before.memory := by
  cases pre with
  | nil =>
    cases split
    rwa [List.append_nil]
  | cons _ pre => cases pre <;> cases split

theorem records_marked {x : SessionM σ α} {mark : Mark} (lent : Lent start past s.memory)
    (ends : x.Gives s (fun _ t => Lent start (past ++ [⟨mark, s, t⟩]) t.memory)
      (fun _ t => Lent start (past ++ [⟨mark, s, t⟩]) t.memory) fun _ => True) :
    (marked mark x).Records start past s where
  ends := by
    unfold Gives at *
    rw [run_marked]
    rcases run : x s with ⟨a, t⟩ | ⟨_ | _, t⟩ <;> simp only [run, marked] at ends ⊢ <;> exact ends
  seen pre m post split := by
    unfold marked at split
    dsimp only at split
    split at split
    · cases pre <;> cases split
    · exact Lent.at_only split lent
    · exact Lent.at_only split lent

/-- A moment of another kind, at which no trampoline came to retain anything. -/
theorem records_inherits {x : SessionM σ α} {mark : Mark} (other : ∀ a, mark ≠ .answered a)
    (inherits : x.Within Memory.Inherits) (lent : Lent start past s.memory) :
    (marked mark x).Records start past s := by
  have kept (t : Session σ) (step : s.memory.Inherits t.memory) :
      Lent start (past ++ [⟨mark, s, t⟩]) t.memory :=
    (lent.inherits step).snoc_of_not_answers fun n => beq_eq_false_iff_ne.2 (other (addressOf n))
  exact records_marked lent ((inherits s).mono (fun _ => kept) fun _ => kept)

/-- Whatever is run by the action, trampolines keep their plans and retain what they lend. -/
structure Honest (start : Nat) (x : Watched σ α) : Prop where
  plans : x.run.Within Memory.Plans
  records : ∀ past s, Lent start past s.memory → x.Records start past s

theorem honest_marked {x : SessionM σ α} {mark : Mark} (other : ∀ a, mark ≠ .answered a)
    (inherits : x.Within Memory.Inherits) : (marked mark x).Honest start where
  plans s := (inherits s).mono (fun _ _ step => step.plans) fun _ _ step => step.plans
  records _ _ := records_inherits other inherits

theorem closed_honest (start : Nat) :
    Closed Memory.Inherits fun α x => Honest (σ := σ) (α := α) start x where
  quiet := Memory.releasing_inherits.toQuiet
  pending m _ := Memory.releasing_inherits.refl m
  entered m symbol slots := Memory.releasing_inherits.native m symbol slots
  noted m n := Memory.releasing_inherits.note m n
  silent inherits :=
    ⟨fun s => (inherits s).mono (fun _ _ step => step.plans) fun _ _ step => step.plans,
      fun _ _ lent => records_silent inherits lent⟩
  attempt honest := ⟨honest.plans.attempt, fun past s lent => (honest.records past s lent).attempt⟩
  bind first rest :=
    ⟨first.plans.bind Memory.progress_plans.toQuiet fun a => (rest a).plans,
      fun past s lent => (first.records past s lent).bind fun a t _ later =>
        (rest a).records _ t later⟩

variable {w : World σ}

theorem records_callTrampoline {runScript : List Value → Script σ → Watched σ Value}
    (runs : ∀ held s, (runScript held s).Honest start) (held : List Value) {address : Nat}
    (slots : List Slot) {t : Trampoline} (found : s.memory.trampolines.get? address = some t)
    (lent : Lent start past s.memory) :
    (callTrampoline w runScript held address t slots).Records start past s := by
  have inherits := Memory.releasing_inherits
  have plans := Memory.progress_plans
  obtain ⟨n, given, rfl⟩ := TrampolineTable.exists_number found
  have heldNow := Session.within_heldNow inherits.toQuiet w held
  refine (records_silent heldNow lent).bind fun around u looked lent => ?_
  have lifting := Session.within_convert (σ := σ)
    (within_liftArguments inherits.toQuiet t.plan slots around t.plan.parameters.zipIdx)
  refine (records_silent lifting lent).bind fun arguments v lifted lent => ?_
  have entering : (Session.onMemory (Memory.record (.script t.function arguments)) :
      SessionM σ Unit).Within Memory.Inherits :=
    Session.within_onMemory (within_record fun m => inherits.script m _ _)
  refine (records_inherits (by rintro _ ⟨⟩) entering lent).bind fun _ x entered lent => ?_
  have running := runs (arguments ++ held) (w.script t.function arguments)
  refine (running.records _ x lent).attempt.bind fun result y ran lent => ?_
  have ends := Session.within_convert (σ := σ) (within_endInvocation inherits (addressOf n))
  refine (records_inherits (by rintro _ ⟨⟩) ends lent).bind fun _ z ended lent => ?_
  refine (records_silent (within_ofExcept inherits.toQuiet result) lent).bind fun value z' taken lent => ?_
  obtain rfl : z = z' := by
    cases result <;> cases taken
    rfl
  have later : s.memory.Plans z.memory :=
    plans.trans ((heldNow s).of_ok looked).plans (plans.trans ((lifting u).of_ok lifted).plans
      (plans.trans ((entering v).of_ok entered).plans (plans.trans
        ((running.plans.attempt x).of_ok ran) ((ends y).of_ok ended).plans)))
  have planned (x : Trampoline) (there : z.memory.trampolines.get? (addressOf n) = some x) :
      x.plan = t.plan := by
    rcases later.old_or_new n x there with ⟨y, here, same⟩ | new
    · rw [found] at here
      cases here
      exact same.symm
    · exact absurd given (Nat.not_lt_of_le new)
  have given := Nat.lt_of_lt_of_le given later.next_le
  refine records_marked lent ?_
  rw [Session.convert, Session.gives_onMemory, gives_mapError]
  refine (lowerResult_lends w.environment t.plan value given).mono ?_ ?_
  · rintro slot u ⟨loans, lends, lowered⟩
    exact lent.snoc rfl rfl rfl given planned lends lowered
  · rintro e u ⟨lends, lowered⟩
    have nothing : z.memory.trampolines.Lends n (([] : List Loan).map Loan.slot) u.trampolines := lends
    exact lent.snoc rfl rfl rfl given planned nothing lowered

theorem honest_enterCallback {runScript : List Value → Script σ → Watched σ Value}
    (runs : ∀ held s, (runScript held s).Honest start) (held : List Value) (address : Nat)
    (slots : List Slot) : (enterCallback w runScript held address slots).Honest start where
  plans := by
    rw [run_enterCallback]
    exact within_enterCallback Memory.progress_plans.toSteady (fun held s => (runs held s).plans) held
      address slots
  records past s lent := by
    have inherits := Memory.releasing_inherits
    have closed := closed_honest (σ := σ) start
    refine (records_inherits (by rintro _ ⟨⟩) (within_pure inherits.toQuiet ()) lent).bind
      fun _ t _ lent => ?_
    split
    · have releases := Session.within_convert (σ := σ)
        (within_releaseTrampoline inherits (slots.headD .null).toNat)
      refine (records_inherits (by rintro _ ⟨⟩) releases lent).bind fun _ u _ lent => ?_
      exact (closed.pure Slot.null).records _ u lent
    · refine (records_silent (within_get inherits.toQuiet) lent).bind fun u v read lent => ?_
      cases read
      split
      · exact (closed.fail _).records _ _ lent
      · rename_i t found
        exact records_callTrampoline runs held slots found lent

theorem records_lowering (plan : Plan) (address : Option Nat) (arguments : List Value)
    (lent : Lent start past s.memory) :
    (lowering w plan address arguments).Records start past s := by
  have inherits := Memory.releasing_inherits
  have lowers : (lowering w plan address arguments).run.Within Memory.Inherits :=
    Session.within_frame (FrameM.within_nativeSlots inherits.toRegistering _ _ _ _)
  refine ⟨?_, fun pre m post split => ?_⟩
  · refine ((lowers s).both (gives_outcome _ s)).mono ?_ ?_
    · rintro lowered t ⟨step, run⟩
      have seen : (lowering w plan address arguments).seen s = [⟨.lowered lowered.2.callScoped, s, t⟩] := by
        rw [seen_lowering, run]
      rw [seen]
      exact (lent.inherits step).snoc_of_not_answers fun n => rfl
    · rintro e t ⟨step, run⟩
      rw [seen_lowering, run, List.append_nil]
      exact lent.inherits step
  · rw [seen_lowering] at split
    split at split
    · exact Lent.at_only split lent
    · cases pre <;> cases split

theorem honest_lowering (plan : Plan) (address : Option Nat) (arguments : List Value) :
    (lowering w plan address arguments).Honest start where
  plans := Session.within_frame (FrameM.within_nativeSlots Memory.progress_plans.toRegistering _ _ _ _)
  records _ _ := records_lowering plan address arguments

theorem honest_invoke {callback : Nat → List Slot → Watched σ Slot}
    (calls : ∀ address slots, (callback address slots).Honest start) (held : List Value)
    (name : String) (receiver : Option Value) (arguments : List Value) :
    (invoke w callback held name receiver arguments).Honest start := by
  have closed := closed_honest (σ := σ) start
  have inherits := Memory.releasing_inherits
  have quiet := inherits.toQuiet
  refine closed.bind (closed.silent (Session.within_bind quiet w name)) fun b => ?_
  refine closed.bind (closed.silent (Session.within_prepare quiet w name b)) fun plan => ?_
  refine closed.bind (closed.silent (within_ofExcept quiet _)) fun _ => ?_
  refine closed.bind (closed.silent (within_ofExcept quiet _)) fun address => ?_
  refine closed.bind (honest_lowering plan address arguments) fun lowered => ?_
  refine closed.bind (closed.carry calls held _ plan receiver lowered.2 lowered.1) fun outcome => ?_
  refine closed.bind (honest_marked (by rintro _ ⟨⟩) ?_) fun released => ?_
  · exact Session.within_frame (FrameM.within_releaseAll inherits plan)
  refine closed.bind (closed.silent (within_ofExcept quiet _)) fun v => ?_
  exact closed.bind (closed.silent (within_ofExcept quiet _)) fun _ => closed.pure v

theorem honest_play (depth : Nat) (activities : List (Activity σ)) :
    (play w depth activities).Honest start :=
  (closed_honest start).play (fun _ runs => honest_enterCallback runs) (fun _ calls => honest_invoke calls)
    depth activities

end Watched

end ForeignCall
