import ForeignCall.Proofs.Call.Leads

/-!
How trampolines come and go.

Whatever a run of programs does, in any order and nesting, a trampoline leaves the table at one of
three kinds of moments: when a destroy notification names it, when its script function returned and it
was for one invocation, and when the call ends whose arguments registered it for the time of the
call. Its address is never given out again, and an invocation of it fails before any script function
is entered.
-/

set_option autoImplicit false

namespace ForeignCall

open ForeignCall.Action
open TrampolineTable (addressOf)

variable {σ : Type}

/-- The ways in which a trampoline leaves the table, by its release point. -/
inductive Leaves (a : Nat) (release : Release) (earlier : List (Moment σ)) : Mark → Prop
  | notified : Leaves a release earlier (.destroyed a)
  | spent (once : release = .afterFirstInvocation) (entered : ∃ e ∈ earlier, e.mark = .entered a) :
    Leaves a release earlier (.returned a)
  | ended {own : List Nat} (transient : release = .afterCall) (listed : a ∈ own)
    (registered : ∃ l ∈ earlier, l.mark = .lowered own ∧
      l.before.memory.trampolines.get? a = none ∧
      l.after.memory.trampolines.releaseAt a = some .afterCall) :
    Leaves a release earlier (.ended own)

/-- No script function can be entered by an address: the invocation fails, changes nothing, and
nothing more is seen of it. -/
def Session.Refuses (s : Session σ) (a : Nat) : Prop :=
  ∀ (w : World σ) (runScript : List Value → Script σ → Watched σ Value) (held : List Value)
    (slots : List Slot),
    (Watched.enterCallback w runScript held a slots).run s =
        .error (.error (.conversion (.unknownTrampoline a))) s ∧
      (Watched.enterCallback w runScript held a slots).seen s = [⟨.invoked a, s, s⟩]

theorem Session.refuses_of_retired {s : Session σ} {a : Nat}
    (retired : s.memory.trampolines.Retired a) : s.Refuses a := by
  obtain ⟨⟨n, -, rfl⟩, none⟩ := retired
  intro w runScript held slots
  have other := TrampolineTable.ne_destroyNotifyAddress n
  have absent := TrampolineTable.releaseAt_eq_none.1 none
  rw [Watched.enterCallback, if_neg other]
  constructor
  · rw [Watched.run_bind_of_ok (a := ()) (t := s) rfl,
      Watched.run_bind_of_ok (a := s) (t := s) rfl, absent]
    rfl
  · rw [Watched.seen_bind_of_ok (a := ()) (t := s) rfl,
      Watched.seen_bind_of_ok (a := s) (t := s) rfl, absent]
    rfl

namespace Leads

variable {s t : Session σ} {ms pre mid post : List (Moment σ)} {m m' : Moment σ} {a : Nat}
  {release : Release} {known : List Mark}

/-- A trampoline that left between two states of a moment left in one of the three ways. -/
theorem leaves (leads : Leads [] s (pre ++ m :: post) t)
    (present : m.before.memory.trampolines.releaseAt a = some release)
    (gone : m.after.memory.trampolines.releaseAt a = none) : Leaves a release pre m.mark := by
  obtain ⟨before, fair, follows, -⟩ := leads.split
  have stays (same : m.after.memory.trampolines.releaseAt a =
      m.before.memory.trampolines.releaseAt a) : False := by
    rw [gone, present] at same
    cases same
  have earlier {mark : Mark} (listed : mark ∈ pre.map Moment.mark ++ []) :
      ∃ e ∈ pre, e.mark = mark := by
    rw [List.append_nil] at listed
    exact List.mem_map.1 listed
  unfold Moment.Fair at fair
  cases mark : m.mark <;> rw [mark] at fair follows
  case lowered own =>
    rw [fair.1.table.releaseAt_of_some present] at gone
    cases gone
  case ended own =>
    have listed : a ∈ own := by
      by_contra other
      exact stays ((fair.table.releaseAt_eq a).trans (if_neg other))
    obtain ⟨l, here, registers⟩ := earlier follows
    obtain ⟨start, rest, rfl⟩ := List.append_of_mem here
    obtain ⟨-, registered, -, onward⟩ := before.split
    rw [Moment.Fair, registers] at registered
    obtain ⟨⟨n, fresh, rfl⟩, transient⟩ := registered.2 a listed
    refine .ended ?_ listed ⟨l, here, registers, TrampolineTable.get?_fresh fresh, transient⟩
    rcases onward.advances.table.releaseAt_of_some transient with same | none
    · rw [present] at same
      exact Option.some.inj same
    · rw [present] at none
      cases none
  case invoked b => exact (stays (fair.table.releaseAt_eq a)).elim
  case entered b => exact (stays (fair.1.table.releaseAt_eq a)).elim
  case returned b =>
    have left := fair.table.releaseAt_eq a
    unfold TrampolineTable.spent at left
    split at left
    · rename_i once
      by_cases here : a = b
      · subst here
        rw [present] at once
        exact .spent (Option.some.inj once) (earlier follows)
      · exact (stays (left.trans (if_neg (by simpa using here)))).elim
    · exact (stays left).elim
  case answered b =>
    rw [fair.table.releaseAt_of_some present] at gone
    cases gone
  case destroyed token =>
    by_cases here : a = token
    · exact here ▸ .notified
    · exact (stays ((fair.table.releaseAt_eq a).trans (if_neg (by simpa using here)))).elim

/-- A trampoline that left is gone for the rest of the run. -/
theorem retired (leads : Leads known s (pre ++ m :: (mid ++ m' :: post)) t)
    (present : m.before.memory.trampolines.releaseAt a = some release)
    (gone : m.after.memory.trampolines.releaseAt a = none) :
    m'.before.memory.trampolines.Retired a := by
  obtain ⟨-, fair, -, later⟩ := leads.split
  obtain ⟨between, -, -, -⟩ := later.split
  obtain ⟨n, below, rfl⟩ := TrampolineTable.exists_number_of_releaseAt present
  refine between.advances.table.retired ⟨⟨n, ?_, rfl⟩, gone⟩
  exact Nat.lt_of_lt_of_le below fair.advances.table.next_le

/-- By then it cannot be entered any more. -/
theorem refused (leads : Leads known s (pre ++ m :: (mid ++ m' :: post)) t)
    (present : m.before.memory.trampolines.releaseAt a = some release)
    (gone : m.after.memory.trampolines.releaseAt a = none) :
    m'.mark ≠ .entered a ∧ m'.before.Refuses a := by
  have retired := leads.retired present gone
  refine ⟨fun entered => ?_, Session.refuses_of_retired retired⟩
  obtain ⟨-, -, -, later⟩ := leads.split
  obtain ⟨-, fair, -, -⟩ := later.split
  rw [Moment.Fair, entered] at fair
  have present := fair.2
  rw [retired.2] at present
  cases present

end Leads

theorem Memory.Numbers.given {m t : Memory} (numbers : m.Numbers t) :
    ∃ given, t.registrations = m.registrations ++ given ∧ given.Nodup ∧
      ∀ a ∈ given, ∃ n, m.trampolines.next ≤ n ∧ a = addressOf n := by
  refine ⟨_, numbers.registrations_eq, ?_, fun a listed => ?_⟩
  · exact List.Nodup.map (fun _ _ same => TrampolineTable.addressOf_injective same)
      List.nodup_range'
  · obtain ⟨n, inside, rfl⟩ := List.mem_map.1 listed
    exact ⟨n, (List.mem_range'_1.1 inside).1, rfl⟩

/-- How trampolines come and go during a run that began in `s`. -/
structure Lifecycle (s : Session σ) (ms : List (Moment σ)) : Prop where
  /-- No address is given out twice, nor one that was given out before. -/
  given : ∀ m ∈ ms, ∃ given,
    m.after.memory.registrations = s.memory.registrations ++ given ∧ given.Nodup ∧
      ∀ a ∈ given, ∃ n, s.memory.trampolines.next ≤ n ∧ a = addressOf n
  leaves : ∀ pre m post, ms = pre ++ m :: post → ∀ a release,
    m.before.memory.trampolines.releaseAt a = some release →
    m.after.memory.trampolines.releaseAt a = none → Leaves a release pre m.mark
  refused : ∀ pre m mid m' post, ms = pre ++ m :: (mid ++ m' :: post) → ∀ a release,
    m.before.memory.trampolines.releaseAt a = some release →
    m.after.memory.trampolines.releaseAt a = none → m'.mark ≠ .entered a ∧ m'.before.Refuses a

theorem Leads.lifecycle {s t : Session σ} {ms : List (Moment σ)} (leads : Leads [] s ms t) :
    Lifecycle s ms where
  given m listed := by
    obtain ⟨pre, post, rfl⟩ := List.append_of_mem listed
    obtain ⟨before, fair, -, -⟩ := leads.split
    exact (before.advances.trans fair.advances).numbers.given
  leaves := by
    rintro pre m post rfl a release present gone
    exact leads.leaves present gone
  refused := by
    rintro pre m mid m' post rfl a release present gone
    exact leads.refused present gone

theorem Watched.exists_leads (w : World σ) (depth : Nat) (activities : List (Activity σ))
    (s : Session σ) :
    ∃ t, Leads [] s ((play w depth activities).seen s) t := by
  have sound := safe_play (w := w) depth activities [] s
  unfold Sound Gives at sound
  split at sound
  · exact ⟨_, sound⟩
  · exact ⟨_, sound⟩
  · exact sound

/-- Whatever scripts and native functions do, in any order and nesting: between the moments that are
seen of the run the table of trampolines stays as it is, no address is used twice, a trampoline leaves
in one of three ways only, and once it left it is never entered again. -/
theorem play_lifecycle (w : World σ) (depth : Nat) (activities : List (Activity σ))
    (s : Session σ) :
    let ms := (Watched.play w depth activities).seen s
    (Watched.play w depth activities).run = Session.play w depth activities ∧
      (Session.play w depth activities).Gives s (fun _ t => Leads [] s ms t)
        (fun _ t => Leads [] s ms t) (fun _ => ∃ t, Leads [] s ms t) ∧
      Lifecycle s ms := by
  have sound := Watched.safe_play (w := w) depth activities [] s
  rw [Watched.Sound, Watched.run_play] at sound
  obtain ⟨t, leads⟩ := Watched.exists_leads w depth activities s
  exact ⟨Watched.run_play depth activities, sound, leads.lifecycle⟩

end ForeignCall
