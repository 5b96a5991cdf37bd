import ForeignCall.Proofs.Call.Loans

/-!
What native code was lent comes back when the trampoline is released.
-/

set_option autoImplicit false

namespace ForeignCall

open ForeignCall.Action
open TrampolineTable (addressOf)

/-- The blocks of a list or an array that lead to its elements. Of a string only the address matters. -/
def Footprint.spine (f : Footprint) : Descriptor → List Block
  | .array .. | .list .. => f.outer
  | _ => []

section Spines

variable {h g : Heap} {d : Descriptor} {slot : Slot} {count : Nat} {f : Footprint}

theorem ownsItem_string {filename pointer : Bool}
    (owns : OwnsItem h (.basic (.string filename) pointer) slot f) :
    OwnsItem g (.basic (.string filename) pointer) slot f := by
  obtain ⟨n, owned, -⟩ := owns
  exact ⟨n, owned, trivial⟩

/-- Native code may do what it likes with the bytes of strings. -/
theorem Owns.agree_spine (strings : d.isOfStrings = true) (owns : Owns h d slot count f)
    (same : h.Agrees g (f.spine d)) : Owns g d slot count f := by
  unfold Descriptor.isOfStrings at strings
  split at strings
  · exact owns
  · exact owns.agree_list same fun _ _ _ => ownsItem_string
  · exact owns.agree_array same fun _ _ _ => ownsItem_string
  · cases strings

theorem Descriptor.Ended.agree_spine (ended : d.Ended h slot count f)
    (same : h.Agrees g (f.spine d)) : d.Ended g slot count f := by
  cases d with
  | array element mode form pointer => exact ended.agree same
  | _ => trivial

end Spines

variable {plan : Plan} {h g : Heap} {loans : List Loan}

theorem Heap.Lends.ownsItem (lends : h.Lends g plan.returnType loans)
    (strings : plan.returnType.isOfStrings = true) (sized : plan.returnType.isSelfSized = true)
    {k : Heap} (same : g.Agrees k (loans.flatMap (·.part.spine plan.returnType))) {l : Loan}
    (listed : l ∈ loans) : OwnsItem k plan.returnType l.slot l.part := by
  obtain ⟨-, count, owns, ended⟩ := lends.owns l listed
  have here := same.subset fun b piece => List.mem_flatMap.2 ⟨l, listed, piece⟩
  exact ⟨count, owns.agree_spine strings here, (ended sized).agree_spine here⟩

/-- All loans come back. -/
theorem frees_loans (kept : plan.returnTransfer = .nothing)
    (owns : ∀ l ∈ loans, OwnsItem h plan.returnType l.slot l.part)
    (keeps : h.Keeps (loans.flatMap (·.part.all))) :
    Heap.Frees (freeRetained plan (loans.map Loan.slot)) h (loans.flatMap (·.part.all)) := by
  have whole (l : Loan) : l.part.held (.of plan.returnTransfer .input) = l.part.all := by
    rw [kept]
    rfl
  have owned : List.Forall₂ (OwnsItem h plan.returnType) (loans.map Loan.slot)
      (loans.map Loan.part) := by
    rw [List.forall₂_map_left_iff, List.forall₂_map_right_iff, List.forall₂_same]
    exact owns
  have parts : (loans.map Loan.part).flatMap (·.held (.of plan.returnTransfer .input)) =
      loans.flatMap (·.part.all) := by
    simp only [List.flatMap_map, whole]
  have frees := frees_freeRetained owned
  rw [parts] at frees
  exact frees keeps

/-- The release does not get past the first array whose count has to come from elsewhere. -/
theorem freeRetained_uncounted {slot : Slot} {slots : List Slot}
    (kept : plan.returnTransfer = .nothing) (strings : plan.returnType.isOfStrings = true)
    (unsized : plan.returnType.isSelfSized = false) (some : slot.isNull = false) (h : Heap) :
    freeRetained plan (slot :: slots) h =
      .error (.error (.lengthRequired plan.returnType.displayName)) h := by
  have refused : freeValue plan.returnType slot plan.returnTransfer .input none h =
      .error (.error (.lengthRequired plan.returnType.displayName)) h := by
    unfold Descriptor.isOfStrings at strings
    split at strings
    case h_3 _ filename inner mode form pointer type =>
      rw [type, Descriptor.isSelfSized] at unsized
      rw [freeValue, kept, type, release, if_neg (by simp [some])]
      cases mode with
      | fixed | zeroTerminated => cases unsized
      | parameter | unspecified => rfl
    all_goals simp_all [Descriptor.isSelfSized]
  rw [freeRetained, bind_of_error refused]

/-- The trampoline leaves the table before its loans are freed, whether or not that succeeds. -/
theorem releaseTrampoline_eq {t : Trampoline} {a : Nat} {u : Memory}
    (found : u.trampolines.get? a = some t) :
    releaseTrampoline a u =
      let left (g : Heap) : Memory :=
        { u with
          heap := g
          trampolines := u.trampolines.remove a
          journal := u.journal.push (.released a) }
      match freeRetained t.plan t.retained u.heap with
      | .ok () g => .ok true (left g)
      | .error e g => .error e (left g) := by
  have read : (get : ConversionM Memory) u = .ok u u := rfl
  rw [releaseTrampoline, bind_of_ok read, found]
  dsimp only
  let left : Memory :=
    { u with
      trampolines := u.trampolines.remove a
      journal := u.journal.push (.released a) }
  change (Memory.onHeap (freeRetained t.plan t.retained) >>= fun _ => pure true : ConversionM Bool)
    left = _
  cases freed : freeRetained t.plan t.retained u.heap with
  | ok r g =>
    have run : (Memory.onHeap (freeRetained t.plan t.retained) : ConversionM Unit) left =
        .ok () { left with heap := g } := by
      rw [Memory.onHeap, freed]
    rw [bind_of_ok run]
    rfl
  | error e g =>
    have run : (Memory.onHeap (freeRetained t.plan t.retained) : ConversionM Unit) left =
        .error e { left with heap := g } := by
      rw [Memory.onHeap, freed]
    rw [bind_of_error run]

theorem exists_pair_of_flatten {γ δ : Type} {R : γ → List δ → Prop} {es : List γ}
    {lists : List (List δ)} (paired : List.Forall₂ R es lists) {x : δ} (listed : x ∈ lists.flatten) :
    ∃ e l, (e, l) ∈ es.zip lists ∧ x ∈ l := by
  induction paired with
  | nil => cases listed
  | cons _ _ ih =>
    rcases List.mem_append.1 listed with here | later
    · exact ⟨_, _, List.mem_cons_self, here⟩
    · obtain ⟨e, l, pair, inside⟩ := ih later
      exact ⟨e, l, List.mem_cons_of_mem _ pair, inside⟩

/-- What the trampoline at number `n` lent in the course of a run, invocation by invocation, is what it
retains. Released at any later time, as long as native code has freed none of the blocks and left the
pointers in lists and arrays as they are, it frees exactly all of them, unless its results are arrays
that have their length from elsewhere and there was one. Then its release fails and frees none. -/
theorem releaseTrampoline_reclaims {σ : Type} {w : World σ} {depth : Nat}
    {activities : List (Activity σ)} {s : Session σ} {pre post : List (Moment σ)} {m : Moment σ}
    {n : Nat} {t : Trampoline} (seen : (Watched.play w depth activities).seen s = pre ++ m :: post)
    (new : s.memory.trampolines.next ≤ n)
    (registered : m.before.memory.trampolines.get? (addressOf n) = some t)
    (lends : t.plan.LendsStrings) :
    ∃ loans : List (List Loan),
      List.Forall₂ (fun e lent => e.before.memory.heap.Lends e.after.memory.heap t.plan.returnType lent)
        (pre.filter (Moment.answers (addressOf n))) loans ∧
      t.retained = loans.flatten.map Loan.slot ∧
      ∀ u : Memory, u.trampolines.get? (addressOf n) = some t →
        u.heap.Keeps (loans.flatten.flatMap (·.part.all)) →
        List.Forall₂ (fun e lent =>
            e.after.memory.heap.Agrees u.heap (lent.flatMap (·.part.spine t.plan.returnType)))
          (pre.filter (Moment.answers (addressOf n))) loans →
        if t.plan.returnType.isSelfSized = true ∨ t.retained = [] then
          ∃ v, releaseTrampoline (addressOf n) u = .ok true v ∧
            u.heap.Sheds v.heap (loans.flatten.flatMap (·.part.all)) ∧
            v.trampolines = u.trampolines.remove (addressOf n)
        else
          ∃ v, releaseTrampoline (addressOf n) u =
              .error (.error (.lengthRequired t.plan.returnType.displayName)) v ∧
            v.heap = u.heap ∧ v.trampolines = u.trampolines.remove (addressOf n) := by
  have begun : Lent s.memory.trampolines.next ([] : List (Moment σ)) s.memory := .begin s.memory
  have records := (Watched.honest_play (w := w) depth activities).records [] s begun
  obtain ⟨loans, lent, slots⟩ :=
    (records.seen pre m post seen).retained n t new registered lends
  refine ⟨loans, lent, slots, fun u found keeps same => ?_⟩
  rw [releaseTrampoline_eq found, slots]
  split
  · rename_i freed
    have owns : ∀ l ∈ loans.flatten, OwnsItem u.heap t.plan.returnType l.slot l.part := by
      rcases freed with sized | none
      · intro l listed
        obtain ⟨e, given, pair, inside⟩ := exists_pair_of_flatten lent listed
        have lowered := (List.forall₂_iff_zip.1 lent).2 pair
        exact lowered.ownsItem lends.2 sized ((List.forall₂_iff_zip.1 same).2 pair) inside
      · rw [List.map_eq_nil_iff.1 none]
        exact List.forall_mem_nil _
    obtain ⟨g, run, sheds⟩ := frees_loans lends.1 owns keeps
    rw [run]
    exact ⟨_, rfl, sheds, rfl⟩
  · rename_i stuck
    rw [not_or, Bool.not_eq_true] at stuck
    obtain ⟨l, rest, first⟩ := List.exists_cons_of_ne_nil (mt List.map_eq_nil_iff.2 stuck.2)
    obtain ⟨e, given, pair, inside⟩ := exists_pair_of_flatten lent (first ▸ List.mem_cons_self)
    have some := (((List.forall₂_iff_zip.1 lent).2 pair).owns l inside).1
    rw [first, List.map_cons, freeRetained_uncounted lends.1 lends.2 stuck.1 some]
    exact ⟨_, rfl, rfl, rfl⟩

/-- The function `f` invokes the function pointer that it is passed two times. Its results are arrays of
strings, with a terminator or without. -/
def lendingWorld (terminated : Bool) : World Unit where
  environment :=
    let texts : TypeRecord := { TypeRecord.cArray .utf8 with zeroTerminated := terminated }
    let get : CallableRecord := { namespaceName := "T", name := "Get", returnType := texts }
    let types := Repository.initial.insertEntry
      { namespaceName := "T", name := "Get", kind := .callback, signature := some get }
    let callback : ArgumentRecord := { name := "get", type := .named "T.Get", scope := some .call }
    ⟨types.insertFunction { namespaceName := "T", name := "f", arguments := [callback] }, .pin⟩
  library _ := some fun slots =>
    let get := slots.getD 0 .null
    .callback get [] fun _ => .callback get [] fun _ => .ret .null
  script _ _ := .ret (.array [.string "a"])
  kept _ := []

/-- The call that lends two arrays. -/
def lendingRun : List (Activity Unit) :=
  [.script [] (.call "T.f" none [.function ⟨0⟩] fun _ => .ret .undefined)]

/-- When the call ends its trampoline retains two arrays, and gets them back. -/
theorem releaseTrampoline_reclaims_arrays :
    ∃ (pre post : List (Moment Unit)) (m : Moment Unit) (t : Trampoline),
      (Watched.play (lendingWorld true) 2 lendingRun).seen (.start ()) = pre ++ m :: post ∧
      m.mark = .ended [addressOf 0] ∧
      m.before.memory.trampolines.get? (addressOf 0) = some t ∧
      t.release = .afterCall ∧ t.retained.length = 2 ∧ t.plan.LendsStrings ∧
      ∃ loans : List (List Loan),
        List.Forall₂ (fun e lent =>
            e.before.memory.heap.Lends e.after.memory.heap t.plan.returnType lent)
          (pre.filter (Moment.answers (addressOf 0))) loans ∧
        ∀ u : Memory, u.trampolines.get? (addressOf 0) = some t →
          u.heap.Keeps (loans.flatten.flatMap (·.part.all)) →
          List.Forall₂ (fun e lent =>
              e.after.memory.heap.Agrees u.heap (lent.flatMap (·.part.spine t.plan.returnType)))
            (pre.filter (Moment.answers (addressOf 0))) loans →
          ∃ v, releaseTrampoline (addressOf 0) u = .ok true v ∧
            u.heap.Sheds v.heap (loans.flatten.flatMap (·.part.all)) := by
  have ended : ((Watched.play (lendingWorld true) 2 lendingRun).seen (.start ())).any (fun m =>
      m.mark == .ended [addressOf 0] &&
        (m.before.memory.trampolines.get? (addressOf 0)).any fun t =>
          t.release == .afterCall && t.retained.length == 2 &&
            t.plan.returnTransfer == .nothing && t.plan.returnType.isOfStrings &&
            t.plan.returnType.isSelfSized) = true := by
    decide +kernel
  obtain ⟨m, listed, facts⟩ := List.any_eq_true.1 ended
  simp only [Option.any_eq_true, Bool.and_eq_true, beq_iff_eq] at facts
  obtain ⟨mark, t, registered, ⟨⟨⟨once, two⟩, kept⟩, strings⟩, sized⟩ := facts
  obtain ⟨pre, post, seen⟩ := List.append_of_mem listed
  obtain ⟨loans, lent, -, reclaims⟩ :=
    releaseTrampoline_reclaims seen (Nat.zero_le 0) registered ⟨kept, strings⟩
  refine ⟨pre, post, m, t, seen, mark, registered, once, two, ⟨kept, strings⟩, loans, lent,
    fun u found keeps same => ?_⟩
  have released := reclaims u found keeps same
  rw [if_pos (.inl sized)] at released
  obtain ⟨v, run, sheds, -⟩ := released
  exact ⟨v, run, sheds⟩

/-- Nobody knows how long the arrays are, and so the call fails and the blocks of both stay. -/
theorem releaseTrampoline_leaks :
    ∃ s : Session Unit,
      Session.call (lendingWorld false) 2 "T.f" none [.function ⟨0⟩] (.start ()) =
        .error (.error (.conversion (.lengthRequired "String[]"))) s ∧
      s.memory.trampolines.get? (addressOf 0) = none ∧ s.memory.heap.liveCount = 4 := by
  obtain ⟨e, s, ran, facts⟩ := exists_error_such
    (x := Session.call (lendingWorld false) 2 "T.f" none [.function ⟨0⟩]) (s := .start ())
    (fun e s => e == .conversion (.lengthRequired "String[]") &&
      (s.memory.trampolines.get? (addressOf 0)).isNone && s.memory.heap.liveCount == 4)
    (by decide +kernel)
  simp only [Bool.and_eq_true, Option.isNone_iff_eq_none, beq_iff_eq] at facts
  obtain ⟨⟨rfl, gone⟩, blocks⟩ := facts
  exact ⟨s, ran, gone, blocks⟩

end ForeignCall
