import ForeignCall.Proofs.Call.Roles
import ForeignCall.Proofs.Repository.Classification

/-!
The callables that have a plan.

A callable is turned down for a type that does not classify, for a link to an argument that is not
there, and for a destroy notifier without user data. Each of these is a property of its records. Links
that nothing reads do not count: those of a destroy notifier, of an argument that is no callback, and
the length of a return value that is skipped.
-/

set_option autoImplicit false

namespace ForeignCall

/-- The argument that holds the length of an array of the type. -/
def TypeRecord.linkedLength? (t : TypeRecord) : Option Nat :=
  if t.tag = .array then t.arrayLength else none

/-- Whether the type is that of a script function: a callback other than the destroy notifier. -/
def Repository.IsScripted (r : Repository) (t : TypeRecord) : Prop :=
  t.tag = .interface ∧ ∃ entry, r.interfaceOf? t = some entry ∧ entry.kind = .callback ∧
    entry.qualifiedName ≠ destroyNotifyName

/-- An argument whose type classifies and whose links lead to one of so many arguments. -/
structure ArgumentRecord.Linkable (a : ArgumentRecord) (r : Repository) (count : Nat) : Prop where
  classifies : ∃ d, r.classify a.type = .ok d
  length : ∀ l, a.type.linkedLength? = some l → l < count
  notified : r.IsScripted a.type → a.destroy.isSome = true → a.closure.isSome = true
  closure : r.IsScripted a.type → ∀ i, a.closure = some i → i < count
  destroy : r.IsScripted a.type → ∀ i, a.destroy = some i → i < count

structure CallableRecord.Plannable (c : CallableRecord) (r : Repository) : Prop where
  arguments : ∀ a ∈ c.arguments, a.Linkable r c.arguments.length
  classifies : ∃ d, r.classify c.returnType = .ok d
  returnLength : c.skipReturn = false → c.returnType.tag ≠ .void →
    ∀ l, c.returnType.linkedLength? = some l → l < c.arguments.length

/-! ### What a descriptor keeps of its record -/

section Types

variable {r : Repository} {t : TypeRecord} {d : Descriptor}

theorem EntryRecord.Names.eq_callback_iff {e : EntryRecord} {type : NamedType}
    (names : e.Names type) : type = .callback ↔ e.kind = .callback := by
  cases names with
  | record kind | object kind | enumeration kind => rcases kind with kind | kind <;> simp [kind]
  | boxed kind | callback kind => simp [kind]

theorem Repository.links_of_classify (classified : r.classify t = .ok d) :
    d.linkedLength? = t.linkedLength? ∧ (d.isScripted = true ↔ r.IsScripted t) ∧
      (Plan.returnsVoid d = true ↔ t.tag = .void) := by
  rw [TypeRecord.linkedLength?, Repository.IsScripted]
  cases Repository.describes_of_classify classified with
  | @basic _ type tag =>
    rw [tag]
    cases type with
    | string filename =>
      cases filename <;>
        simp [BasicType.tag, Descriptor.linkedLength?, Descriptor.isScripted, Plan.returnsVoid]
    | _ => simp [BasicType.tag, Descriptor.linkedLength?, Descriptor.isScripted, Plan.returnsVoid]
  | array tag _ _ counts =>
    rw [tag, if_pos rfl, TypeRecord.counts_iff.1 counts]
    refine ⟨?_, by simp [Descriptor.isScripted], by simp [Plan.returnsVoid]⟩
    cases t.arrayLength <;> cases t.fixedSize <;> cases t.zeroTerminated <;> rfl
  | @list _ _ _ _ singlyLinked tag =>
    rw [tag]
    cases singlyLinked <;>
      simp [Descriptor.linkedLength?, Descriptor.isScripted, Plan.returnsVoid]
  | hash tag => simp [tag, Descriptor.linkedLength?, Descriptor.isScripted, Plan.returnsVoid]
  | @interface _ name e type tag named found names =>
    have scripted : (Descriptor.named type e.qualifiedName t.pointer).isScripted = true ↔
        type = .callback ∧ e.qualifiedName ≠ destroyNotifyName := by
      cases type <;> simp [Descriptor.isScripted]
    rw [scripted, names.eq_callback_iff, Repository.interfaceOf?, named]
    simp [tag, found, Descriptor.linkedLength?, Plan.returnsVoid]

end Types

namespace Plan

variable {r : Repository} {callable : String} {count position : Nat} {a : ArgumentRecord}
  {d : Descriptor}

/-! ### The checks of a derivation -/

theorem exists_checkIndex_iff {argument : String} {index : Nat} :
    (∃ i, checkIndex callable count argument index = .ok i) ↔ index < count := by
  constructor
  · rintro ⟨i, checked⟩
    obtain ⟨rfl, inside⟩ := checkIndex_ok checked
    exact inside
  · intro inside
    exact ⟨index, if_pos inside⟩

theorem exists_checkLink_iff {argument : String} {link : Option Nat} :
    (∃ found, checkLink callable count argument link = .ok found) ↔
      ∀ i, link = some i → i < count := by
  cases link with
  | none => exact ⟨fun _ => nofun, fun _ => ⟨none, rfl⟩⟩
  | some index =>
    rw [checkLink, Except.exists_bind_iff]
    constructor
    · rintro ⟨i, checked, -⟩ _ ⟨⟩
      exact exists_checkIndex_iff.1 ⟨i, checked⟩
    · intro inside
      obtain ⟨i, checked⟩ := exists_checkIndex_iff.2 (inside index rfl)
      exact ⟨i, checked, _, rfl⟩

/-- The links that the descriptor of an argument makes count lead to one of so many arguments, and a
destroy notifier has user data. -/
structure Linked (a : ArgumentRecord) (d : Descriptor) (count : Nat) : Prop where
  length : ∀ l, d.linkedLength? = some l → l < count
  notified : d.isScripted = true → a.destroy.isSome = true → a.closure.isSome = true
  closure : d.isScripted = true → ∀ i, a.closure = some i → i < count
  destroy : d.isScripted = true → ∀ i, a.destroy = some i → i < count

theorem linked_of_plain (unlinked : d.linkedLength? = none) (unscripted : d.isScripted = false) :
    Linked a d count := by
  constructor
  · rw [unlinked]
    nofun
  all_goals
    rw [unscripted]
    nofun

theorem exists_claim_iff :
    (∃ e, claim callable count position a d = .ok e) ↔ Linked a d count := by
  unfold claim
  split
  · rename_i element length form pointer
    rw [Except.exists_bind_iff]
    constructor
    · rintro ⟨l, checked, -⟩
      constructor
      case length =>
        rintro _ ⟨⟩
        exact exists_checkIndex_iff.1 ⟨l, checked⟩
      all_goals rintro ⟨⟩
    · intro linked
      obtain ⟨l, checked⟩ := exists_checkIndex_iff.2 (linked.length length rfl)
      exact ⟨l, checked, _, rfl⟩
  · rename_i name pointer
    split
    · rename_i notifier
      refine iff_of_true ⟨_, rfl⟩ (linked_of_plain rfl ?_)
      simp [Descriptor.isScripted, notifier]
    · rename_i scripted
      have callback : (Descriptor.named .callback name pointer).isScripted = true := by
        simpa [Descriptor.isScripted] using scripted
      split
      · rename_i unsupported
        rw [Bool.and_eq_true, Option.isNone_iff_eq_none] at unsupported
        refine iff_of_false (by rintro ⟨_, ⟨⟩⟩) fun linked => ?_
        have given := linked.notified callback unsupported.1
        rw [unsupported.2] at given
        cases given
      · rename_i supported
        simp only [Except.exists_bind_iff]
        constructor
        · rintro ⟨closure, first, destroy, second, -⟩
          refine ⟨by rintro _ ⟨⟩, fun _ notified => ?_, fun _ => ?_, fun _ => ?_⟩
          · simpa [notified, Option.isSome_iff_ne_none] using supported
          · exact exists_checkLink_iff.1 ⟨closure, first⟩
          · exact exists_checkLink_iff.1 ⟨destroy, second⟩
        · intro linked
          obtain ⟨closure, first⟩ := exists_checkLink_iff.2 (linked.closure callback)
          obtain ⟨destroy, second⟩ := exists_checkLink_iff.2 (linked.destroy callback)
          exact ⟨closure, first, destroy, second, _, rfl⟩
  · rename_i array callback
    refine iff_of_true ⟨_, rfl⟩ (linked_of_plain ?_ ?_)
    · unfold Descriptor.linkedLength?
      split
      · exact (array _ _ _ _ rfl).elim
      · rfl
    · unfold Descriptor.isScripted
      split
      · exact (callback _ _ rfl).elim
      · rfl

theorem exists_claimAll_iff {typed : List (ArgumentRecord × Descriptor)} :
    (∃ all, claimAll callable count position typed = .ok all) ↔
      ∀ e ∈ typed, Linked e.1 e.2 count := by
  induction typed generalizing position with
  | nil => exact iff_of_true ⟨[], rfl⟩ (List.forall_mem_nil _)
  | cons first rest ih =>
    have later : (∃ all, claimAll callable count (position + 1) rest = .ok all) ↔
        ∀ e ∈ rest, Linked e.1 e.2 count := ih
    rw [List.forall_mem_cons, ← later, ← exists_claim_iff, claimAll, Except.exists_bind_iff]
    constructor
    · rintro ⟨e, one, others⟩
      obtain ⟨all, others, -⟩ := Except.exists_bind_iff.1 others
      exact ⟨⟨e, one⟩, all, others⟩
    · rintro ⟨⟨e, one⟩, all, others⟩
      exact ⟨e, one, Except.exists_bind_iff.2 ⟨all, others, _, rfl⟩⟩

theorem exists_classifyArguments_iff {arguments : List ArgumentRecord} :
    (∃ typed, classifyArguments r callable arguments = .ok typed) ↔
      ∀ a ∈ arguments, ∃ d, r.classify a.type = .ok d := by
  induction arguments with
  | nil => exact iff_of_true ⟨[], rfl⟩ (List.forall_mem_nil _)
  | cons first rest ih =>
    rw [List.forall_mem_cons, ← ih, classifyArguments, Except.exists_bind_iff]
    simp only [Except.mapError_eq_ok_iff]
    constructor
    · rintro ⟨d, one, others⟩
      obtain ⟨typed, others, -⟩ := Except.exists_bind_iff.1 others
      exact ⟨⟨d, one⟩, typed, others⟩
    · rintro ⟨⟨d, one⟩, typed, others⟩
      exact ⟨d, one, Except.exists_bind_iff.2 ⟨typed, others, _, rfl⟩⟩

/-- The pairs of a classification are the arguments with their descriptors. -/
theorem mem_classified_iff {arguments : List ArgumentRecord}
    {typed : List (ArgumentRecord × Descriptor)}
    (run : classifyArguments r callable arguments = .ok typed) :
    (a, d) ∈ typed ↔ a ∈ arguments ∧ r.classify a.type = .ok d := by
  induction arguments generalizing typed with
  | nil =>
    cases run
    simp
  | cons first rest ih =>
    obtain ⟨type, classified, others⟩ := Except.exists_of_bind run
    obtain ⟨more, all, done⟩ := Except.exists_of_bind others
    rw [Except.mapError_eq_ok_iff] at classified
    cases done
    rw [List.mem_cons, List.mem_cons, ih all, Prod.mk.injEq, or_and_right]
    refine or_congr_left ⟨?_, ?_⟩
    · rintro ⟨rfl, rfl⟩
      exact ⟨rfl, classified⟩
    · rintro ⟨rfl, classified'⟩
      exact ⟨rfl, Except.ok.inj (classified'.symm.trans classified)⟩

theorem exists_returnLengthOf_iff {skipped : Bool} :
    (∃ length, returnLengthOf callable count skipped d = .ok length) ↔
      (skipped = false → ∀ l, d.linkedLength? = some l → l < count) := by
  unfold returnLengthOf
  split
  · rename_i element length form pointer
    cases skipped with
    | true => exact iff_of_true ⟨none, rfl⟩ nofun
    | false =>
      rw [if_neg Bool.false_ne_true, Except.exists_bind_iff]
      constructor
      · rintro ⟨l, checked, -⟩ - _ ⟨⟩
        exact exists_checkIndex_iff.1 ⟨l, checked⟩
      · intro inside
        obtain ⟨l, checked⟩ := exists_checkIndex_iff.2 (inside rfl length rfl)
        exact ⟨l, checked, _, rfl⟩
  · rename_i other
    refine iff_of_true ⟨none, rfl⟩ fun _ l linked => ?_
    unfold Descriptor.linkedLength? at linked
    split at linked
    · exact (other _ _ _ _ rfl).elim
    · cases linked

/-! ### The derivation -/

theorem linkable_iff {c : Nat} (classified : r.classify a.type = .ok d) :
    a.Linkable r c ↔ Linked a d c := by
  obtain ⟨length, scripted, -⟩ := Repository.links_of_classify classified
  constructor
  · intro linkable
    exact ⟨length ▸ linkable.length, fun callback => linkable.notified (scripted.1 callback),
      fun callback => linkable.closure (scripted.1 callback),
      fun callback => linkable.destroy (scripted.1 callback)⟩
  · intro linked
    exact ⟨⟨d, classified⟩, length ▸ linked.length,
      fun callback => linked.notified (scripted.2 callback),
      fun callback => linked.closure (scripted.2 callback),
      fun callback => linked.destroy (scripted.2 callback)⟩

/-- What has to be there at a return value that the script gets. -/
theorem returnLength_iff {c : CallableRecord} (classified : r.classify c.returnType = .ok d) :
    ((c.skipReturn || returnsVoid d) = false → ∀ l, d.linkedLength? = some l → l < count) ↔
      (c.skipReturn = false → c.returnType.tag ≠ .void →
        ∀ l, c.returnType.linkedLength? = some l → l < count) := by
  obtain ⟨length, -, void⟩ := Repository.links_of_classify classified
  rw [length, Bool.or_eq_false_iff, and_imp, ← Bool.not_eq_true (returnsVoid d), void]

/-- A plan is derived for a callable if and only if its types classify, its links lead to arguments it
has, and no destroy notifier of it lacks user data. -/
theorem exists_derive_iff (r : Repository) (c : CallableRecord) :
    (∃ plan, derive r c = .ok plan) ↔ c.Plannable r := by
  simp only [derive, Except.exists_bind_iff, Except.mapError_eq_ok_iff]
  constructor
  · rintro ⟨typed, classified, returnType, returns, claimed, claims, length, measured, -⟩
    have classifies := exists_classifyArguments_iff.1 ⟨typed, classified⟩
    have linked := exists_claimAll_iff.1 ⟨claimed, claims⟩
    refine ⟨fun a listed => ?_, ⟨returnType, returns⟩, ?_⟩
    · obtain ⟨d, type⟩ := classifies a listed
      exact (linkable_iff type).2 (linked (a, d) ((mem_classified_iff classified).2 ⟨listed, type⟩))
    · exact (returnLength_iff returns).1 (exists_returnLengthOf_iff.1 ⟨length, measured⟩)
  · rintro ⟨arguments, ⟨returnType, returns⟩, returnLength⟩
    obtain ⟨typed, classified⟩ := exists_classifyArguments_iff.2 fun a listed =>
      (arguments a listed).classifies
    obtain ⟨claimed, claims⟩ := exists_claimAll_iff.2 fun e listed => by
      obtain ⟨given, type⟩ := (mem_classified_iff classified).1 listed
      exact (linkable_iff type).1 (arguments e.1 given)
    obtain ⟨length, measured⟩ :=
      exists_returnLengthOf_iff.2 ((returnLength_iff returns).2 returnLength)
    exact ⟨typed, classified, returnType, returns, claimed, claims, length, measured, _, rfl⟩

/-- Links that nothing reads may lead anywhere. -/
example :
    let bytes : TypeRecord := .cArray { tag := .integer ⟨.w8, false⟩ }
    let c : CallableRecord :=
      { namespaceName := "T", name := "f", skipReturn := true, returnType := bytes.withLength 8
        arguments := [
          { name := "notify", type := .named destroyNotifyName, closure := some 7, destroy := some 9 },
          { name := "data", type := .anyPointer, closure := some 6, destroy := some 5 }] }
    (Plan.derive .initial c).toOption.map (·.parameters.map (·.role)) = some [.skip, .normal] := by
  decide +kernel

end Plan

end ForeignCall
