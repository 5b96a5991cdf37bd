import ForeignCall.Proofs.Call.LinkValues
import ForeignCall.Proofs.Call.Plan

/-!
The roles of the arguments of a callable.

An argument is hidden from the script if another one links to it, if it is a destroy notifier, or if it
is its own user data. Every other argument has the role of its type. This is said here of the record of
the callable alone, in one step and for all arguments at once, and a derived plan agrees with it.
-/

set_option autoImplicit false

namespace ForeignCall

namespace Descriptor

/-- The argument that the length of an array is in. -/
def linkedLength? : Descriptor → Option Nat
  | .array _ (.parameter length) _ _ => some length
  | _ => none

def isDestroyNotify : Descriptor → Bool
  | .named .callback name _ => name == destroyNotifyName
  | _ => false

/-- A callback that is a function of the script, which the destroy notifier is not. -/
def isScripted : Descriptor → Bool
  | .named .callback name _ => name != destroyNotifyName
  | _ => false

end Descriptor

namespace ArgumentRecord

/-- The arguments that stand for a part of an argument of the type: its length, its user data and its
destroy notifier. -/
inductive LinksTo (a : ArgumentRecord) (d : Descriptor) (i : Nat) : Prop
  | length (linked : d.linkedLength? = some i)
  | closure (callback : d.isScripted = true) (linked : a.closure = some i)
  | destroy (callback : d.isScripted = true) (linked : a.destroy = some i)

/-- Whether an argument of the type is hidden on its own account at a position: it is a destroy
notifier, or its own user data. -/
def Hides (a : ArgumentRecord) (d : Descriptor) (position : Nat) : Prop :=
  d.isDestroyNotify = true ∨
    d.linkedLength? = none ∧ d.isScripted = false ∧ a.closure = some position

/-- The role that an argument of the type has if it is not hidden. -/
def shownRole (a : ArgumentRecord) (d : Descriptor) : Role :=
  match d.linkedLength? with
  | some length => .array length
  | none => if d.isScripted then .callback a.closure a.destroy else .normal

end ArgumentRecord

/-- The arguments that others link to, the return value included unless it is skipped. -/
def CallableRecord.Absorbs (c : CallableRecord) (r : Repository) (i : Nat) : Prop :=
  (∃ a ∈ c.arguments, ∃ d, r.classify a.type = .ok d ∧ a.LinksTo d i) ∨
    c.skipReturn = false ∧ ∃ d, r.classify c.returnType = .ok d ∧ d.linkedLength? = some i

namespace Plan

/-- The plan gives the arguments of a callable their roles, and each link of it leads to another
argument, which is hidden. -/
structure Assigns (plan : Plan) (r : Repository) (c : CallableRecord) : Prop where
  length : plan.parameters.length = c.arguments.length
  returnType : r.classify c.returnType = .ok plan.returnType
  role : ∀ (i : Nat) (a : ArgumentRecord), c.arguments[i]? = some a →
    ∃ p : Parameter, plan.parameters[i]? = some p ∧ r.classify a.type = .ok p.type ∧
      p.direction = a.direction ∧ p.nullable = a.nullable ∧
      (p.role = .skip ↔ c.Absorbs r i ∨ a.Hides p.type i) ∧
      (p.role ≠ .skip → p.role = a.shownRole p.type)
  returnLength : ∀ l, plan.returnLength = some l ↔
    c.skipReturn = false ∧ plan.returnType.linkedLength? = some l
  skipReturn : plan.skipReturn = true ↔
    c.skipReturn = true ∨ ∃ pointer, plan.returnType = .basic .void pointer
  links : ∀ (i : Nat) (p : Parameter), plan.parameters[i]? = some p → ∀ l, p.LinksTo l →
    l ≠ i ∧ ∃ q : Parameter, plan.parameters[l]? = some q ∧ q.role = .skip
  returnLinks : ∀ l, plan.returnLength = some l →
    ∃ q : Parameter, plan.parameters[l]? = some q ∧ q.role = .skip
  required : plan.requiredCount = plan.parameters.countP fun p =>
    p.role ≠ .skip ∧ p.nullable = false ∧ (p.direction = .input ∨ p.direction = .inout)
  outputs : plan.outputCount = (plan.parameters.countP fun p =>
      p.role ≠ .skip ∧ (p.direction = .output ∨ p.direction = .inout)) +
    if plan.skipReturn = true then 0 else 1

variable {r : Repository} {callable : String} {count position : Nat} {a : ArgumentRecord}
  {d : Descriptor} {claimed : Claimed}

/-! ### One argument -/

/-- What an argument of the type claims: its own role, and the arguments it links to. -/
structure Claims (a : ArgumentRecord) (d : Descriptor) (count position : Nat) (claimed : Claimed) :
    Prop where
  type : claimed.parameter.type = d
  direction : claimed.parameter.direction = a.direction
  nullable : claimed.parameter.nullable = a.nullable
  hidden : claimed.parameter.role = .skip ↔ a.Hides d position
  shown : claimed.parameter.role ≠ .skip → claimed.parameter.role = a.shownRole d
  absorbed : ∀ i, i ∈ claimed.absorbed ↔ a.LinksTo d i
  inside : ∀ i ∈ claimed.absorbed, i < count

theorem claim_array_claims {element : Descriptor} {length : Nat} {form : ArrayForm} {pointer : Bool}
    (run : claim callable count position a (.array element (.parameter length) form pointer) =
      .ok claimed) :
    Claims a (.array element (.parameter length) form pointer) count position claimed := by
  unfold claim at run
  obtain ⟨_, checked, done⟩ := Except.exists_of_bind run
  obtain ⟨rfl, inside⟩ := checkIndex_ok checked
  cases done
  refine ⟨rfl, rfl, rfl, ?_, fun _ => rfl, fun i => ?_, ?_⟩
  · simp [ArgumentRecord.Hides, Descriptor.isDestroyNotify, Descriptor.linkedLength?]
  · rw [List.mem_singleton]
    refine ⟨fun same => .length (by rw [same]; rfl), ?_⟩
    rintro (⟨⟨⟩⟩ | ⟨⟨⟩⟩ | ⟨⟨⟩⟩)
    rfl
  · simpa using inside

theorem claim_notifier_claims {pointer : Bool}
    (run : claim callable count position a (.named .callback destroyNotifyName pointer) =
      .ok claimed) :
    Claims a (.named .callback destroyNotifyName pointer) count position claimed := by
  simp only [claim, if_true] at run
  cases run
  refine ⟨rfl, rfl, rfl, ?_, fun shown => absurd rfl shown, fun i => ?_, by simp⟩
  · simp [ArgumentRecord.Hides, Descriptor.isDestroyNotify]
  · refine ⟨nofun, ?_⟩
    rintro (⟨⟨⟩⟩ | ⟨callback, -⟩ | ⟨callback, -⟩) <;> simp [Descriptor.isScripted] at callback

theorem claim_callback_claims {name : String} {pointer : Bool} (scripted : name ≠ destroyNotifyName)
    (run : claim callable count position a (.named .callback name pointer) = .ok claimed) :
    Claims a (.named .callback name pointer) count position claimed := by
  have callback : (Descriptor.named .callback name pointer).isScripted = true := by
    simpa [Descriptor.isScripted] using scripted
  simp only [claim, if_neg scripted] at run
  split at run
  · cases run
  · obtain ⟨closure, first, rest⟩ := Except.exists_of_bind run
    obtain ⟨destroy, second, done⟩ := Except.exists_of_bind rest
    obtain ⟨rfl, inside⟩ := checkLink_ok first
    obtain ⟨rfl, inside'⟩ := checkLink_ok second
    cases done
    refine ⟨rfl, rfl, rfl, ?_, fun _ => ?_, fun i => ?_, fun i listed => ?_⟩
    · simp [ArgumentRecord.Hides, Descriptor.isDestroyNotify, scripted, callback]
    · simp [ArgumentRecord.shownRole, Descriptor.linkedLength?, callback]
    · rw [List.mem_append, Option.mem_toList, Option.mem_toList]
      constructor
      · rintro (linked | linked)
        · exact .closure callback linked
        · exact .destroy callback linked
      · rintro (⟨⟨⟩⟩ | ⟨-, linked⟩ | ⟨-, linked⟩)
        · exact .inl linked
        · exact .inr linked
    · rcases List.mem_append.1 listed with closing | destroying
      · exact inside i (by simpa using closing)
      · exact inside' i (by simpa using destroying)

/-- An argument that is neither an array with a length elsewhere nor a callback claims nothing else. -/
theorem claim_plain_claims (unlinked : d.linkedLength? = none) (unscripted : d.isScripted = false)
    (other : d.isDestroyNotify = false)
    (run : claim callable count position a d = .ok claimed) : Claims a d count position claimed := by
  unfold claim at run
  split at run
  · cases unlinked
  · rename_i name pointer
    simp only [Descriptor.isScripted, bne_eq_false_iff_eq] at unscripted
    simp [Descriptor.isDestroyNotify, unscripted] at other
  · cases run
    refine ⟨rfl, rfl, rfl, ?_, fun shown => ?_, fun i => ?_, by simp⟩
    · simp [ArgumentRecord.Hides, unlinked, unscripted, other]
    · dsimp only at shown ⊢
      split at shown
      · exact absurd rfl shown
      · rename_i given
        simp [ArgumentRecord.shownRole, unlinked, unscripted, given]
    · refine ⟨nofun, ?_⟩
      rintro (linked | ⟨callback, -⟩ | ⟨callback, -⟩)
      · cases unlinked.symm.trans linked
      · cases unscripted.symm.trans callback
      · cases unscripted.symm.trans callback

theorem claim_claims (run : claim callable count position a d = .ok claimed) :
    Claims a d count position claimed := by
  match d with
  | .array element (.parameter length) form pointer => exact claim_array_claims run
  | .array _ (.fixed _) _ _ | .array _ .zeroTerminated _ _ | .array _ .unspecified _ _ =>
    exact claim_plain_claims rfl rfl rfl run
  | .named .callback name pointer =>
    by_cases notifier : name = destroyNotifyName
    · subst notifier
      exact claim_notifier_claims run
    · exact claim_callback_claims notifier run
  | .basic .. | .named (.enumeration ..) .. | .named (.structured ..) .. | .named .object .. |
    .hash .. | .list .. => exact claim_plain_claims rfl rfl rfl run

/-! ### All arguments -/

theorem exists_typed {arguments : List ArgumentRecord} {typed : List (ArgumentRecord × Descriptor)}
    {i : Nat} (run : classifyArguments r callable arguments = .ok typed)
    (found : arguments[i]? = some a) :
    ∃ d, typed[i]? = some (a, d) ∧ r.classify a.type = .ok d := by
  induction arguments generalizing typed i with
  | nil => cases found
  | cons first rest ih =>
    obtain ⟨d, classified, others⟩ := Except.exists_of_bind run
    obtain ⟨more, all, done⟩ := Except.exists_of_bind others
    cases done
    cases i with
    | zero =>
      cases found
      exact ⟨d, rfl, Except.mapError_eq_ok_iff.1 classified⟩
    | succ i =>
      have listed : rest[i]? = some a := found
      obtain ⟨d', found', type⟩ := ih all listed
      exact ⟨d', found', type⟩

theorem exists_claimed {typed : List (ArgumentRecord × Descriptor)} {all : List Claimed} {i : Nat}
    (run : claimAll callable count position typed = .ok all) (found : typed[i]? = some (a, d)) :
    ∃ e, all[i]? = some e ∧ Claims a d count (position + i) e := by
  induction typed generalizing position all i with
  | nil => cases found
  | cons first rest ih =>
    obtain ⟨e, one, others⟩ := Except.exists_of_bind run
    obtain ⟨more, claims, done⟩ := Except.exists_of_bind others
    cases done
    cases i with
    | zero =>
      cases found
      exact ⟨e, rfl, claim_claims one⟩
    | succ i =>
      have listed : rest[i]? = some (a, d) := found
      obtain ⟨e', found', claim⟩ := ih claims listed
      have moved : position + 1 + i = position + (i + 1) := by omega
      exact ⟨e', found', moved ▸ claim⟩

theorem returnLengthOf_ok {skipped : Bool} {length : Option Nat}
    (run : returnLengthOf callable count skipped d = .ok length) :
    (∀ l, length = some l ↔ skipped = false ∧ d.linkedLength? = some l) ∧ ∀ l ∈ length, l < count := by
  unfold returnLengthOf at run
  split at run
  · split at run
    · rename_i skipped
      cases run
      simp [skipped]
    · rename_i taken
      obtain ⟨l, checked, done⟩ := Except.exists_of_bind run
      obtain ⟨rfl, inside⟩ := checkIndex_ok checked
      cases done
      simp [taken, Descriptor.linkedLength?, inside]
  · rename_i other
    cases run
    refine ⟨fun l => ⟨fun empty => (by cases empty), ?_⟩, by simp⟩
    rintro ⟨-, linked⟩
    unfold Descriptor.linkedLength? at linked
    split at linked
    · exact (other _ _ _ _ rfl).elim
    · cases linked

theorem returnsVoid_iff : returnsVoid d = true ↔ ∃ pointer, d = .basic .void pointer := by
  unfold returnsVoid
  split
  · simp
  · rename_i other
    simpa using other

/-- A linked array is not void, so its length is skipped only where the record says so. -/
theorem linkedReturn_iff {skipped : Bool} {l : Nat} :
    (skipped || returnsVoid d) = false ∧ d.linkedLength? = some l ↔
      skipped = false ∧ d.linkedLength? = some l := by
  refine and_congr_left fun linked => ?_
  have given : returnsVoid d = false := by
    unfold Descriptor.linkedLength? at linked
    split at linked
    · rfl
    · cases linked
  rw [given, Bool.or_false]

/-- The links of a role are those of the argument that has it. -/
theorem linksTo_of_shownRole {p : Parameter} {l : Nat} (role : p.role = a.shownRole d)
    (links : p.LinksTo l) : a.LinksTo d l := by
  rw [Parameter.LinksTo, role, ArgumentRecord.shownRole] at links
  cases linked : d.linkedLength? with
  | some length =>
    rw [linked] at links
    exact .length (linked.trans (congrArg some links))
  | none =>
    rw [linked] at links
    cases callback : d.isScripted with
    | false =>
      rw [callback] at links
      exact links.elim
    | true =>
      rw [callback] at links
      exact links.elim (.closure callback) (.destroy callback)

/-! ### Plans -/

/-- What a plan was derived from: what each argument claims, and the return value. -/
structure DerivedFrom (plan : Plan) (r : Repository) (c : CallableRecord) (claimed : List Claimed) :
    Prop where
  returnType : r.classify c.returnType = .ok plan.returnType
  skipReturn : plan.skipReturn = (c.skipReturn || returnsVoid plan.returnType)
  returnLength : ∀ l, plan.returnLength = some l ↔
    c.skipReturn = false ∧ plan.returnType.linkedLength? = some l
  returnInside : ∀ l ∈ plan.returnLength, l < c.arguments.length
  count : claimed.length = c.arguments.length
  claims : ∀ (i : Nat) (a : ArgumentRecord), c.arguments[i]? = some a →
    ∃ e d, claimed[i]? = some e ∧ r.classify a.type = .ok d ∧ Claims a d c.arguments.length i e
  parameters : plan.parameters = hideAbsorbed
    (claimed.flatMap (·.absorbed) ++ plan.returnLength.toList) (claimed.map (·.parameter))

theorem exists_derivedFrom {c : CallableRecord} {plan : Plan} (derived : derive r c = .ok plan) :
    ∃ claimed, plan.DerivedFrom r c claimed := by
  obtain ⟨typed, classified, derived⟩ := Except.exists_of_bind derived
  obtain ⟨returnType, returns, derived⟩ := Except.exists_of_bind derived
  obtain ⟨claimed, claims, derived⟩ := Except.exists_of_bind derived
  obtain ⟨returnLength, measured, derived⟩ := Except.exists_of_bind derived
  obtain ⟨returned, inside⟩ := returnLengthOf_ok measured
  cases derived
  refine ⟨claimed, Except.mapError_eq_ok_iff.1 returns, rfl,
    fun l => (returned l).trans linkedReturn_iff, inside, ?_, ?_, rfl⟩
  · rw [(claimAll_fits claims).1, classifyArguments_length classified]
  · intro i a found
    obtain ⟨d, typed, type⟩ := exists_typed classified found
    obtain ⟨e, listed, claims⟩ := exists_claimed claims typed
    exact ⟨e, d, listed, type, Nat.zero_add i ▸ claims⟩

namespace DerivedFrom

variable {c : CallableRecord} {plan : Plan} {all : List Claimed} {i : Nat} {p : Parameter}
  (origin : plan.DerivedFrom r c all)

include origin

/-- Every claim is that of an argument. -/
theorem source {e : Claimed} (listed : e ∈ all) : ∃ i a d, c.arguments[i]? = some a ∧
    r.classify a.type = .ok d ∧ Claims a d c.arguments.length i e := by
  obtain ⟨i, found⟩ := List.mem_iff_getElem?.1 listed
  have inside := (List.getElem?_eq_some_iff.1 found).1
  obtain ⟨e', d, found', type, claims⟩ :=
    origin.claims i _ (List.getElem?_eq_getElem (origin.count ▸ inside))
  cases found.symm.trans found'
  exact ⟨i, _, d, List.getElem?_eq_getElem (origin.count ▸ inside), type, claims⟩

theorem mem_absorbed_iff : i ∈ all.flatMap (·.absorbed) ++ plan.returnLength.toList ↔
    c.Absorbs r i := by
  rw [List.mem_append, List.mem_flatMap, Option.mem_toList]
  refine or_congr ⟨?_, ?_⟩ ?_
  · rintro ⟨e, listed, taken⟩
    obtain ⟨j, a, d, found, type, claims⟩ := origin.source listed
    exact ⟨a, List.mem_of_getElem? found, d, type, (claims.absorbed i).1 taken⟩
  · rintro ⟨a, listed, d, type, links⟩
    obtain ⟨j, found⟩ := List.mem_iff_getElem?.1 listed
    obtain ⟨e, d', claiming, type', claims⟩ := origin.claims j a found
    cases type.symm.trans type'
    exact ⟨e, List.mem_of_getElem? claiming, (claims.absorbed i).2 links⟩
  · rw [origin.returnLength, origin.returnType]
    simp

/-- What others link to is there and hidden. -/
theorem hidden (absorbed : c.Absorbs r i) : ∃ q : Parameter, plan.parameters[i]? = some q ∧
    q.role = .skip := by
  have listed := origin.mem_absorbed_iff.2 absorbed
  rw [origin.parameters]
  refine hidden_of_absorbed ?_ listed
  rw [origin.count]
  rcases List.mem_append.1 listed with taken | returning
  · obtain ⟨e, listed, taken⟩ := List.mem_flatMap.1 taken
    obtain ⟨_, _, _, -, -, claims⟩ := origin.source listed
    exact claims.inside i taken
  · exact origin.returnInside i (Option.mem_toList.1 returning)

/-- The parameter of an argument is what it claims, unless it is hidden. -/
theorem role {a : ArgumentRecord} (found : c.arguments[i]? = some a) : ∃ p : Parameter,
    plan.parameters[i]? = some p ∧ r.classify a.type = .ok p.type ∧
      p.direction = a.direction ∧ p.nullable = a.nullable ∧
      (p.role = .skip ↔ c.Absorbs r i ∨ a.Hides p.type i) ∧
      (p.role ≠ .skip → p.role = a.shownRole p.type) := by
  obtain ⟨e, d, listed, type, claims⟩ := origin.claims i a found
  let absorbed := all.flatMap (·.absorbed) ++ plan.returnLength.toList
  have place : plan.parameters[i]? =
      some (if absorbed.contains i then { e.parameter with role := .skip } else e.parameter) := by
    rw [origin.parameters, getElem?_hideAbsorbed, List.getElem?_map, listed]
    rfl
  refine ⟨_, place, ?_⟩
  by_cases taken : i ∈ absorbed
  · rw [if_pos (List.contains_iff_mem.2 taken)]
    exact ⟨claims.type ▸ type, claims.direction, claims.nullable,
      ⟨fun _ => .inl (origin.mem_absorbed_iff.1 taken), fun _ => rfl⟩, fun shown => absurd rfl shown⟩
  · rw [if_neg fun listed => taken (List.contains_iff_mem.1 listed), claims.type,
      ← origin.mem_absorbed_iff]
    exact ⟨type, claims.direction, claims.nullable,
      claims.hidden.trans (or_iff_right taken).symm, claims.shown⟩

theorem length_eq : plan.parameters.length = c.arguments.length := by
  rw [origin.parameters, hideAbsorbed, List.length_mapIdx, List.length_map, origin.count]

/-- A link leads to another argument, which is hidden. -/
theorem links {l : Nat} (found : plan.parameters[i]? = some p) (links : p.LinksTo l) :
    l ≠ i ∧ ∃ q : Parameter, plan.parameters[l]? = some q ∧ q.role = .skip := by
  have inside : i < c.arguments.length :=
    origin.length_eq ▸ (List.getElem?_eq_some_iff.1 found).1
  have given := List.getElem?_eq_getElem inside
  obtain ⟨p', found', type, -, -, -, shown⟩ := origin.role given
  cases found.symm.trans found'
  have visible : p.role ≠ .skip := by
    intro skip
    rw [Parameter.LinksTo, skip] at links
    exact links
  obtain ⟨q, target, skip⟩ := origin.hidden
    (.inl ⟨_, List.mem_of_getElem? given, p.type, type, linksTo_of_shownRole (shown visible) links⟩)
  refine ⟨?_, q, target, skip⟩
  rintro rfl
  cases found.symm.trans target
  exact visible skip

end DerivedFrom

/-- A destroy notifier and an argument that is its own user data are hidden, whatever links to them. -/
theorem hidden_of_hides {c : CallableRecord} {plan : Plan} {i : Nat} {p : Parameter}
    (derived : derive r c = .ok plan) (found : plan.parameters[i]? = some p)
    (given : c.arguments[i]? = some a) (hides : a.Hides p.type i) : p.role = .skip := by
  obtain ⟨claimed, origin⟩ := exists_derivedFrom derived
  obtain ⟨p', found', -, -, -, hidden, -⟩ := origin.role given
  cases found.symm.trans found'
  exact hidden.2 (.inr hides)

/-- A plan that is derived gives every argument the role that its record says, whatever the order of
the arguments is and whatever links to what. -/
theorem roles_of_derive {c : CallableRecord} {plan : Plan} (derived : derive r c = .ok plan) :
    plan.Assigns r c := by
  obtain ⟨claimed, origin⟩ := exists_derivedFrom derived
  refine ⟨origin.length_eq, origin.returnType, fun i a found => origin.role found, origin.returnLength, ?_,
    fun i p found l links => origin.links found links, fun l returning => ?_, ?_, ?_⟩
  · rw [origin.skipReturn, Bool.or_eq_true, returnsVoid_iff]
  · refine origin.hidden (origin.mem_absorbed_iff.1 ?_)
    exact List.mem_append_right _ (Option.mem_toList.2 returning)
  · rw [requiredCount, inputs, List.filter_filter, ← List.countP_eq_length_filter]
    refine List.countP_congr fun p _ => ?_
    cases direction : p.direction <;>
      simp [Parameter.isInput, Parameter.isVisible, Direction.isIn, direction, and_comm]
  · rw [outputCount, Plan.outputs, ← List.countP_eq_length_filter]
    congr 1
    refine List.countP_congr fun p _ => ?_
    cases direction : p.direction <;>
      simp [Parameter.isOutput, Parameter.isVisible, Direction.isOut, direction]

/-- Two arrays are the lengths of each other and a third one is its own, so that the script sees none of
them. The function after them is hidden as the user data of an earlier one, and still hides its own. -/
theorem roles_of_derive_tangled :
    let run : EntryRecord :=
      { namespaceName := "T", name := "Run", kind := .callback
        signature := some { namespaceName := "T", name := "Run" } }
    let r : Repository := .insertEntry .initial run
    let bytes : TypeRecord := .cArray { tag := .integer ⟨.w8, false⟩ }
    let c : CallableRecord :=
      { namespaceName := "T", name := "f", returnType := bytes.withLength 8
        arguments := [
          { name := "left", type := bytes.withLength 1 }, { name := "right", type := bytes.withLength 0 },
          { name := "own", type := bytes.withLength 2 },
          { name := "run", type := .named "T.Run", closure := some 4 },
          { name := "again", type := .named "T.Run", closure := some 5, destroy := some 6 },
          { name := "data", type := .anyPointer }, { name := "notify", type := .named destroyNotifyName },
          { name := "self", type := .anyPointer, closure := some 7 },
          { name := "size", type := { tag := .integer ⟨.w64, false⟩ }, direction := .output },
          { name := "text", type := .utf8, direction := .inout }] }
    let plan := (derive r c).toOption.getD default
    derive r c = .ok plan ∧ plan.Assigns r c ∧
      plan.parameters.map (·.role) =
        [.skip, .skip, .skip, .callback (some 4) none, .skip, .skip, .skip, .skip, .skip, .normal] := by
  intro run r bytes c plan
  have derived : derive r c = .ok plan := by decide +kernel
  exact ⟨derived, roles_of_derive derived, by decide +kernel⟩

end Plan

end ForeignCall
