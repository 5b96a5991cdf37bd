import ForeignCall.Call.Frame
import ForeignCall.Proofs.Call.Plan
import ForeignCall.Proofs.Number.Integer

/-!
What inputs leave for the hidden arguments they are linked to: counts and tokens.

Where several inputs are linked to one argument, the last of them is the one that counts.
-/

set_option autoImplicit false

namespace ForeignCall

def Value.itemCount : Value → Nat
  | .array items => items.length
  | _ => 0

/-- The destroy notifier that goes with the address of a callback. -/
def notifierOf (slot : Slot) : Slot :=
  if slot.isNull then .null else Slot.ofNat TrampolineTable.destroyNotifyAddress

namespace IntFormat

def Holds (format : IntFormat) (n : Nat) : Prop :=
  n < 2 ^ (format.width.bits - if format.signed then 1 else 0)

/-- The integer that arrives in the format when a count goes there as a number of the script. -/
def arriving (format : IntFormat) (n : Nat) : Int :=
  (Slot.ofNat ((Number.ofNat n).truncate format.width.bits)).asInt format.width.bits format.signed

theorem arriving_of_holds {format : IntFormat} {n : Nat} (small : n < 2 ^ 53)
    (fits : format.Holds n) : format.arriving n = n := by
  have int : (Number.ofNat n).IsInt n := Number.isInt_ofInt (by simpa using small)
  have represents : format.Represents n := by
    obtain ⟨width, signed⟩ := format
    cases width <;> cases signed <;> simp [Holds, Represents, Width.bits] at fits ⊢ <;> omega
  exact asInt_of_represents int represents

end IntFormat

namespace Parameter

def LinksTo (p : Parameter) (position : Nat) : Prop :=
  match p.role with
  | .array length => length = position
  | .callback closure destroy => closure = some position ∨ destroy = some position
  | _ => False

/-- The count that an input leaves for the argument at a position. -/
def countFor (p : Parameter) (position : Nat) (count : Option Nat) : Option Nat :=
  match p.role with
  | .array length => if length = position then count else none
  | _ => none

/-- The token that an input leaves for the argument at a position. The destroy notifier is put over
the address. -/
def tokenFor (p : Parameter) (position : Nat) (slot : Slot) : Option Slot :=
  match p.role with
  | .callback closure destroy =>
    if destroy = some position then some (notifierOf slot)
    else if closure = some position then some slot
    else none
  | _ => none

theorem of_countFor {p : Parameter} {position n : Nat} {count : Option Nat}
    (left : p.countFor position count = some n) : p.LinksTo position ∧ count = some n := by
  unfold countFor at left
  unfold LinksTo
  split at left
  · rename_i length role
    simpa only [role, Option.ite_none_right_eq_some] using left
  · cases left

theorem of_tokenFor {p : Parameter} {position : Nat} {slot token : Slot}
    (left : p.tokenFor position slot = some token) :
    p.LinksTo position ∧
      ((∃ closure, p.role = .callback closure (some position)) ∨ token = slot) := by
  unfold tokenFor at left
  unfold LinksTo
  split at left
  · rename_i closure destroy role
    simp only [role]
    split at left
    · rename_i same
      exact ⟨.inr same, .inl ⟨closure, by rw [same]⟩⟩
    · split at left
      · cases left
        exact ⟨.inl (by assumption), .inr rfl⟩
      · cases left
  · cases left

end Parameter

def Descriptor.numberSlot (n : Number) : Descriptor → Slot
  | .basic .boolean _ => .ofBool (Value.number n).isTruthy
  | .basic (.integer format) _ => .ofNat (n.truncate format.width.bits)
  | .basic .float _ => .ofNat n.toBinary32
  | .basic .double _ => ⟨n.bits⟩
  | .basic .gtype _ | .basic .void _ => .ofNat (n.truncate 64)
  | .basic .unichar _ => .ofNat (n.truncate 32)
  | .named (.enumeration storage _) _ _ => .ofNat (n.truncate storage.width.bits)
  | _ => .null

namespace Plan

/-- The count for an argument: that of the last array linked to it. -/
def lastCount (plan : Plan) (position : Nat) (inputs : List Lowered) : Option Nat :=
  inputs.reverse.findSome? fun x =>
    plan.parameters[x.position]?.bind (·.countFor position x.count)

/-- The token for an argument: that of the last callback linked to it. -/
def lastToken (plan : Plan) (position : Nat) (inputs : List Lowered) : Option Slot :=
  inputs.reverse.findSome? fun x =>
    plan.parameters[x.position]?.bind (·.tokenFor position x.slot)

theorem lastCount_concat {plan : Plan} {p : Parameter} {x : Lowered} {position : Nat}
    {inputs : List Lowered} (found : plan.parameters[x.position]? = some p) :
    plan.lastCount position (inputs ++ [x]) =
      (p.countFor position x.count).or (plan.lastCount position inputs) := by
  rw [lastCount, List.reverse_concat, List.findSome?_cons, found, Option.bind_some]
  split <;> simp_all [lastCount]

theorem lastToken_concat {plan : Plan} {p : Parameter} {x : Lowered} {position : Nat}
    {inputs : List Lowered} (found : plan.parameters[x.position]? = some p) :
    plan.lastToken position (inputs ++ [x]) =
      (p.tokenFor position x.slot).or (plan.lastToken position inputs) := by
  rw [lastToken, List.reverse_concat, List.findSome?_cons, found, Option.bind_some]
  split <;> simp_all [lastToken]

/-- What a hidden input finds in its slot. A count goes before a token. -/
def hiddenSlot (plan : Plan) (position : Nat) (q : Parameter) (inputs : List Lowered) : Slot :=
  match plan.lastCount position inputs with
  | some count => q.type.numberSlot (.ofNat count)
  | none => (plan.lastToken position inputs).getD .null

end Plan
structure Took (p : Parameter) (v : Value) (slot : Slot) (count : Option Nat) : Prop where
  array : ∀ length, p.role = .array length → count = some v.itemCount
  callback : ∀ closure destroy, p.role = .callback closure destroy → v.isNullish = true →
    slot = .null

def Lowered.From (plan : Plan) (x : Lowered) (given : Parameter × Value) : Prop :=
  plan.parameters[x.position]? = some given.1 ∧ Took given.1 given.2 x.slot x.count

namespace Plan

variable {plan : Plan} {p : Parameter} {position : Nat} {x : Lowered} {inputs : List Lowered}

/-- Whether an input is the only one that is linked to the argument at a position. -/
def OnlyLinked (plan : Plan) (position : Nat) (x : Lowered) (inputs : List Lowered) : Prop :=
  ∀ y ∈ inputs, ∀ p, plan.parameters[y.position]? = some p → p.LinksTo position → y = x

/-- What an argument links to is hidden. -/
theorem Wired.skip_of_linksTo {q : Parameter} (wired : plan.Wired) (listed : p ∈ plan.parameters)
    (links : p.LinksTo position) (found : plan.parameters[position]? = some q) : q.role = .skip := by
  unfold Parameter.LinksTo at links
  split at links
  · rename_i length role
    subst links
    obtain ⟨-, target, there, skip⟩ := wired.array p listed _ role
    cases found.symm.trans there
    exact skip
  · rename_i closure destroy role
    have absorbed : position ∈ closure.toList ++ destroy.toList := by
      rw [List.mem_append, Option.mem_toList, Option.mem_toList]
      exact links
    obtain ⟨-, hides⟩ := wired.callback p listed _ _ role
    obtain ⟨target, there, skip⟩ := hides position absorbed
    cases found.symm.trans there
    exact skip
  · exact links.elim

theorem exists_lastCount {count : Nat} (listed : x ∈ inputs)
    (found : plan.parameters[x.position]? = some p) (role : p.role = .array position)
    (packed : x.count = some count) :
    ∃ last, plan.lastCount position inputs = some last ∧
      (plan.OnlyLinked position x inputs → last = count) := by
  have own : (plan.parameters[x.position]?.bind (·.countFor position x.count)) = some count := by
    rw [found, Option.bind_some, Parameter.countFor, role, packed]
    exact if_pos rfl
  cases result : plan.lastCount position inputs with
  | none =>
    rw [lastCount, List.findSome?_eq_none_iff] at result
    cases own.symm.trans (result x (List.mem_reverse.2 listed))
  | some last =>
    refine ⟨last, rfl, fun only => ?_⟩
    obtain ⟨y, member, eq⟩ := List.exists_of_findSome?_eq_some result
    obtain ⟨q, source, left⟩ := Option.bind_eq_some_iff.1 eq
    obtain ⟨linked, same⟩ := Parameter.of_countFor left
    cases only y (List.mem_reverse.1 member) q source linked
    exact Option.some.inj (same.symm.trans packed)

theorem lastCount_of_only {closure destroy : Option Nat}
    (found : plan.parameters[x.position]? = some p) (role : p.role = .callback closure destroy)
    (only : plan.OnlyLinked position x inputs) : plan.lastCount position inputs = none := by
  rw [lastCount, List.findSome?_eq_none_iff]
  intro y member
  rw [Option.eq_none_iff_forall_ne_some]
  intro count eq
  obtain ⟨q, source, left⟩ := Option.bind_eq_some_iff.1 eq
  cases only y (List.mem_reverse.1 member) q source (Parameter.of_countFor left).1
  cases found.symm.trans source
  rw [Parameter.countFor, role] at left
  cases left

theorem exists_lastToken {destroy : Option Nat} (listed : x ∈ inputs)
    (found : plan.parameters[x.position]? = some p)
    (role : p.role = .callback (some position) destroy) :
    ∃ token, plan.lastToken position inputs = some token ∧
      (plan.OnlyLinked position x inputs → destroy ≠ some position → token = x.slot) := by
  have own : (plan.parameters[x.position]?.bind (·.tokenFor position x.slot)).isSome = true := by
    rw [found, Option.bind_some, Parameter.tokenFor, role]
    dsimp only
    split
    · rfl
    · rw [if_pos rfl, Option.isSome_some]
  cases result : plan.lastToken position inputs with
  | none =>
    rw [lastToken, List.findSome?_eq_none_iff] at result
    rw [result x (List.mem_reverse.2 listed)] at own
    cases own
  | some token =>
    refine ⟨token, rfl, fun only apart => ?_⟩
    obtain ⟨y, member, eq⟩ := List.exists_of_findSome?_eq_some result
    obtain ⟨q, source, left⟩ := Option.bind_eq_some_iff.1 eq
    obtain ⟨linked, same⟩ := Parameter.of_tokenFor left
    cases only y (List.mem_reverse.1 member) q source linked
    cases found.symm.trans source
    rcases same with ⟨closure, role'⟩ | same
    · cases role.symm.trans role'
      exact absurd rfl apart
    · exact same

end Plan
end ForeignCall
