import ForeignCall.Plan
import ForeignCall.Slot
import ForeignCall.Value

/-!
Trampolines: script functions behind native function pointers.

A script function that native code is to call is registered under an address of its own, far above
anything the heap hands out. The address is also the token that native code gives back as user
data, and a destroy notification releases by it. Addresses are counted up and never used again.
-/

set_option autoImplicit false

namespace ForeignCall

inductive Release where
  | afterCall
  | afterFirstInvocation
  | onDestroyNotify
  | never
  deriving DecidableEq, Repr, Inhabited

inductive UnscopedPolicy where
  | pin
  | releaseAfterFirstCall
  deriving DecidableEq, Repr, Inhabited

/-- The release point of a callback argument. A destroy notifier goes before any scope; a callback
without a release point of its own follows the policy, and so does one of scope `notified` that has
no notifier. -/
def releaseFor (destroy : Option Nat) (scope : Option Scope) (policy : UnscopedPolicy) : Release :=
  if destroy.isSome then .onDestroyNotify
  else
    match scope with
    | some .call => .afterCall
    | some .async => .afterFirstInvocation
    | some .forever => .never
    | some .notified | none =>
      match policy with
      | .pin => .never
      | .releaseAfterFirstCall => .afterFirstInvocation

structure Trampoline where
  function : FunctionId
  plan : Plan
  release : Release
  invocations : Nat := 0
  retained : List Slot := []
  deriving Repr

namespace TrampolineTable

def base : Nat := 0x7f0000000000

def stride : Nat := 16

/-- Address passed as the destroy notifier of every callback. -/
def destroyNotifyAddress : Nat := 0x7effffff0000

def addressOf (n : Nat) : Nat := base + n * stride

end TrampolineTable

structure TrampolineTable where
  next : Nat
  entries : Std.TreeMap Nat Trampoline
  numbered : ∀ a : Nat, a ∈ entries → ∃ n < next, a = TrampolineTable.addressOf n

namespace TrampolineTable

def empty : TrampolineTable := ⟨0, ∅, by simp⟩

def register (t : TrampolineTable) (function : FunctionId) (plan : Plan) (release : Release) :
    Nat × TrampolineTable :=
  let address := addressOf t.next
  (address,
    { next := t.next + 1
      entries := t.entries.insert address { function, plan, release }
      numbered := by
        intro a listed
        rcases Std.TreeMap.mem_insert.1 listed with same | old
        · exact ⟨t.next, Nat.lt_succ_self _, (Std.LawfulEqCmp.eq_of_compare same).symm⟩
        · obtain ⟨n, below, rfl⟩ := t.numbered a old
          exact ⟨n, Nat.lt_succ_of_lt below, rfl⟩ })

def get? (t : TrampolineTable) (address : Nat) : Option Trampoline := t.entries[address]?

def contains (t : TrampolineTable) (address : Nat) : Bool := t.entries.contains address

def remove (t : TrampolineTable) (address : Nat) : TrampolineTable :=
  { t with
    entries := t.entries.erase address
    numbered := fun a listed => t.numbered a (Std.TreeMap.mem_of_mem_erase listed) }

def count (t : TrampolineTable) : Nat := t.entries.size

def isEmpty (t : TrampolineTable) : Bool := t.entries.isEmpty

def update (t : TrampolineTable) (address : Nat) (f : Trampoline → Trampoline) : TrampolineTable :=
  match found : t.get? address with
  | some trampoline =>
    { t with
      entries := t.entries.insert address (f trampoline)
      numbered := by
        intro a listed
        rcases Std.TreeMap.mem_insert.1 listed with same | old
        · obtain rfl := Std.LawfulEqCmp.eq_of_compare same
          refine t.numbered _ (Std.TreeMap.mem_iff_isSome_getElem?.2 ?_)
          simp only [get?] at found
          simp [found]
        · exact t.numbered a old }
  | none => t

def retain (t : TrampolineTable) (address : Nat) (slot : Slot) : TrampolineTable :=
  t.update address fun trampoline => { trampoline with retained := trampoline.retained ++ [slot] }

def recordInvocation (t : TrampolineTable) (address : Nat) : TrampolineTable :=
  t.update address fun trampoline => { trampoline with invocations := trampoline.invocations + 1 }

def isSpent (t : TrampolineTable) (address : Nat) : Bool :=
  (t.get? address).any (·.release == .afterFirstInvocation)

end TrampolineTable

end ForeignCall
