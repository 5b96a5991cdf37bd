import ForeignCall.Proofs.Call.Moments
import ForeignCall.Proofs.Call.Progress

/-!
What holds of everything that is run.

A property of watched actions that steps have of which nothing is seen, and that carries over to what
is composed of actions that have it, holds of the programs on both sides, whatever they ask for. If
it holds of the invocation of a function pointer and of a call whenever it holds of what they run,
then it holds of every run.
-/

set_option autoImplicit false

namespace ForeignCall

open ForeignCall.Action

namespace Watched

variable {σ : Type}

/-- The silent steps within `R` have the property, and what is composed of actions that have it. -/
structure Closed (R : Memory → Memory → Prop) (Good : ∀ α : Type, Watched σ α → Prop) : Prop where
  quiet : Quiet R
  pending : ∀ m pending, R m { m with pending := pending }
  entered : ∀ m symbol slots, R m { m with journal := m.journal.push (.native symbol slots) }
  noted : ∀ m n, R m { m with journal := m.journal.push (.note n) }
  silent : ∀ {α : Type} {x : SessionM σ α}, x.Within R → Good α (silent x)
  attempt : ∀ {α : Type} {x : Watched σ α}, Good α x → Good _ (attempt x)
  bind : ∀ {α β : Type} {x : Watched σ α} {f : α → Watched σ β}, Good α x → (∀ a, Good β (f a)) →
    Good β (x >>= f)

namespace Closed

variable {R : Memory → Memory → Prop} {Good : ∀ α : Type, Watched σ α → Prop} {α : Type}
  (closed : Closed R Good)

include closed

theorem pure (a : α) : Good α (Pure.pure a) := closed.silent (within_pure closed.quiet a)

theorem fail (e : CallError) : Good α (Watched.silent (Action.fail e)) :=
  closed.silent (within_fail closed.quiet e)

theorem raise (e : CallError) : Good Unit (Watched.silent (Session.onMemory (Memory.raise e))) :=
  closed.silent (Session.within_onMemory (within_modify fun m => closed.pending m _))

theorem native {callback : Nat → List Slot → Watched σ Slot}
    (calls : ∀ address slots, Good Slot (callback address slots)) (n : Native σ) :
    Good Slot (Watched.native callback n) := by
  have quiet := closed.quiet
  induction n with
  | ret slot => exact closed.pure slot
  | fault f => exact closed.fail _
  | heap op next ih =>
    refine closed.bind (closed.silent ?_) fun answer => ih answer
    exact Session.within_onMemory (within_onHeap quiet _)
  | callback function slots next ih =>
    rw [Watched.native]
    refine closed.bind (closed.attempt (calls _ _)) fun answer => ?_
    split
    · exact ih _
    · exact closed.bind (closed.raise _) fun _ => ih _
  | raise e next ih => exact closed.bind (closed.raise e) fun _ => ih
  | note n next ih =>
    refine closed.bind (closed.silent ?_) fun _ => ih
    exact Session.within_onMemory (within_record fun m => closed.noted m n)
  | read next ih => exact closed.bind (closed.silent (within_get quiet)) fun s => ih s.host
  | write state next ih =>
    exact closed.bind (closed.silent (within_modify fun s => quiet.refl s.memory)) fun _ => ih

theorem script {call : List Value → String → Option Value → List Value → Watched σ Value}
    (calls : ∀ held name receiver arguments, Good Value (call held name receiver arguments))
    (held : List Value) (s : Script σ) : Good Value (Watched.script call held s) := by
  have quiet := closed.quiet
  induction s generalizing held with
  | ret v => exact closed.pure v
  | throw e => exact closed.fail e
  | call name receiver arguments next ih =>
    exact closed.bind (closed.attempt (calls _ _ _ _)) fun answer => ih answer _
  | wrap address typeName adopts next ih =>
    refine closed.bind (closed.silent ?_) fun w => ih w _
    exact Session.within_onMemory (within_freshWrapper quiet _ _ _)
  | read next ih => exact closed.bind (closed.silent (within_get quiet)) fun s => ih s.host held
  | write state next ih =>
    exact closed.bind (closed.silent (within_modify fun s => quiet.refl s.memory)) fun _ => ih held

variable {w : World σ}

theorem enter {callback : Nat → List Slot → Watched σ Slot}
    (calls : ∀ address slots, Good Slot (callback address slots)) (symbol : String)
    (slots : List Slot) : Good Slot (Watched.enter w callback symbol slots) := by
  refine closed.bind (closed.silent ?_) fun _ => ?_
  · exact Session.within_onMemory (within_record fun m => closed.entered m symbol slots)
  split
  · exact closed.native calls _
  · exact closed.fail _

/-- The part of a call between the lowering of its arguments and its end. -/
theorem carry {callback : Nat → List Slot → Watched σ Slot}
    (calls : ∀ address slots, Good Slot (callback address slots)) (held : List Value)
    (symbol : String) (plan : Plan) (receiver : Option Value) (frame : Frame)
    (lowered : Except CallError (List Slot)) :
    Good _ (Watched.carry w callback held symbol plan receiver frame lowered) := by
  cases lowered with
  | error e => exact closed.pure _
  | ok slots =>
    refine closed.bind (closed.attempt (closed.enter calls symbol slots)) fun ret => ?_
    cases ret with
    | error e => exact closed.pure _
    | ok ret =>
      refine closed.bind (closed.silent (Session.within_heldNow closed.quiet w held)) fun around => ?_
      exact closed.silent (Session.within_frame
        (FrameM.within_settle closed.quiet closed.pending around plan ret receiver))

variable
  (enters : ∀ runScript : List Value → Script σ → Watched σ Value,
    (∀ held s, Good Value (runScript held s)) → ∀ held address slots,
      Good Slot (enterCallback w runScript held address slots))
  (invokes : ∀ callback : Nat → List Slot → Watched σ Slot,
    (∀ address slots, Good Slot (callback address slots)) → ∀ held name receiver arguments,
      Good Value (invoke w callback held name receiver arguments))

include enters invokes

theorem callNested (depth : Nat) (held : List Value) (name : String) (receiver : Option Value)
    (arguments : List Value) : Good Value (Watched.callNested w depth held name receiver arguments) := by
  induction depth generalizing held name receiver arguments with
  | zero => exact closed.silent within_endless
  | succ depth ih =>
    refine invokes _ (fun address slots => ?_) held name receiver arguments
    exact enters _ (fun held s => closed.script ih held s) held address slots

theorem play (depth : Nat) (activities : List (Activity σ)) :
    Good Unit (Watched.play w depth activities) := by
  have scripts := closed.script (closed.callNested enters invokes depth)
  induction activities with
  | nil => exact closed.pure _
  | cons turn rest ih =>
    cases turn with
    | script held s => exact closed.bind (closed.attempt (scripts held s)) fun _ => ih
    | native held n =>
      refine closed.bind (closed.attempt (closed.native (fun address slots => ?_) n)) fun _ => ih
      exact enters _ scripts held address slots

end Closed

end Watched

end ForeignCall
