import ForeignCall.Call.Session
import ForeignCall.Conversion.Lift

/-!
Callbacks: native code entering a script function by the address of its trampoline.

The script sees the visible parameters of the callback's plan only, neither user data nor lengths. A
string or container that is given back without being transferred stays allocated until the trampoline
is released, and for good if that happened in this very call, since native code still reads it.
-/

set_option autoImplicit false

namespace ForeignCall

variable {σ : Type}

def returnHoldsMemory (plan : Plan) : Bool :=
  plan.returnTransfer != .everything &&
    match plan.returnType with
    | .basic (.string _) _ | .array .. | .list .. => true
    | .named (.structured ..) _ _ => plan.returnType.isInlineStruct
    | _ => false

def passedLength (plan : Plan) (slots : List Slot) (p : Parameter) : Option Nat :=
  match p.role with
  | .array length =>
    plan.parameters[length]?.map fun q => lengthValue q.type (slots.getD length .null)
  | _ => none

/-- Lifts the visible arguments of a callback in order; what is lifted already counts as held. -/
def liftArguments (plan : Plan) (slots : List Slot) (held : List Value) :
    List (Parameter × Nat) → ConversionM (List Value)
  | [] => pure []
  | (p, position) :: rest =>
    if !p.isVisible then liftArguments plan slots held rest
    else if p.direction.isOut then
      Action.fail (.unsupported s!"out argument {p.name} of callback {plan.name}")
    else do
      let v ←
        lift held p.type (slots.getD position .null) (passedLength plan slots p)
          (p.transfer != .everything)
      let vs ← liftArguments plan slots (v :: held) rest
      return v :: vs

/-- Counts the invocation of a trampoline that just ended, and releases it if it was the last. -/
def endInvocation (address : Nat) : ConversionM Unit := do
  let spent := (← get).trampolines.isSpent address
  modify fun m => { m with trampolines := m.trampolines.recordInvocation address }
  if spent then
    let _ ← releaseTrampoline address

def lowerResult (env : Environment) (plan : Plan) (address : Nat) (v : Value) :
    ConversionM Slot := do
  if plan.skipReturn then return .null
  let slot ← lower env plan.returnType v plan.mayReturnNull
  if !slot.isNull && returnHoldsMemory plan then
    modify fun m => { m with trampolines := m.trampolines.retain address slot }
  return slot

def callTrampoline (w : World σ) (runScript : List Value → Script σ → SessionM σ Value)
    (held : List Value) (address : Nat) (t : Trampoline) (slots : List Slot) : SessionM σ Slot := do
  let around ← Session.heldNow w held
  let arguments ← Session.convert (liftArguments t.plan slots around t.plan.parameters.zipIdx)
  Session.onMemory (Memory.record (.script t.function arguments))
  let result : Except CallError Value ←
    Action.attempt (runScript (arguments ++ held) (w.script t.function arguments))
  Session.convert (endInvocation address)
  let v ← Action.ofExcept result
  Session.convert (lowerResult w.environment t.plan address v)

/-- Enters the function pointer `address` from native code. The destroy notifier releases the
trampoline whose token is the first argument. -/
def enterCallback (w : World σ) (runScript : List Value → Script σ → SessionM σ Value)
    (held : List Value) (address : Nat) (slots : List Slot) : SessionM σ Slot := do
  if address = TrampolineTable.destroyNotifyAddress then
    let _ ← Session.convert (releaseTrampoline (slots.headD .null).toNat)
    return .null
  match (← get).memory.trampolines.get? address with
  | none => Action.fail (.conversion (.unknownTrampoline address))
  | some t => callTrampoline w runScript held address t slots

end ForeignCall
