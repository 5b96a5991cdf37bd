import ForeignCall.Call.Program
import ForeignCall.Conversion.Lower

/-!
Sessions: the state in which calls run, and how programs run in it.
-/

set_option autoImplicit false

namespace ForeignCall

structure World (σ : Type) where
  environment : Environment
  library : String → Option (List Slot → Native σ)
  script : FunctionId → List Value → Script σ
  /-- The values the host holds, apart from those of running functions. -/
  kept : σ → List Value

structure Binding where
  callable : CallableRecord
  prepared : Option (Except PlanFault Plan) := none

structure Session (σ : Type) where
  memory : Memory
  bindings : Std.TreeMap String Binding
  host : σ

abbrev SessionM (σ α : Type) := Action CallError (Session σ) α

namespace Session

variable {σ ε α : Type}

def start (host : σ) : Session σ := ⟨.empty, ∅, host⟩

def onMemory (x : MemoryM ε α) : Action ε (Session σ) α := fun
  | ⟨memory, bindings, host⟩ =>
    match x memory with
    | .ok a memory => .ok a ⟨memory, bindings, host⟩
    | .error e memory => .error e ⟨memory, bindings, host⟩

def convert (x : ConversionM α) : SessionM σ α :=
  onMemory (Action.mapError .conversion x)

def heldNow (w : World σ) (held : List Value) : SessionM σ (List Value) := do
  return held ++ w.kept (← get).host

end Session

variable {σ : Type}

/-- Runs native code. A callback that fails leaves its error pending and gives zero. -/
def Native.run (callback : Nat → List Slot → SessionM σ Slot) : Native σ → SessionM σ Slot
  | .ret slot => pure slot
  | .fault f => Action.fail (.heap f)
  | .heap op next => do
    let answer : Except HeapFault op.Answer ←
      Session.onMemory (Memory.onHeap (Action.attempt op.run))
    (next answer).run callback
  | .callback function slots next => do
    let answer : Except CallError Slot ← Action.attempt (callback function.toNat slots)
    match answer with
    | .ok slot => (next slot).run callback
    | .error e =>
      Session.onMemory (Memory.raise e)
      (next .null).run callback
  | .raise e next => do
    Session.onMemory (Memory.raise e)
    next.run callback
  | .note n next => do
    Session.onMemory (Memory.record (.note n))
    next.run callback
  | .read next => do (next (← get).host).run callback
  | .write state next => do
    modify fun s => { s with host := state }
    next.run callback

/-- Runs a script function, which holds the values it has seen until it ends. -/
def Script.run
    (call : List Value → String → Option Value → List Value → SessionM σ Value)
    (held : List Value) : Script σ → SessionM σ Value
  | .ret v => pure v
  | .throw e => Action.fail e
  | .call name receiver arguments next => do
    let answer : Except CallError Value ←
      Action.attempt (call (receiver.toList ++ arguments ++ held) name receiver arguments)
    (next answer).run call (receiver.toList ++ arguments ++ answer.toOption.toList ++ held)
  | .wrap address typeName adopts next => do
    let w ← Session.onMemory (Memory.freshWrapper address typeName adopts)
    (next w).run call (.object w :: held)
  | .read next => do (next (← get).host).run call held
  | .write state next => do
    modify fun s => { s with host := state }
    next.run call held

end ForeignCall
