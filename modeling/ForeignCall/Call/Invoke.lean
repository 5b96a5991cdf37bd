import ForeignCall.Call.Arguments
import ForeignCall.Call.Callback
import ForeignCall.Call.Outputs
import ForeignCall.Text.Quoted

/-!
Invocation: binding a callable, preparing it, and calling it.

A callable is bound once by the name it was asked for and prepared on its first use; the outcome of
preparing it, success or failure, stays. Calls, callbacks and the calls that these make nest to a
depth that is given; a deeper nesting does not end.
-/

set_option autoImplicit false

namespace ForeignCall

variable {σ : Type}

inductive BindingState where
  | uninitialized | ready | failed
  deriving DecidableEq, Repr

def Binding.state (b : Binding) : BindingState :=
  match b.prepared with
  | none => .uninitialized
  | some (.ok _) => .ready
  | some (.error _) => .failed

def BindingState.word : BindingState → String
  | .uninitialized => "Uninitialized"
  | .ready => "Ready"
  | .failed => "Failed"

def Binding.debugText (b : Binding) : String :=
  "CallableDescriptor \x7b callable: " ++ quoted b.callable.qualifiedName ++ ", state: "
    ++ b.state.word ++ " \x7d"

namespace Session

def prepareCallable (w : World σ) (c : CallableRecord) : Except PlanFault Plan := do
  let plan ← Plan.derive w.environment.repository c
  match w.library c.symbolName with
  | some _ => return plan
  | none => .error (.symbolNotFound plan.name c.symbolName)

def bind (w : World σ) (name : String) : SessionM σ Binding := do
  match (← get).bindings[name]? with
  | some b => return b
  | none =>
    match w.environment.repository.callable? name with
    | none => Action.fail (.notFound name)
    | some c =>
      let b : Binding := { callable := c }
      modify fun s => { s with bindings := s.bindings.insert name b }
      return b

def prepare (w : World σ) (name : String) (b : Binding) : SessionM σ Plan := do
  let outcome := b.prepared.getD (prepareCallable w b.callable)
  modify fun s => { s with bindings := s.bindings.insert name { b with prepared := some outcome } }
  Action.ofExcept (outcome.mapError .plan)

def planOf (w : World σ) (name : String) : SessionM σ Plan := do
  prepare w name (← bind w name)

/-- Binds a callable and checks script arguments against it; native memory is not touched. -/
def check (w : World σ) (name : String) (arguments : List Value) : SessionM σ Unit := do
  let plan ← planOf w name
  Action.ofExcept (checkArguments w.environment.repository plan arguments)

/-- Binds every function of a namespace by its name and every method as `Type_method`. -/
def bindNamespace (w : World σ) (ns : String) : SessionM σ (Std.TreeMap String Binding) := do
  let r := w.environment.repository
  if !r.namespaceNames.contains ns then Action.fail (.notFound ns)
  let functions := (r.functions ns).map fun c => (c.name, c.qualifiedName)
  let methods := (r.entries ns).flatMap fun e =>
    e.methods.map fun m => (e.name ++ "_" ++ m.name, m.qualifiedName)
  (functions ++ methods).foldlM (fun bound (key, name) => do
    return bound.insert key (← bind w name)) ∅

def receiverAddress (plan : Plan) (receiver : Option Value) :
    Except CallError (Option Nat) :=
  if plan.isMethod then
    match receiver.bind (·.address?) with
    | some address => .ok (some address)
    | none => .error (.missingReceiver plan.name)
  else .ok none

def enter (w : World σ) (callback : Nat → List Slot → SessionM σ Slot) (symbol : String)
    (slots : List Slot) : SessionM σ Slot := do
  onMemory (Memory.record (.native symbol slots))
  match w.library symbol with
  | some function => (function slots).run callback
  | none => Action.fail (.plan (.symbolNotFound symbol symbol))

def execute (w : World σ) (callback : Nat → List Slot → SessionM σ Slot) (held : List Value)
    (symbol : String) (plan : Plan) (receiver : Option Value) (address : Option Nat)
    (arguments : List Value) : SessionM σ (Except CallError Value × Frame) := do
  let (slots, frame) ←
    within (.start plan.parameters.length)
      (FrameM.nativeSlots w.environment plan address arguments)
  match slots with
  | .error e => return (.error e, frame)
  | .ok slots =>
    let ret : Except CallError Slot ← Action.attempt (enter w callback symbol slots)
    match ret with
    | .error e => return (.error e, frame)
    | .ok ret =>
      let around ← heldNow w held
      within frame (FrameM.settle around plan ret receiver)

/-- Calls a bound callable. The scratch memory of the call is released on every path; an error of
the call itself goes before one of the release. -/
def invoke (w : World σ) (callback : Nat → List Slot → SessionM σ Slot) (held : List Value)
    (name : String) (receiver : Option Value) (arguments : List Value) : SessionM σ Value := do
  let b ← bind w name
  let plan ← prepare w name b
  Action.ofExcept (checkArguments w.environment.repository plan arguments)
  let address ← Action.ofExcept (receiverAddress plan receiver)
  let (outcome, frame) ←
    execute w callback held b.callable.symbolName plan receiver address arguments
  let (released, _) ← within frame (FrameM.releaseAll plan)
  let v ← Action.ofExcept outcome
  Action.ofExcept released
  return v

/-- Calls a callable by its qualified name, with calls nested up to a depth. The values in `held`
and those the host keeps count as held by the script. -/
def callNested (w : World σ) :
    Nat → List Value → String → Option Value → List Value → SessionM σ Value
  | 0, _, _, _, _ => Action.endless
  | depth + 1, held, name, receiver, arguments =>
    invoke w (enterCallback w (fun held s => s.run (callNested w depth) held) held) held name
      receiver arguments

def runScript (w : World σ) (depth : Nat) (held : List Value) (s : Script σ) : SessionM σ Value :=
  s.run (callNested w depth) held

def callback (w : World σ) (depth : Nat) (held : List Value) (address : Nat)
    (slots : List Slot) : SessionM σ Slot :=
  enterCallback w (runScript w depth) held address slots

def runNative (w : World σ) (depth : Nat) (held : List Value) (n : Native σ) : SessionM σ Slot :=
  n.run (callback w depth held)

def call (w : World σ) (depth : Nat) (name : String) (receiver : Option Value)
    (arguments : List Value) : SessionM σ Value :=
  callNested w depth (receiver.toList ++ arguments) name receiver arguments

/-- Wraps a native address as a script object, with the wrapper it already has if it is held. -/
def wrapPointer (w : World σ) (address : Nat) (typeName : String) (adopts : Bool) :
    SessionM σ Value := do
  if address = 0 then return .null
  let held ← heldNow w []
  return .object (← onMemory (Memory.wrap held address typeName adopts))

def releaseValue (v : Value) : SessionM σ Unit :=
  match v with
  | .object w => onMemory (Memory.releaseWrapper w)
  | _ => pure ()

end Session

end ForeignCall
