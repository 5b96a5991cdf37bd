import ForeignCall.Call.Frame
import ForeignCall.Conversion.Lift

/-!
The second half of a call: what becomes of its results.

When the native function returned, errors go before results: an exception of a callback before an
error of the function itself. Outputs that the script is not going to receive are released as if it
had received and dropped them.
-/

set_option autoImplicit false

namespace ForeignCall

namespace FrameM

/-- The present value of an argument: the content of its cell, or its slot. -/
def current (position : Nat) (p : Parameter) : FrameM Slot := do
  let f ← frame
  match f.cell? position with
  | some (.value cell) => touch (Heap.load cell p.type.slotSize)
  | some (.block block) => return .ofNat block
  | none => return f.slot position

def lengthAt (plan : Plan) (position : Nat) : FrameM (Option Nat) :=
  match plan.parameters[position]? with
  | none => pure none
  | some p => do return some (lengthValue p.type (← current position p))

def outputLength (plan : Plan) (p : Parameter) : FrameM (Option Nat) :=
  match p.role with
  | .array length => lengthAt plan length
  | _ => pure none

def returnLength (plan : Plan) : FrameM (Option Nat) :=
  match plan.returnLength with
  | some position => lengthAt plan position
  | none => pure none

def pushOutput (v : Value) : FrameM Unit :=
  modifyFrame fun f => { f with outputs := f.outputs ++ [v] }

def dropCell (position : Nat) : FrameM Unit :=
  modifyFrame fun f => { f with cells := f.cells.set position none }

def liftOutput (held : List Value) (d : Descriptor) (slot : Slot) (length : Option Nat)
    (copy : Bool) : FrameM Value := do
  let f ← frame
  convert (lift (f.outputs ++ held) d slot length copy)

def settleLifted (d : Descriptor) (slot : Slot) (transfer : Transfer) (length : Option Nat) :
    FrameM Unit :=
  convert (Memory.onHeap (freeLifted d slot transfer length))

def mayBeReceiver : Descriptor → Bool
  | .named .object _ _ | .named (.structured ..) _ _ => true
  | _ => false

/-- The receiver, when a method returned its address. -/
def returnedReceiver? (plan : Plan) (ret : Slot) (receiver : Option Value) : Option Value :=
  receiver.filter fun v =>
    plan.isMethod && mayBeReceiver plan.returnType && !ret.isNull
      && v.address? == some ret.toNat

def liftReturn (held : List Value) (plan : Plan) (ret : Slot) (receiver : Option Value) :
    FrameM Unit := do
  if !plan.skipReturn then
    let length ← returnLength plan
    match returnedReceiver? plan ret receiver with
    | some v => pushOutput v
    | none =>
      pushOutput
        (← liftOutput held plan.returnType ret length (plan.returnTransfer != .everything))
    settleLifted plan.returnType ret plan.returnTransfer length

/-- Lifts one output parameter. The wrapper of a struct takes over the block of the caller. -/
def liftParameter (held : List Value) (plan : Plan) (position : Nat) (p : Parameter) :
    FrameM Unit := do
  let length ← outputLength plan p
  match (← frame).cell? position with
  | some (.block block) =>
    pushOutput (← liftOutput held p.type.byReference (.ofNat block) none false)
    dropCell position
  | _ =>
    let slot ← current position p
    pushOutput (← liftOutput held p.type slot length (p.transfer != .everything))
    settleLifted p.type slot p.transfer length

def liftParameters (held : List Value) (plan : Plan) : List (Parameter × Nat) → FrameM Unit
  | [] => pure ()
  | (p, position) :: rest => do
    if p.isOutput then liftParameter held plan position p
    liftParameters held plan rest

def discardReturn (plan : Plan) (ret : Slot) : FrameM Unit := do
  if !plan.skipReturn then
    let length ← returnLength plan
    convert (Memory.onHeap (freeValue plan.returnType ret plan.returnTransfer .output length))

def discardParameter (plan : Plan) (position : Nat) (p : Parameter) : FrameM Unit := do
  match (← frame).cell? position with
  | some (.block block) =>
    dropCell position
    touch (Heap.free block)
  | some (.value _) =>
    let length ← outputLength plan p
    let slot ← current position p
    convert (Memory.onHeap (freeValue p.type slot p.transfer .output length))
  | none => pure ()

def discardParameters (plan : Plan) : Nat → List (Parameter × Nat) → FrameM Unit
  | _, [] => pure ()
  | lifted, (p, position) :: rest =>
    if !p.isOutput then discardParameters plan lifted rest
    else
      match lifted with
      | lifted + 1 => discardParameters plan lifted rest
      | 0 => do
        discardParameter plan position p
        discardParameters plan 0 rest

/-- Releases the outputs after the first `lifted` ones, the return value being the first of all. -/
def discardOutputs (plan : Plan) (ret : Slot) (lifted : Nat) : FrameM Unit := do
  if lifted = 0 then discardReturn plan ret
  let lifted := if plan.skipReturn then lifted else lifted - 1
  discardParameters plan lifted plan.parameters.zipIdx

def resultOf : List Value → Value
  | [] => .undefined
  | [v] => v
  | vs => .array vs

/-- Lifts all outputs. If one fails, those that the script never received are released. -/
def assemble (held : List Value) (plan : Plan) (ret : Slot) (receiver : Option Value) :
    FrameM Value := do
  let lifted : Except CallError Unit ← Action.attempt do
    liftReturn held plan ret receiver
    liftParameters held plan plan.parameters.zipIdx
  let outputs := (← frame).outputs
  match lifted with
  | .ok () => return resultOf outputs
  | .error e =>
    let _ : Except CallError Unit ← Action.attempt (discardOutputs plan ret outputs.length)
    Action.fail e

def drainErrorCell : FrameM (Option ErrorRecord) := do
  match (← frame).errorCell with
  | none => return none
  | some cell =>
    let address ← touch (Heap.loadPointer cell)
    if address = 0 then return none
    let record ← touch (Heap.readError address)
    touch (Heap.freeError address)
    return some record

/-- What a call gives after its native function returned. The error cell is emptied first, so that
an exception of a callback does not strand an error of the function. -/
def settle (held : List Value) (plan : Plan) (ret : Slot) (receiver : Option Value) :
    FrameM Value := do
  let record ← drainErrorCell
  match ← onMemory Memory.takePending with
  | some e =>
    discardOutputs plan ret 0
    Action.fail e
  | none =>
    match record with
    | some record =>
      discardOutputs plan ret 0
      Action.fail (.native record)
    | none => assemble held plan ret receiver

def keepFirst (first : Except CallError Unit) (step : FrameM Unit) :
    FrameM (Except CallError Unit) := do
  let second ← Action.attempt step
  return match first with
    | .ok () => second
    | .error e => .error e

def tryAll (first : Except CallError Unit) : List (FrameM Unit) → FrameM (Except CallError Unit)
  | [] => pure first
  | step :: rest => do tryAll (← keepFirst first step) rest

def releaseInput (plan : Plan) (input : Lowered) : FrameM Unit :=
  match plan.parameters[input.position]? with
  | some p => convert (Memory.onHeap (freeValue p.type input.slot p.transfer .input input.count))
  | none => pure ()

/-- Releases what the call made for itself: inputs that the callee did not take, cells, the error
cell, and the trampolines that end with the call. Everything is tried, and the first error is the
one reported. -/
def releaseAll (plan : Plan) : FrameM Unit := do
  let f ← frame
  let first ← tryAll (.ok ()) (f.inputs.map (releaseInput plan))
  let first ← tryAll first (f.cells.filterMap id |>.map fun c => touch (Heap.free c.address))
  let first ← tryAll first (f.errorCell.toList.map fun cell => touch (Heap.free cell))
  let first ← tryAll first (f.callScoped.map fun address => do
    let _ ← convert (releaseTrampoline address))
  Action.ofExcept first

end FrameM

end ForeignCall
