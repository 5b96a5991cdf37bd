import ForeignCall.Call.Frame

/-!
The first half of a call: checking the script arguments and filling the native slots.

Visible parameters are filled first and in order, each input taking the next script argument. The
hidden ones follow, from the counts and tokens that the visible ones left for them.
-/

set_option autoImplicit false

namespace ForeignCall

/-- Pairs the inputs of a plan with script arguments, in order. An argument that is missing counts
as undefined. -/
def pairInputs : List Parameter → List Value → List (Parameter × Value)
  | [], _ => []
  | p :: rest, arguments => (p, arguments.headD .undefined) :: pairInputs rest arguments.tail

def firstMismatch (r : Repository) : List (Parameter × Value) → Except CallError Unit
  | [] => .ok ()
  | (p, v) :: rest =>
    if canConvert r p.type v p.nullable then firstMismatch r rest
    else .error (.typeMismatch p.name p.typeName v.describe)

/-- Whether a plan accepts script arguments: there are enough of them, and each fits. Arguments
beyond the inputs are ignored. -/
def checkArguments (r : Repository) (plan : Plan) (arguments : List Value) :
    Except CallError Unit :=
  if arguments.length < plan.requiredCount then
    .error (.arity plan.requiredCount arguments.length)
  else firstMismatch r (pairInputs plan.inputs arguments)

namespace FrameM

/-- Puts a lowered value into its native slot. An inout value goes into a cell of its own, and the
slot gets the address of the cell. -/
def setSlot (position : Nat) (p : Parameter) (slot : Slot) : FrameM Unit :=
  if p.direction = .inout then do
    let cell ← touch (Heap.alloc 8 8)
    touch (Heap.store cell p.type.slotSize slot)
    modifyFrame fun f =>
      { f with
        slots := f.slots.set position (.ofNat cell)
        cells := f.cells.set position (some (.value cell)) }
  else modifyFrame fun f => { f with slots := f.slots.set position slot }

def allocCell (p : Parameter) : FrameM Cell :=
  match p.type, p.callerAllocates with
  | .named (.structured (some size) _) _ _, true => do
    return .block (← touch (Heap.alloc size 8))
  | _, _ => do return .value (← touch (Heap.alloc 8 8))

def setOutput (position : Nat) (p : Parameter) : FrameM Unit := do
  let cell ← allocCell p
  modifyFrame fun f =>
    { f with
      slots := f.slots.set position (.ofNat cell.address)
      cells := f.cells.set position (some cell) }

def lowerCallbackInput (env : Environment) (p : Parameter) (closure destroy : Option Nat)
    (v : Value) : FrameM Slot := do
  let release := releaseFor destroy p.scope env.policy
  let slot ← convert (lowerCallback env p.type v p.nullable release)
  let notifier :=
    if slot.isNull then .null else Slot.ofNat TrampolineTable.destroyNotifyAddress
  modifyFrame fun f =>
    { f with
      callScoped :=
        if !slot.isNull && release == .afterCall then f.callScoped ++ [slot.toNat]
        else f.callScoped
      tokens :=
        destroy.toList.map (·, notifier) ++ closure.toList.map (·, slot) ++ f.tokens }
  return slot

def lowerArrayInput (env : Environment) (p : Parameter) (v : Value) : FrameM (Slot × Nat) := do
  let (slot, count) ← convert (lowerArray env p.type v p.nullable)
  match p.role with
  | .array length => modifyFrame fun f => { f with counts := (length, count) :: f.counts }
  | _ => pure ()
  return (slot, count)

def lowerInput (env : Environment) (p : Parameter) (v : Value) : FrameM (Slot × Option Nat) :=
  match p.role, p.type with
  | .callback closure destroy, _ => do
    return (← lowerCallbackInput env p closure destroy v, none)
  | _, .array .. => do
    let (slot, count) ← lowerArrayInput env p v
    return (slot, some count)
  | _, _ => do return (← convert (lower env p.type v p.nullable), none)

def fillVisible (env : Environment) : List (Parameter × Nat) → List Value → FrameM Unit
  | [], _ => pure ()
  | (p, position) :: rest, arguments =>
    if !p.isVisible then fillVisible env rest arguments
    else if p.direction = .output then do
      setOutput position p
      fillVisible env rest arguments
    else do
      let (slot, count) ← lowerInput env p (arguments.headD .undefined)
      modifyFrame fun f => { f with inputs := f.inputs ++ [⟨position, slot, count⟩] }
      setSlot position p slot
      fillVisible env rest arguments.tail

/-- The slot of a hidden input: the count of its array, a token, or zero. -/
def hiddenSlot (env : Environment) (position : Nat) (p : Parameter) : FrameM Slot := do
  let f ← frame
  match f.counts.lookup position with
  | some count => convert (lower env p.type (.number (.ofNat count)) false)
  | none => return (f.tokens.lookup position).getD .null

def fillHidden (env : Environment) : List (Parameter × Nat) → FrameM Unit
  | [] => pure ()
  | (p, position) :: rest => do
    if !p.isVisible then
      if p.direction = .output then setOutput position p
      else setSlot position p (← hiddenSlot env position p)
    fillHidden env rest

def allocErrorCell (plan : Plan) : FrameM Unit := do
  if plan.canThrow then
    let cell ← touch (Heap.alloc 8 8)
    modifyFrame fun f => { f with errorCell := some cell }

def nativeSlots (env : Environment) (plan : Plan) (receiver : Option Nat)
    (arguments : List Value) : FrameM (List Slot) := do
  fillVisible env plan.parameters.zipIdx arguments
  fillHidden env plan.parameters.zipIdx
  allocErrorCell plan
  let f ← frame
  return receiver.toList.map .ofNat ++ f.slots ++ f.errorCell.toList.map .ofNat

end FrameM

end ForeignCall
