import ForeignCall.Descriptor

/-!
Call plans: which of a callable's native arguments the script sees.

One script argument can stand for several native ones, an array for its length and a callback for
its user data and its destroy notifier. A plan records the role of every declared argument, so that
nothing has to work out the links again.
-/

set_option autoImplicit false

namespace ForeignCall

inductive PlanFault where
  | unsupportedCallableShape (callable : String)
  | type (callable : String) (fault : TypeFault)
  | danglingIndex (callable argument : String) (index : Nat)
  | symbolNotFound (callable symbol : String)
  deriving DecidableEq, Repr

def PlanFault.message : PlanFault → String
  | .unsupportedCallableShape callable =>
    s!"Function {callable} has a GDestroyNotify but no user_data, not supported"
  | .type callable fault => s!"Function {callable}: {fault.message}"
  | .danglingIndex callable argument index =>
    s!"Function {callable}: argument {argument} refers to argument {index}, which does not exist"
  | .symbolNotFound callable symbol => s!"Symbol {symbol} for {callable} not found"

inductive Role where
  | normal
  | array (length : Nat)
  /-- Not visible to the script: filled in from another argument. -/
  | skip
  | callback (closure destroy : Option Nat)
  deriving DecidableEq, Repr, Inhabited

structure Parameter where
  name : String
  role : Role
  direction : Direction
  transfer : Transfer
  nullable : Bool
  callerAllocates : Bool
  scope : Option Scope
  type : Descriptor
  deriving DecidableEq, Repr, Inhabited

namespace Parameter

def isVisible (p : Parameter) : Bool := p.role != .skip

def isInput (p : Parameter) : Bool := p.isVisible && p.direction.isIn

def isOutput (p : Parameter) : Bool := p.isVisible && p.direction.isOut

def typeName (p : Parameter) : String := p.type.displayName

end Parameter

structure Plan where
  name : String
  parameters : List Parameter
  returnType : Descriptor
  returnTransfer : Transfer
  mayReturnNull : Bool
  returnLength : Option Nat
  skipReturn : Bool
  isMethod : Bool
  canThrow : Bool
  deriving DecidableEq, Repr, Inhabited

namespace Plan

def inputs (p : Plan) : List Parameter := p.parameters.filter (·.isInput)

def outputs (p : Plan) : List Parameter := p.parameters.filter (·.isOutput)

def requiredCount (p : Plan) : Nat := (p.inputs.filter (!·.nullable)).length

/-- How many values a call gives: the return value unless it is skipped, and the outputs. -/
def outputCount (p : Plan) : Nat := p.outputs.length + (if p.skipReturn then 0 else 1)

def slotCount (p : Plan) : Nat :=
  p.parameters.length + (if p.isMethod then 1 else 0) + (if p.canThrow then 1 else 0)

/-- A declared argument with the role its own type gives it, and the positions it absorbs. -/
structure Claimed where
  parameter : Parameter
  absorbed : List Nat

def checkIndex (callable : String) (count : Nat) (argument : String) (index : Nat) :
    Except PlanFault Nat :=
  if index < count then .ok index else .error (.danglingIndex callable argument index)

def checkLink (callable : String) (count : Nat) (argument : String) (link : Option Nat) :
    Except PlanFault (Option Nat) :=
  match link with
  | none => .ok none
  | some index => do return some (← checkIndex callable count argument index)

def claim (callable : String) (count position : Nat) (a : ArgumentRecord) (type : Descriptor) :
    Except PlanFault Claimed :=
  let withRole (role : Role) (absorbed : List Nat) : Claimed :=
    ⟨⟨a.name, role, a.direction, a.transfer, a.nullable, a.callerAllocates, a.scope, type⟩,
      absorbed⟩
  match type with
  | .array _ (.parameter length) _ _ => do
    let length ← checkIndex callable count a.name length
    return withRole (.array length) [length]
  | .named .callback name _ =>
    if name = destroyNotifyName then .ok (withRole .skip [])
    else if a.destroy.isSome && a.closure.isNone then .error (.unsupportedCallableShape callable)
    else do
      let closure ← checkLink callable count a.name a.closure
      let destroy ← checkLink callable count a.name a.destroy
      return withRole (.callback closure destroy) (closure.toList ++ destroy.toList)
  | _ => .ok (withRole (if a.closure = some position then .skip else .normal) [])

def claimAll (callable : String) (count : Nat) : Nat → List (ArgumentRecord × Descriptor) →
    Except PlanFault (List Claimed)
  | _, [] => .ok []
  | position, (a, type) :: rest => do
    let first ← claim callable count position a type
    return first :: (← claimAll callable count (position + 1) rest)

def hideAbsorbed (absorbed : List Nat) (parameters : List Parameter) : List Parameter :=
  parameters.mapIdx fun i p => if absorbed.contains i then { p with role := .skip } else p

def returnLengthOf (callable : String) (count : Nat) (skipReturn : Bool) :
    Descriptor → Except PlanFault (Option Nat)
  | .array _ (.parameter length) _ _ =>
    if skipReturn then .ok none
    else do return some (← checkIndex callable count "return value" length)
  | _ => .ok none

/-- A void return gives the script no value, not even when it is a pointer. -/
def returnsVoid : Descriptor → Bool
  | .basic .void _ => true
  | _ => false

def classifyArguments (r : Repository) (callable : String) :
    List ArgumentRecord → Except PlanFault (List (ArgumentRecord × Descriptor))
  | [] => .ok []
  | a :: rest => do
    let type ← (r.classify a.type).mapError (.type callable)
    return (a, type) :: (← classifyArguments r callable rest)

/-- The calling convention of a callable: first all types, then the roles of the arguments in
order, and last the arguments that these absorb. -/
def derive (r : Repository) (c : CallableRecord) : Except PlanFault Plan := do
  let callable := c.qualifiedName
  let count := c.arguments.length
  let typed ← classifyArguments r callable c.arguments
  let returnType ← (r.classify c.returnType).mapError (.type callable)
  let claimed ← claimAll callable count 0 typed
  let skipReturn := c.skipReturn || returnsVoid returnType
  let returnLength ← returnLengthOf callable count skipReturn returnType
  let absorbed := claimed.flatMap (·.absorbed) ++ returnLength.toList
  return {
    name := callable
    parameters := hideAbsorbed absorbed (claimed.map (·.parameter))
    returnType := returnType
    returnTransfer := c.returnTransfer
    mayReturnNull := c.mayReturnNull
    returnLength := returnLength
    skipReturn := skipReturn
    isMethod := c.takesReceiver
    canThrow := c.throws }

end Plan

end ForeignCall
