import ForeignCall.Action
import ForeignCall.Heap
import ForeignCall.Plan
import ForeignCall.Value

/-!
What can go wrong with a conversion and with a call, and how it is told to the script.
-/

set_option autoImplicit false

namespace ForeignCall

inductive ConversionFault where
  | typeMismatch (expected got : String)
  | fixedSizeMismatch (expected got : Nat)
  | lengthRequired (name : String)
  | unsupported (what : String)
  | invalidChar (code : Nat)
  | addressOverflow (base index : Nat)
  | unknownTrampoline (address : Nat)
  | signature (fault : PlanFault)
  | type (fault : TypeFault)
  | heap (fault : HeapFault)
  deriving DecidableEq, Repr

def ConversionFault.message : ConversionFault → String
  | .typeMismatch expected got => s!"Expected {expected}, got '{got}'"
  | .fixedSizeMismatch expected got => s!"Expected an array of length {expected}, got {got}"
  | .lengthRequired name => s!"Length required to convert {name}"
  | .unsupported what => s!"Unsupported conversion: {what}"
  | .invalidChar code => s!"Invalid unichar value: {hexAddress code}"
  | .addressOverflow base index =>
    s!"Element {index} of the buffer at {hexAddress base} is out of the address space"
  | .unknownTrampoline address => s!"No callback registered at {hexAddress address}"
  | .signature fault => s!"Invalid callback signature: {fault.message}"
  | .type fault => fault.message
  | .heap fault => fault.message

inductive ExceptionClass where
  | typeError | error
  deriving DecidableEq, Repr

inductive CallError where
  | arity (expected actual : Nat)
  | typeMismatch (parameter expected got : String)
  | plan (fault : PlanFault)
  | native (record : ErrorRecord)
  | missingReceiver (callable : String)
  | conversion (fault : ConversionFault)
  | heap (fault : HeapFault)
  | script (message : String)
  | notFound (name : String)
  deriving DecidableEq, Repr

namespace CallError

def message : CallError → String
  | .arity expected actual => s!"Not enough arguments; expected {expected}, have {actual}"
  | .typeMismatch parameter expected got =>
    s!"Expected argument of type {expected} for parameter {parameter}, got '{got}'"
  | .plan fault => fault.message
  | .native record => record.message
  | .missingReceiver callable => s!"Method {callable} called without a receiver"
  | .conversion fault => fault.message
  | .heap fault => s!"Native memory fault: {fault.message}"
  | .script message => message
  | .notFound name => s!"Not found: {name}"

def exceptionClass : CallError → ExceptionClass
  | .arity .. | .typeMismatch .. | .missingReceiver _ => .typeError
  | .plan (.unsupportedCallableShape _) => .typeError
  | .conversion (.typeMismatch ..) | .conversion (.fixedSizeMismatch ..) => .typeError
  | _ => .error

def isFatal : CallError → Bool
  | .plan (.type ..) | .conversion (.type _) => true
  | _ => false

/-- Whether the arguments of the script were refused, which happens before native code runs. -/
def isArgumentError : CallError → Bool
  | .arity .. | .typeMismatch .. => true
  | _ => false

def isNative : CallError → Bool
  | .native _ => true
  | _ => false

end CallError

class OfHeapFault (ε : Type) where
  ofHeap : HeapFault → ε

instance : OfHeapFault ConversionFault := ⟨.heap⟩

instance : OfHeapFault CallError := ⟨.heap⟩

def Heap.act {ε α : Type} [OfHeapFault ε] (x : HeapM α) : Action ε Heap α :=
  Action.mapError OfHeapFault.ofHeap x

end ForeignCall
