import ForeignCall.Heap.Operation
import ForeignCall.Memory

/-!
Programs on both sides of the boundary, as trees of requests.

A native function and a script function are whatever they do: they end, or they ask for something
and go on with the answer. `σ` is the state of the host, which both may read and replace and which
nothing else touches.
-/

set_option autoImplicit false

namespace ForeignCall

inductive Native (σ : Type) where
  | ret (slot : Slot)
  | fault (f : HeapFault)
  | heap (op : HeapOperation) (next : Except HeapFault op.Answer → Native σ)
  | callback (function : Slot) (slots : List Slot) (next : Slot → Native σ)
  | raise (e : CallError) (next : Native σ)
  | note (n : Note) (next : Native σ)
  | read (next : σ → Native σ)
  | write (state : σ) (next : Native σ)

namespace Native

variable {σ : Type}

instance : Inhabited (Native σ) := ⟨.ret .null⟩

def request (op : HeapOperation) (next : op.Answer → Native σ) : Native σ :=
  .heap op fun
    | .ok a => next a
    | .error f => .fault f

/-- Reports an error to the caller by its error cell; a null cell ignores it. -/
def setError (cell : Slot) (record : ErrorRecord) (next : Native σ) : Native σ :=
  if cell.isNull then next
  else
    request (.newError record) fun address =>
      request (.store cell.toNat 8 (.ofNat address)) fun () => next

def notifyDestroy (destroy userData : Slot) (next : Native σ) : Native σ :=
  if destroy.isNull then next else .callback destroy [userData] fun _ => next

end Native

inductive Script (σ : Type) where
  | ret (v : Value)
  | throw (e : CallError)
  | call (name : String) (receiver : Option Value) (arguments : List Value)
      (next : Except CallError Value → Script σ)
  | wrap (address : Nat) (typeName : String) (adopts : Bool) (next : Wrapper → Script σ)
  | read (next : σ → Script σ)
  | write (state : σ) (next : Script σ)

instance {σ : Type} : Inhabited (Script σ) := ⟨.ret .undefined⟩

end ForeignCall
