import ForeignCall.Number.Decimal
import ForeignCall.Slot

/-!
Script values.

A native struct or object appears in the script as a wrapper, and a wrapper is an identity: two
wrappers of the same address are different values. Functions are identities, too; what they do is
known to the host alone.
-/

set_option autoImplicit false

namespace ForeignCall

structure Wrapper where
  /-- Which wrapper it is; two wrappers never share it. -/
  id : Nat
  address : Nat
  typeName : String
  /-- Whether the wrapper owned its address when it was made. -/
  adopts : Bool
  deriving DecidableEq, Repr, Inhabited

structure FunctionId where
  index : Nat
  deriving DecidableEq, Repr, Inhabited

inductive Value where
  | undefined
  | null
  | bool (b : Bool)
  | number (n : Number)
  | string (s : String)
  | array (items : List Value)
  | object (w : Wrapper)
  | function (f : FunctionId)
  deriving Repr, Inhabited

namespace Value

def isNullish : Value → Bool
  | .undefined | .null => true
  | _ => false

/-- Empty strings, zero and NaN are false; every array, object and function is true. -/
def isTruthy : Value → Bool
  | .undefined | .null => false
  | .bool b => b
  | .number n => !n.isZero && !n.isNaN
  | .string s => !s.isEmpty
  | .array _ | .object _ | .function _ => true

def number? : Value → Option Number
  | .number n => some n
  | _ => none

def string? : Value → Option String
  | .string s => some s
  | _ => none

def items? : Value → Option (List Value)
  | .array items => some items
  | _ => none

def wrapper? : Value → Option Wrapper
  | .object w => some w
  | _ => none

def address? (v : Value) : Option Nat := v.wrapper?.map (·.address)

def describe : Value → String
  | .undefined => "undefined"
  | .null => "null"
  | .bool b => if b then "true" else "false"
  | .number n => n.text
  | .string s => s
  | .array items => s!"[array of {items.length}]"
  | .object w => s!"[object {w.typeName}]"
  | .function _ => "[function]"

mutual

/-- Equality as the script sees it: numbers by value, arrays by their items, wrappers and functions
by identity. -/
def equals : Value → Value → Bool
  | .undefined, .undefined | .null, .null => true
  | .bool a, .bool b => a == b
  | .number a, .number b => a.equals b
  | .string a, .string b => a == b
  | .array a, .array b => equalItems a b
  | .object a, .object b => a.id == b.id
  | .function a, .function b => a == b
  | _, _ => false

def equalItems : List Value → List Value → Bool
  | [], [] => true
  | a :: as, b :: bs => a.equals b && equalItems as bs
  | _, _ => false

end

mutual

def holds (id : Nat) : Value → Bool
  | .object w => w.id == id
  | .array items => anyHolds id items
  | _ => false

def anyHolds (id : Nat) : List Value → Bool
  | [] => false
  | v :: rest => v.holds id || anyHolds id rest

end

end Value

end ForeignCall
