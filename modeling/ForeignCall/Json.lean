/-!
JSON values as they are written.

Objects keep their members in order, repeated names included, because a record that names a field
twice is an error its reader has to see. A string literal whose escapes leave half of a surrogate
pair denotes no text; it is kept as `none`, since a reader that skips the value does not mind.
-/

set_option autoImplicit false

namespace ForeignCall

inductive Json where
  | null
  | bool (value : Bool)
  /-- A number written as a whole number; negative zero is not one. -/
  | integer (value : Int)
  | decimal (literal : String)
  | string (text : Option String)
  | array (items : List Json)
  | object (members : List (Option String × Json))
  deriving Inhabited, Repr

namespace Json

def text (s : String) : Json := .string (some s)

def ofNat (n : Nat) : Json := .integer n

def record (members : List (String × Json)) : Json :=
  .object (members.map fun (name, value) => (some name, value))

def member? (name : String) : Json → Option Json
  | .object members => (members.find? (·.1 == some name)).map (·.2)
  | _ => none

mutual

def depth : Json → Nat
  | .array items => depthOfItems items + 1
  | .object members => depthOfMembers members + 1
  | _ => 0

def depthOfItems : List Json → Nat
  | [] => 0
  | item :: rest => max item.depth (depthOfItems rest)

def depthOfMembers : List (Option String × Json) → Nat
  | [] => 0
  | (_, value) :: rest => max value.depth (depthOfMembers rest)

end

end Json

end ForeignCall
