import ForeignCall.PowerOfTwo

/-!
TOML values and the tables that a document's statements build.

A document is a sequence of headers and assignments. What a later statement may still change depends
on how a table came about: one that only leads to others can get a header of its own, one made by
dotted keys can only get more dotted keys, and an inline table is closed.
-/

set_option autoImplicit false

namespace ForeignCall

inductive TableOrigin where
  | path
  | header
  | dotted
  | inline
  deriving DecidableEq, Repr, Inhabited

def TableOrigin.onPath (dotted : Bool) : TableOrigin := if dotted then .dotted else .path

inductive Toml where
  | string (s : String)
  | boolean (b : Bool)
  | integer (i : Int)
  /-- A number with a fraction or an exponent; of its value, only whether binary64 can hold it. -/
  | float (isFinite : Bool)
  | date
  | array (items : List Toml)
  /-- The tables of headers in double brackets, the latest first. -/
  | tables (items : List Toml)
  | table (origin : TableOrigin) (members : List (String × Toml))
  deriving Inhabited, Repr

namespace Toml

abbrev Members := List (String × Toml)

def setMember (name : String) (value : Toml) : Members → Members
  | [] => [(name, value)]
  | (n, v) :: rest => if n = name then (n, value) :: rest else (n, v) :: setMember name value rest

/-- The table below `name` that a path may go through: how it came about, and its members. A dotted
key goes through no table that a header in single brackets defined. -/
def enterable? (dotted : Bool) (members : Members) (name : String) :
    Option (TableOrigin × Members) :=
  match members.lookup name with
  | none => some (.onPath dotted, [])
  | some (.table origin inner) =>
    if origin = .inline || (dotted && origin = .header) then none else some (origin, inner)
  | some (.tables (.table origin inner :: _)) => some (origin, inner)
  | some _ => none

def putBack (dotted : Bool) (members : Members) (name : String) (inner : Members) : Members :=
  match members.lookup name with
  | some (.table origin _) => setMember name (.table origin inner) members
  | some (.tables (.table origin _ :: rest)) =>
    setMember name (.tables (.table origin inner :: rest)) members
  | _ => setMember name (.table (.onPath dotted) inner) members

def changeAt (dotted : Bool) (change : TableOrigin → Members → Option Members) :
    TableOrigin → List String → Members → Option Members
  | origin, [], members => change origin members
  | _, name :: path, members => do
    let (origin, inner) ← enterable? dotted members name
    return putBack dotted members name (← changeAt dotted change origin path inner)

/-- Assigns a value to a key below a path of dotted keys. The table that a path ends in is one that
dotted keys made; other tables may only lie on the way to it. -/
def assign (path : List String) (key : String) (value : Toml) : Members → Option Members :=
  changeAt true (fun origin members =>
    if (members.lookup key).isSome || (!path.isEmpty && origin != .dotted) then none
    else some (members ++ [(key, value)])) .header path

def openTable (path : List String) (key : String) : Members → Option Members :=
  changeAt false (fun _ members =>
    match members.lookup key with
    | none => some (members ++ [(key, .table .header [])])
    | some (.table .path inner) => some (setMember key (.table .header inner) members)
    | some _ => none) .header path

def openNextTable (path : List String) (key : String) : Members → Option Members :=
  changeAt false (fun _ members =>
    match members.lookup key with
    | none => some (members ++ [(key, .tables [.table .header []])])
    | some (.tables items) => some (setMember key (.tables (.table .header [] :: items)) members)
    | some _ => none) .header path

def changeOpened (header : List String) (change : Members → Option Members) :
    Members → Option Members :=
  changeAt false (fun _ => change) .header header

def items? : Toml → Option (List Toml)
  | .array items => some items
  | .tables items => some items.reverse
  | _ => none

def members? : Toml → Option Members
  | .table _ members => some members
  | _ => none

mutual

/-- Whether every number in a value can be held: whole numbers by 128 bits, signed or not, others by
binary64. -/
def fits : Toml → Bool
  | .integer i => -(twoPow 127 : Int) ≤ i && i < twoPow 128
  | .float finite => finite
  | .array items | .tables items => allFit items
  | .table _ members => membersFit members
  | .string _ | .boolean _ | .date => true

def allFit : List Toml → Bool
  | [] => true
  | item :: rest => item.fits && allFit rest

def membersFit : List (String × Toml) → Bool
  | [] => true
  | (_, value) :: rest => value.fits && membersFit rest

end

end Toml

end ForeignCall
