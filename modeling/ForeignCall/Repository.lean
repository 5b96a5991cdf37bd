import ForeignCall.Metadata.Record
import Std.Data.TreeMap

/-!
The repository: namespaces with their entries and functions, and the questions asked of them.

Names are ordered by code point, which is the byte order of their UTF-8 text.
-/

set_option autoImplicit false

namespace ForeignCall

structure Namespace where
  version : Option String := none
  entries : Std.TreeMap String EntryRecord := ∅
  functions : Std.TreeMap String CallableRecord := ∅

structure Repository where
  namespaces : Std.TreeMap String Namespace

def destroyNotifyName : String := "GLib.DestroyNotify"

/-- The text before the first dot and the text after it. -/
def splitAtDot? (s : String) : Option (String × String) :=
  let cs := s.toList
  match cs.dropWhile (· != '.') with
  | _ :: rest => some (String.ofList (cs.takeWhile (· != '.')), String.ofList rest)
  | [] => none

namespace Repository

/-- The namespace of that name, empty if nothing was loaded into it. -/
def namespaceOf (r : Repository) (name : String) : Namespace := r.namespaces.getD name {}

def insertEntry (r : Repository) (e : EntryRecord) : Repository :=
  let ns := r.namespaceOf e.namespaceName
  ⟨r.namespaces.insert e.namespaceName { ns with entries := ns.entries.insert e.name e }⟩

def insertFunction (r : Repository) (c : CallableRecord) : Repository :=
  let ns := r.namespaceOf c.namespaceName
  ⟨r.namespaces.insert c.namespaceName { ns with functions := ns.functions.insert c.name c }⟩

/-- The entry every repository starts with: the destroy notifier, a callback whose one argument is
its own user data. -/
def destroyNotify : EntryRecord :=
  { namespaceName := "GLib"
    name := "DestroyNotify"
    kind := .callback
    signature := some
      { namespaceName := "GLib"
        name := "DestroyNotify"
        arguments := [{ name := "data", type := .anyPointer, closure := some 0 }] } }

def initial : Repository := insertEntry ⟨∅⟩ destroyNotify

def namespaceNames (r : Repository) : List String := r.namespaces.keys

def version? (r : Repository) (ns : String) : Option String :=
  r.namespaces[ns]?.bind (·.version)

def lookup? (r : Repository) (ns name : String) : Option EntryRecord :=
  r.namespaces[ns]?.bind (·.entries[name]?)

def function? (r : Repository) (ns name : String) : Option CallableRecord :=
  r.namespaces[ns]?.bind (·.functions[name]?)

def entries (r : Repository) (ns : String) : List EntryRecord :=
  (r.namespaceOf ns).entries.values

def functions (r : Repository) (ns : String) : List CallableRecord :=
  (r.namespaceOf ns).functions.values

/-- The entry of a qualified name; the namespace ends at the first dot. -/
def resolve? (r : Repository) (qualified : String) : Option EntryRecord := do
  let (ns, name) ← splitAtDot? qualified
  r.lookup? ns name

/-- The function `Namespace.name` or the method `Namespace.Type.method`. -/
def callable? (r : Repository) (qualified : String) : Option CallableRecord := do
  let (ns, rest) ← splitAtDot? qualified
  match splitAtDot? rest with
  | none => r.function? ns rest
  | some (type, method) => (← r.lookup? ns type).method? method

def interfaceOf? (r : Repository) (t : TypeRecord) : Option EntryRecord :=
  t.interface.bind r.resolve?

def parent? (r : Repository) (name : String) : Option String := (r.resolve? name).bind (·.parent)

/-- How many names a walk along parents looks at; it ends also when they form a ring. -/
def ancestryBound : Nat := 64

def reaches (r : Repository) (ancestor : String) : Nat → String → Bool
  | 0, _ => false
  | steps + 1, name =>
    name == ancestor ||
      match r.parent? name with
      | some parent => r.reaches ancestor steps parent
      | none => false

def isA (r : Repository) (name ancestor : String) : Bool := r.reaches ancestor ancestryBound name

end Repository

end ForeignCall
