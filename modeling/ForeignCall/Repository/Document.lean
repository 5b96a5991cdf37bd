import ForeignCall.Action
import ForeignCall.Json.Reader
import ForeignCall.Metadata.Encoding
import ForeignCall.Repository

/-!
Namespace documents: JSON texts that define one namespace each.

Loading a document enters its functions and entries in place of those of the same names and keeps
the others; the version is always the last document's. The namespace of what a document defines is
the document's own, whatever the records say, and so are the container of a method and the name of
a callback's signature.
-/

set_option autoImplicit false

namespace ForeignCall

inductive DocumentFault where
  | invalid
  deriving DecidableEq, Repr

structure Document where
  name : String
  version : Option String := none
  functions : List CallableRecord := []
  entries : List EntryRecord := []

namespace Document

open Encoding

def fieldNames : List String := ["namespace", "version", "functions", "types"]

/-- How many arrays and objects may be open inside each other in what a document defines. -/
def nestingBound : Nat := 127

def read (room : Nat) (j : Json) : Option Document :=
  match room with
  | 0 => none
  | room + 1 => do
    match ← fields? fieldNames j with
    | [name, version, functions, entries] =>
      return {
        name := ← required readString name
        version := ← optional readString version
        functions := ← defaulted [] (readList CallableRecord.read room) functions
        entries := ← defaulted [] (readList EntryRecord.read room) entries }
    | _ => none

def parse? (text : String) : Option Document := do read nestingBound (← Json.parse? text)

def ownFunction (d : Document) (c : CallableRecord) : CallableRecord :=
  { c with namespaceName := d.name }

def ownEntry (d : Document) (e : EntryRecord) : EntryRecord :=
  { e with
    namespaceName := d.name
    methods := e.methods.map fun m =>
      { m with namespaceName := d.name, container := some e.name }
    signature := e.signature.map fun s => { s with namespaceName := d.name, name := e.name } }

end Document

namespace Repository

def load (r : Repository) (d : Document) : Repository :=
  let ns := r.namespaceOf d.name
  let functions := d.functions.foldl (fun m c => m.insert c.name (d.ownFunction c)) ns.functions
  let entries := d.entries.foldl (fun m e => m.insert e.name (d.ownEntry e)) ns.entries
  ⟨r.namespaces.insert d.name ⟨d.version, entries, functions⟩⟩

/-- Loads the document that a text denotes and gives the name of its namespace. A text that denotes
none is refused. -/
def loadText (text : String) : Action DocumentFault Repository String := do
  match Document.parse? text with
  | none => Action.fail .invalid
  | some d =>
    modify fun r => r.load d
    return d.name

end Repository

end ForeignCall
