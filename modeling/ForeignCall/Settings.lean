import ForeignCall.Repository.Document
import ForeignCall.Toml.Reader
import ForeignCall.Trampoline

/-!
Settings: what a TOML file says about callbacks, metadata and logging.

A section may also be written as an array of its fields in order, or as a date, which says nothing.
Unknown fields are ignored, as long as the numbers in them can be held, and every field has a default.
-/

set_option autoImplicit false

namespace ForeignCall

structure Settings where
  unscoped : UnscopedPolicy := .pin
  metadataPaths : List String := []
  logFilter : String := "warn"
  logJson : Bool := false
  deriving DecidableEq, Repr

inductive FileFault where
  | notFound
  | notUtf8
  | other (reason : String)
  deriving DecidableEq, Repr

def FileFault.message : FileFault → String
  | .notFound => "No such file or directory (os error 2)"
  | .notUtf8 => "stream did not contain valid UTF-8"
  | .other reason => reason

inductive LoadError where
  | settingsUnreadable (path : String) (fault : FileFault)
  | settingsInvalid
  | documentUnreadable (fault : FileFault)
  | documentInvalid
  deriving DecidableEq, Repr

def LoadError.message : LoadError → String
  | .settingsUnreadable path fault => s!"Failed to read config file '{path}': {fault.message}"
  | .settingsInvalid => "Failed to parse config"
  | .documentUnreadable fault => s!"I/O error: {fault.message}"
  | .documentInvalid => "Invalid metadata"

def UnscopedPolicy.word : UnscopedPolicy → String
  | .pin => "pin"
  | .releaseAfterFirstCall => "release-after-first-call"

def UnscopedPolicy.ofWord? (s : String) : Option UnscopedPolicy :=
  [UnscopedPolicy.pin, .releaseAfterFirstCall].find? (·.word == s)

namespace Settings

/-- The fields of a section, by their names. Other members of a table must fit; what an array lists
beyond the fields is not looked at. -/
def fields? (names : List String) (t : Toml) : Option (String → Option Toml) :=
  match t with
  | .array _ | .tables _ => t.items?.map fun items name => items[names.idxOf name]?
  | .table _ members =>
    if members.all fun (name, value) => names.contains name || value.fits then
      some fun name => members.lookup name
    else none
  | .date => some fun _ => none
  | _ => none

def read {α : Type} (default : α) (field : Option Toml) (ofToml? : Toml → Option α) : Option α :=
  match field with
  | none => some default
  | some t => ofToml? t

def string? : Toml → Option String
  | .string s => some s
  | _ => none

def boolean? : Toml → Option Bool
  | .boolean b => some b
  | _ => none

def isEmpty (t : Toml) : Bool :=
  (t.items?.any (·.isEmpty)) || (t.members?.any (·.isEmpty))

/-- A policy: its word, or a table with its word as the only key and nothing below it. -/
def policy? : Toml → Option UnscopedPolicy
  | .string s => UnscopedPolicy.ofWord? s
  | .table _ [(name, t)] => if isEmpty t then UnscopedPolicy.ofWord? name else none
  | _ => none

def ofToml? (t : Toml) : Option Settings := do
  let field ← fields? ["callbacks", "metadata", "logging"] t
  let unscoped ← read .pin (field "callbacks") fun t => do
    read .pin ((← fields? ["unscoped"] t) "unscoped") policy?
  let metadataPaths ← read [] (field "metadata") fun t => do
    read [] ((← fields? ["paths"] t) "paths") fun t => do (← t.items?).mapM string?
  let (logFilter, logJson) ← read ("warn", false) (field "logging") fun t => do
    let field ← fields? ["filter", "json"] t
    return (← read "warn" (field "filter") string?, ← read false (field "json") boolean?)
  return { unscoped, metadataPaths, logFilter, logJson }

def parse? (text : String) : Option Settings := do ofToml? (← Toml.parse? text)

end Settings

abbrev FileReader (m : Type → Type) := String → m (Except FileFault String)

variable {m : Type → Type} [Monad m]

def Settings.ofFile (reader : FileReader m) (path : String) : m (Except LoadError Settings) := do
  match ← reader path with
  | .error fault => return .error (.settingsUnreadable path fault)
  | .ok text =>
    match Settings.parse? text with
    | some settings => return .ok settings
    | none => return .error .settingsInvalid

def Repository.loadFile (reader : FileReader m) (r : Repository) (path : String) :
    m (Except LoadError Repository) := do
  match ← reader path with
  | .error fault => return .error (.documentUnreadable fault)
  | .ok text =>
    match loadText text r with
    | .ok _ r => return .ok r
    | .error _ _ => return .error .documentInvalid

/-- Loads documents in order, up to the first that cannot be loaded; says which one that was. -/
def Repository.loadFiles (reader : FileReader m) (r : Repository) :
    List String → m (Except (String × LoadError) Repository)
  | [] => return .ok r
  | path :: rest => do
    match ← r.loadFile reader path with
    | .error e => return .error (path, e)
    | .ok r => r.loadFiles reader rest

end ForeignCall
