/-!
Command line arguments.

Options of the program stand before the command, options of a command after it. A value may follow
its option as the next argument, after an equals sign, or right after a short option. Arguments are
read in order: the first that asks for the help text or makes no sense decides.
-/

set_option autoImplicit false

namespace ForeignCall

namespace CommandLine

inductive Command where
  | describe (callable : String)
  | check (ns : Option String)
  | list (ns : Option String)
  deriving DecidableEq, Repr

structure Options where
  settings : Option String
  metadata : List String
  command : Command
  deriving DecidableEq, Repr

inductive Refusal where
  | help
  | misuse
  deriving DecidableEq, Repr

inductive Word where
  | escape
  | long (name : String) (value : Option String)
  | short (flags : List Char)
  | plain (s : String)

def Word.ofString (s : String) : Word :=
  match s.toList with
  | ['-', '-'] => .escape
  | '-' :: '-' :: rest =>
    match rest.dropWhile (· != '=') with
    | _ :: value => .long (String.ofList (rest.takeWhile (· != '='))) (some (String.ofList value))
    | [] => .long (String.ofList rest) none
  | '-' :: c :: rest => .short (c :: rest)
  | _ => .plain s

/-- The value of an option: the one attached to it, or the next argument if that is no option. -/
def takeValue (attached : Option String) (rest : List String) :
    Except Refusal (String × List String) :=
  match attached, rest with
  | some value, rest => .ok (value, rest)
  | none, next :: rest =>
    match Word.ofString next with
    | .plain value => .ok (value, rest)
    | _ => .error .misuse
  | none, [] => .error .misuse

def attachedValue : List Char → Option String
  | [] => none
  | '=' :: value => some (String.ofList value)
  | value => some (String.ofList value)

def checkPath (s : String) : Except Refusal String := if s.isEmpty then .error .misuse else .ok s

structure Collected where
  plain : List String := []
  ns : Option String := none

def collect (hasNamespace : Bool) : Nat → Collected → List String → Except Refusal Collected
  | 0, _, _ => .error .misuse
  | _ + 1, c, [] => .ok c
  | fuel + 1, c, arg :: rest =>
    let takeNamespace (attached : Option String) : Except Refusal Collected := do
      let (value, rest) ← takeValue attached rest
      if !hasNamespace || c.ns.isSome then throw .misuse
      collect hasNamespace fuel { c with ns := some value } rest
    match Word.ofString arg with
    | .escape => .ok { c with plain := c.plain ++ rest }
    | .long "help" none => .error .help
    | .long "namespace" value => takeNamespace value
    | .long _ _ => .error .misuse
    | .short ('h' :: _) => .error .help
    | .short ('n' :: value) => takeNamespace (attachedValue value)
    | .short _ => .error .misuse
    | .plain s =>
      let c := { c with plain := c.plain ++ [s] }
      -- A command takes one plain value at most.
      if 1 < c.plain.length || hasNamespace then .error .misuse else collect hasNamespace fuel c rest

def namespaceOnly (c : Collected) : Except Refusal (Option String) :=
  if c.plain.isEmpty then .ok c.ns else .error .misuse

def commandNames : List String := ["describe", "check", "list", "help"]

def readCommand (name : String) (rest : List String) : Except Refusal Command := do
  let fuel := rest.length + 1
  if name = "describe" then
    let c ← collect false fuel {} rest
    match c.plain with
    | [callable] => return .describe callable
    | _ => throw .misuse
  else if name = "check" then return .check (← namespaceOnly (← collect true fuel {} rest))
  else if name = "list" then return .list (← namespaceOnly (← collect true fuel {} rest))
  else if name = "help" then
    match rest with
    | [] => throw .help
    | [topic] => throw (if commandNames.contains topic then .help else .misuse)
    | _ => throw .misuse
  else throw .misuse

structure Draft where
  settings : Option String := none
  metadata : List String := []

def readOptions : Nat → Draft → List String → Except Refusal Options
  | 0, _, _ => .error .misuse
  | _ + 1, _, [] => .error .misuse
  | fuel + 1, d, arg :: rest =>
    let takeSettings (attached : Option String) : Except Refusal Options := do
      let (value, rest) ← takeValue attached rest
      let path ← checkPath value
      if d.settings.isSome then throw .misuse
      readOptions fuel { d with settings := some path } rest
    let takeMetadata (attached : Option String) : Except Refusal Options := do
      let (value, rest) ← takeValue attached rest
      let path ← checkPath value
      readOptions fuel { d with metadata := d.metadata ++ [path] } rest
    match Word.ofString arg with
    | .escape => .error .misuse
    | .long "help" none => .error .help
    | .long "config" value => takeSettings value
    | .long "metadata" value => takeMetadata value
    | .long _ _ => .error .misuse
    | .short ('h' :: _) => .error .help
    | .short ('c' :: value) => takeSettings (attachedValue value)
    | .short ('m' :: value) => takeMetadata (attachedValue value)
    | .short _ => .error .misuse
    | .plain name => do return ⟨d.settings, d.metadata, ← readCommand name rest⟩

def settingsVariable : String := "GIR_BRIDGE_CONFIG"

/-- The options that arguments and environment ask for. An option goes before the variable. -/
def parse (env : String → Option String) (args : List String) : Except Refusal Options := do
  let options ← readOptions (args.length + 1) {} args
  match options.settings, env settingsVariable with
  | none, some path => return { options with settings := some (← checkPath path) }
  | _, _ => return options

end CommandLine

end ForeignCall
