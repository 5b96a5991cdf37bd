import ForeignCall.CommandLine.Arguments
import ForeignCall.LogFilter
import ForeignCall.Plan
import ForeignCall.Settings

/-!
The command line: inspecting the plans that follow from metadata.

`describe` shows one plan, `check` derives all of them and reports those that fail, and `list` shows
the names under which callables are bound.
-/

set_option autoImplicit false

namespace ForeignCall

namespace CommandLine

structure Outcome where
  exitCode : Nat
  output : String
  errors : String
  deriving DecidableEq, Repr

def padRight (width : Nat) (s : String) : String :=
  s ++ String.ofList (List.replicate (width - s.length) ' ')

def lines (ls : List String) : String := String.join (ls.map (· ++ "\n"))

def positionName (plan : Plan) (position : Nat) : String :=
  match plan.parameters[position]? with
  | some p => p.name
  | none => toString position

def linkText (plan : Plan) (what : String) (link : Option Nat) : String :=
  match link with
  | some position => s!" ({what}: {positionName plan position})"
  | none => ""

def roleText (plan : Plan) (p : Parameter) : String :=
  match p.role with
  | .normal => "normal"
  | .skip => "skip"
  | .array length => s!"array (length: {positionName plan length})"
  | .callback closure destroy =>
    "callback" ++ linkText plan "closure" closure ++ linkText plan "destroy" destroy

def directionText : Direction → String
  | .input => "in"
  | .output => "out"
  | .inout => "inout"

def transferText : Transfer → String
  | .nothing => "Nothing"
  | .container => "Container"
  | .everything => "Everything"

def parameterLine (plan : Plan) (p : Parameter) : String :=
  "  " ++ padRight 16 p.name ++ " " ++ padRight 10 p.typeName ++ " "
    ++ padRight 8 (directionText p.direction) ++ " " ++ roleText plan p
    ++ (if p.nullable then ", nullable" else "")

def planLines (plan : Plan) : List String :=
  [plan.name]
  ++ (if plan.isMethod then ["  receiver: implicit"] else [])
  ++ plan.parameters.map (parameterLine plan)
  ++ [if plan.skipReturn then "  returns: nothing"
      else s!"  returns: {plan.returnType.displayName} (transfer {transferText plan.returnTransfer})"]
  ++ (if plan.canThrow then ["  throws: GError"] else [])
  ++ [s!"  inputs: {plan.requiredCount}, outputs: {plan.outputCount}, native slots: {plan.slotCount}"]

def nameLe (a b : String × String) : Bool :=
  a.1 < b.1 || (a.1 == b.1 && (a.2 < b.2 || a.2 == b.2))

/-- The callables of a namespace by the name they are bound under, with their qualified names. -/
def callables (r : Repository) (ns : String) : List (String × String) :=
  let functions := (r.functions ns).map fun c => (c.name, c.qualifiedName)
  let methods := (r.entries ns).flatMap fun e =>
    e.methods.map fun m => (e.name ++ "_" ++ m.name, m.qualifiedName)
  (functions ++ methods).mergeSort nameLe

def selected (r : Repository) (ns : Option String) : Except String (List String) :=
  match ns with
  | none => .ok r.namespaceNames
  | some ns =>
    if r.namespaceNames.contains ns then .ok [ns] else .error s!"Namespace '{ns}' not loaded"

/-- The failures of a namespace: qualified names whose plan cannot be derived, and why. A name that
finds no callable is passed over. -/
def failures (r : Repository) (names : List String) : List (String × PlanFault) :=
  names.filterMap fun name =>
    match (r.callable? name).map (Plan.derive r) with
    | some (.error fault) => some (name, fault)
    | _ => none

def runDescribe (r : Repository) (callable : String) : Except String Outcome :=
  match r.callable? callable with
  | none => .error s!"Callable '{callable}' not found"
  | some c =>
    match Plan.derive r c with
    | .error fault => .error fault.message
    | .ok plan => .ok ⟨0, lines (planLines plan), ""⟩

def runCheck (r : Repository) (ns : Option String) : Except String Outcome := do
  let names := (← selected r ns).flatMap fun ns => (callables r ns).map (·.2)
  let failed := failures r names
  return ⟨if failed.isEmpty then 0 else 1,
    lines (failed.map fun (name, fault) => s!"{name}: {fault.message}"),
    lines [s!"{names.length} callables, {failed.length} failed"]⟩

def namespaceLine (r : Repository) (ns : String) : String :=
  match r.version? ns with
  | some version => ns ++ " " ++ version
  | none => ns

def runList (r : Repository) (ns : Option String) : Except String Outcome := do
  return ⟨0,
    lines ((← selected r ns).flatMap fun ns =>
      namespaceLine r ns ::
        (callables r ns).map fun (bound, name) => "  " ++ padRight 32 bound ++ " " ++ name),
    ""⟩

def runCommand (r : Repository) : Command → Except String Outcome
  | .describe callable => runDescribe r callable
  | .check ns => runCheck r ns
  | .list ns => runList r ns

def filterVariable : String := "RUST_LOG"

def canLog (env : String → Option String) (settings : Settings) : Bool :=
  (env filterVariable).any isLogFilter || isLogFilter settings.logFilter

variable {m : Type → Type} [Monad m]

def loadSettings (reader : FileReader m) : Option String → m (Except String Settings)
  | none => return .ok {}
  | some path => do return (← Settings.ofFile reader path).mapError (·.message)

def loadRepository (reader : FileReader m) (settings : Settings) (extra : List String) :
    m (Except String Repository) := do
  match ← Repository.initial.loadFiles reader settings.metadataPaths with
  | .error (_, e) => return .error e.message
  | .ok r =>
    return (← r.loadFiles reader extra).mapError fun (path, _) => s!"loading {path}"

def execute (reader : FileReader m) (env : String → Option String) (options : Options) :
    m (Except String Outcome) := do
  match ← loadSettings reader options.settings with
  | .error e => return .error e
  | .ok settings =>
    if !canLog env settings then return .error "invalid log filter"
    match ← loadRepository reader settings options.metadata with
    | .error e => return .error e
    | .ok r => return runCommand r options.command

def helpText : String := lines [
  "Inspect call plans derived from introspection metadata",
  "",
  "Usage: [OPTIONS] <COMMAND>",
  "",
  "Commands:",
  "  describe  Show the derived calling convention of a callable",
  "  check     Derive every call plan and report the ones that fail",
  "  list      List the callables of every loaded namespace, as bound names",
  "  help      Print this message",
  "",
  "Options:",
  "  -c, --config <CONFIG>      Path to the configuration file",
  "  -m, --metadata <METADATA>  Additional namespace documents to load",
  "  -h, --help                 Print help"]

def run (reader : FileReader m) (env : String → Option String) (args : List String) :
    m Outcome := do
  match parse env args with
  | .error .help => return ⟨0, helpText, ""⟩
  | .error .misuse => return ⟨2, "", helpText⟩
  | .ok options =>
    match ← execute reader env options with
    | .ok outcome => return outcome
    | .error e => return ⟨1, "", lines ["Error: " ++ e]⟩

end CommandLine

end ForeignCall
