import ForeignCall.CommandLine

/-!
The program: runs the command line on real files.
-/

set_option autoImplicit false

namespace ForeignCall

def readTextFile (path : String) : IO (Except FileFault String) := do
  match ← (IO.FS.readBinFile path).toBaseIO with
  | .ok bytes =>
    match String.fromUTF8? bytes with
    | some text => return .ok text
    | none => return .error .notUtf8
  | .error (.noFileOrDirectory ..) => return .error .notFound
  | .error e => return .error (.other (toString e))

end ForeignCall

open ForeignCall in
def main (args : List String) : IO UInt32 := do
  let names := [CommandLine.settingsVariable, CommandLine.filterVariable]
  let values ← names.mapM fun name => do return (name, ← IO.getEnv name)
  let env (name : String) : Option String := (values.lookup name).join
  let outcome ← CommandLine.run readTextFile env args
  IO.print outcome.output
  IO.eprint outcome.errors
  return UInt32.ofNat outcome.exitCode
