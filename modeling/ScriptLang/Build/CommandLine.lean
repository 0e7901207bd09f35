import ScriptLang.Build.Product
import ScriptLang.Datum.Json
import ScriptLang.Directory
import ScriptLang.Options

/-!
# The command line of the configurator

The options name the interpreter's text, the configuration, the release tag and the product. Files
that are missing count as empty.
-/

namespace ScriptLang.Build

open Options

def grammar : Grammar where
  program := "PyYPSH NABS Configurator"
  description := "CLI Tool for Configurate PyYPSH Python Script"
  switches := [
    ⟨["-i", "--input"], "Path of PyYPSH Python Script", some "INPUT", [], false⟩,
    ⟨["-c", "--config"], "Path of Configuration File", some "CONFIG", [], false⟩,
    ⟨["-t", "--tag"], "Release Tag", some "TAG", [], false⟩,
    ⟨["-o", "--output"], "Path of Output Python Script", some "OUTPUT", [], false⟩]

inductive Ending where
  | finished
  | exit (code : Nat)
  | failed (f : Failure)
  deriving Repr

def make (stamp : String) (given : Given) (w : World) : Except Failure World := do
  let path (name default : String) : String :=
    Path.tidy w.directory ((given.value? name).getD default)
  let parts ← match ← w.textOf (path "-i" "ypsh.py") with
    | some content => Parts.of content
    | none => .ok {}
  let config ← match ← w.textOf (path "-c" "config.json") with
    | some content => Json.read content
    | none => .ok (.dict [])
  let platform := Platform.ofHost w.system w.machine
  let settings ← settings platform stamp ((given.value? "-t").getD "v0.0.0") config
  w.putFile (path "-o" "main.py") (Text.bytes (product settings parts))

def runCommandLine (stamp : String) (args : List String) (w : World) : Ending × World :=
  match parse grammar args with
  | .error .help => (.exit 0, w.emit (.out grammar.help))
  | .error (.refused reason) => (.exit 2, w.emit (.err (grammar.complaint reason)))
  | .ok given =>
    match make stamp given w with
    | .ok w => (.finished, w)
    | .error f => (.failed f, w)

end ScriptLang.Build
