import ScriptLang.Install.Run
import ScriptLang.Options

/-!
# The command line of the installer

The options choose a channel, a tag, a directory and a kind of build. Arguments that are not
understood end the program with its usage.
-/

namespace ScriptLang.Install

open Options

def defaultDirectory (w : World) : String := Path.join (Path.join (home w) ".ypsh") "bin"

def channels : List String := ["stable", "maybe-stable", "beta", "custom"]

def builds : List String := ["pyinstaller", "nuitka"]

private def oneOf (choices : List String) : String := "\x7b" ++ Text.join "," choices ++ "\x7d"

def grammar (w : World) : Grammar where
  program := "ypsh-setup"
  description := "Install or update YPSH for your platform."
  switches := [
    ⟨["--channel", "-c"], "Release channel", some (oneOf channels), channels, true⟩,
    ⟨["--stable"], "Use stable channel", none, [], true⟩,
    ⟨["--maybe", "--maybe-stable"], "Use Maybe Stable channel", none, [], true⟩,
    ⟨["--beta"], "Use beta channel", none, [], true⟩,
    ⟨["--tag", "-t"], "Exact release tag (required if --channel custom)", some "CUSTOM_TAG", [],
      false⟩,
    ⟨["--dest", "--to"], "Installation directory (default: " ++ defaultDirectory w ++ ")",
      some "DEST", [], false⟩,
    ⟨["--build"], "Build type (pyinstaller | nuitka). Nuitka uses '-NUI' artifacts.",
      some (oneOf builds), builds, false⟩,
    ⟨["--ignore-gatekeeper", "--ig"], "Do NOT clear macOS quarantine attribute", none, [], false⟩,
    ⟨["--no-add-path"], "Do not add install dir to PATH", none, [], false⟩,
    ⟨["--add-path"], "Force add install dir to PATH", none, [], false⟩,
    ⟨["--debug", "-v"], "Verbose logs", none, [], false⟩]
  epilog := "Examples:\n" ++
    "  ypsh-setup --channel stable\n" ++
    "  ypsh-setup --channel maybe-stable --build nuitka\n" ++
    "  ypsh-setup --channel custom --tag v1.2.3 --dest ~/.ypsh/bin\n" ++
    "  ypsh-setup --beta  # shorthand for --channel beta\n"

def channelOf (given : Given) : String :=
  match given.value? "--channel" with
  | some channel => channel
  | none =>
    if given.has "--maybe" then "maybe-stable"
    else if given.has "--beta" then "beta"
    else "stable"

/-- What the options order; the custom channel needs a tag. -/
def orderOf (w : World) (given : Given) : Except Stop Order :=
  let channel := channelOf given
  let tag := given.value? "--tag"
  if channel == "custom" && (tag.getD "").isEmpty then
    .error (.refused "--channel custom requires --tag <version>")
  else .ok {
    directory := Path.expandHome w.environment ((given.value? "--dest").getD (defaultDirectory w))
    channel, tag
    build := (given.value? "--build").getD "pyinstaller"
    keepsQuarantine := given.has "--ignore-gatekeeper"
    isVerbose := given.has "--debug"
    addsToPath := given.has "--add-path" || !given.has "--no-add-path" }

def closing : Result → List String
  | .installed directory command =>
    ["[green]Installation successful[/green] → " ++ directory,
     "Run: [cyan]" ++ Path.join directory command ++ "[/cyan]"]
  | .failed reason => ["[red]Failed:[/red] " ++ reason]

/-- Runs the installer; gives the code with which it ends early, if it does. -/
def runCommandLine (args : List String) (w : World) : Option Nat × World :=
  match (do orderOf w (← parse (grammar w) args)) with
  | .error .help => (some 0, w.emit (.out (grammar w).help))
  | .error (.refused reason) => (some 2, w.emit (.err ((grammar w).complaint reason)))
  | .ok order =>
    let (result, s) := install .terminal order { world := w }
    (none, (closing result).foldl (fun w line => w.emit (.styled line "\n")) s.world)

def runWithoutWindows (args : List String) (w : World) : Option Nat × World :=
  runCommandLine (args.filter (· != "gui"))
    (w.emit (.styled "[yellow]PySide6 not found; using CLI.[/yellow]" "\n"))

/-- Runs the installer as a program: a first `cli` among the arguments is dropped. -/
def runProgram (args : List String) (w : World) : Option Nat × World :=
  runCommandLine (args.erase "cli") w

end ScriptLang.Install
