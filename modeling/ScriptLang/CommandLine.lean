import ScriptLang.Directory
import ScriptLang.Lint.Check
import ScriptLang.Prompt

/-!
# The command line

The arguments choose what is done: show the version, install the launcher of the package manager,
check a program, open the prompt, run a program. A program comes from an argument, a file or the
standard input. Without any of these a start-up script is run, or the prompt is opened.
-/

namespace ScriptLang

/-- What the arguments ask for. -/
structure Invocation where
  version : Bool := false
  lint : Bool := false
  /-- Whether other arguments are programs rather than files. -/
  takesCode : Bool := false
  prompt : Bool := false
  install : Bool := false
  /-- The program to run. -/
  code : Option String := none
  /-- Whether something was asked for that keeps the prompt from opening by itself. -/
  isDecided : Bool := false
  deriving DecidableEq, Repr

inductive Action where
  | version
  | install
  | lint (code : Option String)
  | prompt
  | run (code : String)
  /-- Runs a start-up script, or opens the prompt if there is none. -/
  | start
  deriving DecidableEq, Repr

def Invocation.actions (i : Invocation) : List Action :=
  (if i.version then [.version] else []) ++ (if i.install then [.install] else []) ++
    (if i.lint then [.lint i.code] else []) ++ (if i.prompt then [.prompt] else []) ++
    match i.code with
    | some code => [.run code]
    | none => if i.isDecided then [] else [.start]

/-- The meaning of a single argument, without its dashes and in lower case. -/
inductive Flag where
  | version | input | lint | code | prompt | install | other
  deriving DecidableEq, Repr

def Flag.ofArgument (arg : String) : Flag :=
  match Text.lower (Text.replace arg "-" "") with
  | "version" | "v" => .version
  | "s" | "stdin" => .input
  | "l" | "lint" => .lint
  | "c" | "code" => .code
  | "r" | "repl" => .prompt
  | "ypms" => .install
  | _ => .other

namespace Exec

def readInput : Exec String := do
  let cs := (← get).world.input
  modifyWorld fun w => { w with input := [] }
  pure (String.ofList cs)

/-- Takes an argument that is a program or names a file with one. -/
def takeProgram (i : Invocation) (arg : String) : Exec Invocation := do
  if i.takesCode then pure { i with code := some arg, isDecided := true }
  else
    let w := (← get).world
    if !w.files.isFile (w.resolve arg) then
      emit (.styled ("[red]File not found: " ++ arg ++ "[/red]") "\n")
      throw (.exit (.int 1))
    let code ← readText arg
    pure { i with code := some code, isDecided := true }

def takeArguments (isPiped : Bool) : Invocation → List String → Exec Invocation
  | i, [] => pure i
  | i, arg :: rest => do
    let i ← match Flag.ofArgument arg with
      | .version => pure { i with version := true, isDecided := true }
      | .input => if isPiped then pure { i with code := some (← readInput) } else pure i
      | .lint => pure { i with lint := true }
      | .code => pure { i with takesCode := true }
      | .prompt => pure { i with prompt := true, isDecided := true }
      | .install => pure { i with install := true, isDecided := true }
      | .other => takeProgram i arg
    takeArguments isPiped i rest

def launcherAddress : String := "https://ypsh-dgc.github.io/YPMS/ypms-launcher.py"

/-- Changes the surroundings; a change that fails changes nothing. -/
def changeWorld (f : World → Except Failure World) : Exec Unit := do
  let w ← ofExcept (f (← get).world)
  modifyWorld fun _ => w

def installLauncher : Exec Unit := do
  emit (.out "YPSH: Install/Update YPMS-Launcher: Started\n")
  let w := (← get).world
  let base := match w.environment.get? "YPSH_DIR" with
    | some d => if d.isEmpty then Path.expandHome w.environment "~/.ypsh" else d
    | none => Path.expandHome w.environment "~/.ypsh"
  let directory := Path.join base "bin"
  changeWorld fun w => w.makeDirectories directory
  match w.reply launcherAddress with
  | .refused reason => fail (.unreachable reason)
  | .response status body _ _ =>
    if status != 200 then fail (.httpStatus status)
    let target := Path.join directory "ypms"
    changeWorld fun w => w.putFile target body
    modifyWorld fun w => { w with files := w.files.setMode (w.resolve target) 0o755 }
  emit (.out "YPSH: Install/Update YPMS-Launcher: Finished\n")

/-- The start-up script in the program's own directory or the current one. -/
def startScript? (w : World) (names : List String) : Option String :=
  [w.home, w.directory].findSome? fun d =>
    (names.map (Path.join d)).find? fun p => w.files.isFile (w.resolve p)

def startNames : List String :=
  ["__autorun__.ypsh", "autorun.ypsh", "__main__.ypsh", "main.ypsh"]

def option (name : String) : Exec Value := do
  return ((← get).options.get? name).getD .none

def showVersion (ending : String) : Exec Unit := do
  let version ← text (← option "product_release_version_text")
  emit (.out (version ++ ending))

/-- Runs the script that the settings ask for, if any, and ends then. -/
def runConfigured : Exec Unit := do
  match ← option "runtime_autorun_script" with
  | .none => pure ()
  | .text code =>
    runText code
    throw (.exit (.int 0))
  | v =>
    onFailure (do fail (.textNeeded (← typeName v))) fun reason => do
      emit (.styled ("[red]" ++ reason ++ "[/red]") "\n")
      throw (.exit (.int 1))

def perform : Action → Exec Unit
  | .version => showVersion "\n"
  | .install => installLauncher
  | .lint (some code) => lint code
  | .lint none => do
    emit (.styled "[red]No Code Received.[/red]" "\n")
    throw (.exit (.int 1))
  | .prompt => prompt
  | .run code => runText code
  | .start => do
    match startScript? (← get).world startNames with
    | some path => runText (← readText path)
    | none =>
      showVersion " [REPL]\n"
      prompt

def runCommandLine (args : List String) : Exec Unit := do
  runConfigured
  let isPiped := !(← get).world.isTerminal
  let start : Invocation ← if isPiped then pure { code := some (← readInput) } else pure {}
  let i ← takeArguments isPiped start args
  i.actions.forM perform

end Exec

end ScriptLang
