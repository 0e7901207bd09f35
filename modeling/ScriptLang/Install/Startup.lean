import ScriptLang.Directory
import ScriptLang.Text.Case

/-!
# Registering a directory with the shell

A directory is put on the search path of commands by a line at the end of the start-up files of the
user's shell. Nothing is added if one of the known start-up files mentions the directory already.
-/

namespace ScriptLang.Install

abbrev Task := ExceptT Failure (StateM World)

/-- Does a change that may fail; a change that fails changes nothing. -/
def change (f : World → Except Failure World) : Task Unit := do
  match f (← get) with
  | .ok w => set w
  | .error e => throw e

def home (w : World) : String := Path.expandHome w.environment "~"

def startupNames : List String := [".zprofile", ".zshrc", ".bash_profile", ".bashrc", ".profile"]

def startupNamesOf (shell : String) : List String :=
  if Text.contains shell "zsh" then [".zprofile", ".zshrc"]
  else if Text.contains shell "bash" then [".bash_profile", ".bashrc"]
  else [".profile"]

def shellName (w : World) : String :=
  Text.lower (Path.base ((w.environment.get? "SHELL").getD "bash"))

def mentions (w : World) (path text : String) : Bool :=
  match w.contentsOf? path with
  | some s => Text.contains s text
  | none => false

def startupLine (directory : String) : String :=
  "\n# Added by YPSH installer\nexport PATH=\"" ++ directory ++ ":$PATH\"\n"

/-- Adds a directory to those of some files that are there and do not mention it; gives the files
that changed. -/
def addToEach (directory : String) : List String → Task (List String)
  | [] => pure []
  | path :: rest => do
    let w ← get
    if w.has path && !mentions w path directory then
      change fun w => w.extendFile path (startupLine directory)
      return path :: (← addToEach directory rest)
    else addToEach directory rest

def addToStartup (directory : String) : Task (List String) := do
  let w ← get
  let inHome := Path.join (home w)
  if (startupNames.map inHome).any fun p => mentions w p directory then pure []
  else
    let chosen := (startupNamesOf (shellName w)).map inHome
    if chosen.any w.has then addToEach directory chosen
    else
      let target := chosen.headD ""
      change fun w => w.makeDirectories (Path.parent target)
      change fun w => w.extendFile target (startupLine directory)
      pure [target]

/-- Puts a directory on the search path by the registry of the system, which only a native program
for that system can change. -/
def addToRegistry (_directory : String) : Bool := false

def addToPath (directory : String) : Task String := do
  match (← get).system with
  | "Darwin" | "Linux" =>
    let changed ← addToStartup directory
    if changed.isEmpty then pure "PATH already contained install dir (or update not needed)."
    else pure ("PATH updated in: " ++ Text.join ", " (changed.map Path.base))
  | "Windows" =>
    if addToRegistry directory then pure "PATH updated for current user."
    else pure "PATH already contained install dir (or update failed)."
  | _ => pure "PATH update not supported on this OS."

end ScriptLang.Install
