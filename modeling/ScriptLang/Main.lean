import ScriptLang.CommandLine

/-!
# The program

Reads the surroundings, runs the command line on them, shows what it showed and writes the files
that it changed.
-/

namespace ScriptLang

def variableNames : List String :=
  ["PATH", "HOME", "SHELL", "LANG", "LC_ALL", "USER", "PWD", "YPSH_DIR", "YPSH_LIBS_DIR",
   "YPSH_PY_EXTLIBS"]

def readVariables : IO (Table String) := do
  let found ← variableNames.mapM fun name => do
    return (← IO.getEnv name).map fun value => (name, value)
  return found.filterMap id

def withFile (directory : String) (files : Files) (path : String) : IO Files := do
  try
    let bytes ← IO.FS.readBinFile (Path.resolve directory path)
    return files.place (Path.resolve directory path) (bytes.toList.map UInt8.toNat)
  catch _ => return files

def linesOf (text : String) : List String :=
  let ls := Text.splitOn text "\n"
  if ls.getLast? == some "" then ls.dropLast else ls

/-- The surroundings of a run with some arguments, and what is typed at its prompt. -/
def readWorld (args : List String) : IO (World × List Typed) := do
  let directory := (← IO.currentDir).toString
  let home := Path.parent (← IO.appPath).toString
  let environment ← readVariables
  let stdin ← IO.getStdin
  let isTerminal ← stdin.isTty
  let input := Text.ofBytes ((← stdin.readBinToEnd).toList.map UInt8.toNat)
  let names := args ++ Exec.startNames ++ Exec.startNames.map (Path.join home)
  let start : Files := Files.makeDirectories [] directory
  let files ← names.foldlM (withFile directory) start
  let world := { files, directory, shellDirectory := directory, environment, home, isTerminal
                 libraries := (environment.get? "YPSH_LIBS_DIR").getD ""
                 input := if isTerminal then [] else input.toList }
  return (world, if isTerminal then (linesOf input).map .line else [])

def showEvent : Event → IO Unit
  | .out s => do (← IO.getStdout).putStr s
  | .err s => do (← IO.getStderr).putStr s
  | .styled s ending => do (← IO.getStdout).putStr (s ++ ending)
  | .prompt s => do (← IO.getStdout).putStr s
  | .system _ | .completions _ => pure ()

/-- Writes the files that differ from those before the run. -/
def writeChanges (before after : Files) : IO Unit :=
  after.forM fun (path, entry) => do
    match entry with
    | .directory => if !before.has path then IO.FS.createDirAll path
    | .file bytes _ =>
      if before.bytes? path != some bytes then
        IO.FS.writeBinFile path (bytes.map Nat.toUInt8).toByteArray

/-- The exit code of an outcome, and what is said about a failure. -/
def ending (m : Machine) : Except Signal Unit → UInt32 × Option String
  | .ok _ => (0, none)
  | .error (.exit .none) => (0, none)
  | .error (.exit (.int i)) => (i.toNat.toUInt32, none)
  | .error (.exit v) | .error (.raised v) => (1, (m.store.text m.reader v).toOption)
  | .error _ => (1, none)

def runProgram (args : List String) : IO UInt32 := do
  let (world, typed) ← readWorld args
  let (_, m) := Machine.start Settings.standard world typed
  let (outcome, m) := (Exec.runCommandLine args).run m
  m.world.transcript.forM showEvent
  writeChanges world.files m.world.files
  let (code, reason) := ending m outcome
  match reason with
  | some text => (← IO.getStderr).putStrLn text
  | none => pure ()
  return code

end ScriptLang

def main (args : List String) : IO UInt32 := ScriptLang.runProgram args
