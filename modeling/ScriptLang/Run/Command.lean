import ScriptLang.Run.Item
import ScriptLang.Shell.Split

/-!
# Shell commands of a program

A program keeps a current directory for its shell commands. The command `cd` changes it; every other
command is run by the shell, with a few variables that tell about the interpreter.
-/

namespace ScriptLang

namespace Exec

def shellResult (status : Int) (out err : String) : HostExec Value :=
  allocValue (.record .shellResult [
    ("code", .int status), ("return_code", .int status), ("zero", .bool (status == 0)),
    ("non_zero", .bool (status != 0)), ("stdout", .text out), ("stderr", .text err)])

/-- The variables of a command: those given, else those of the process, and those about the
interpreter. -/
def shellVariables (env : Value) : HostExec (List (Value × Value)) := do
  let m ← get
  let base ←
    if m.store.truth env then
      match m.store.ofValue? env with
      | some (.dict entries) => pure entries
      | some (.list _) =>
        fail (.other .wrongType "list indices must be integers or slices, not str")
      | _ => fail (.noAttribute (← typeName env) "copy")
    else pure (m.world.environment.map fun e => (.text e.1, .text e.2))
  let option (name : String) : Value := (m.options.get? name).getD .none
  let own : List (Value × Value) := [(.text "SHELL", .text m.shellName),
    (.text "YPSH_VERSION", option "product_release_version_text"),
    (.text "YPSH_BUILDID", option "product_build")]
  pure (own.foldl (fun entries e => m.store.insert entries e.1 e.2) base)

/-- A variable or its value as the shell gets it, which has to be a text. -/
private def variableText (v : Value) : HostExec String := do
  match v with
  | .text s => pure s
  | _ => fail (.other .wrongType
      ("expected str, bytes or os.PathLike object, not " ++ (← typeName v)))

def variableTexts (entries : List (Value × Value)) : HostExec (Table String) :=
  entries.mapM fun e => do
    let name ← variableText e.1
    if name.toList.contains '=' then
      fail (.other .badValue "illegal environment variable name")
    return (name, ← variableText e.2)

def changeDirectory (command : String) : HostExec Value := do
  let words ← ofExcept (Shell.splitWords command)
  let w := (← get).world
  let target := Path.expand w.environment ((words[1]?).getD "~")
  let path :=
    if Text.startsWith target "/" then target else Path.resolve w.shellDirectory target
  if w.files.has (Path.normalize path) then
    modifyWorld fun w => { w with shellDirectory := path }
    shellResult 0 "YPShell: Successfully Changed CWD." ""
  else shellResult 1 "" "YPShell: No such file or directory."

private def outputText (bytes : List Nat) : String :=
  String.ofList (Files.universalNewlines (Text.ofBytes bytes).toList)

def runShell (command : String) (env : Value) : HostExec Value := do
  let entries ← shellVariables env
  if (Text.cutFirst ' ' command).1 == "cd" then changeDirectory command
  else
    let environment ← variableTexts entries
    let w := (← get).world
    let directory := Path.normalize w.shellDirectory
    match w.files.entry? directory with
    | none => fail (.fileMissing w.shellDirectory)
    | some (.file ..) => fail (.notADirectory w.shellDirectory)
    | some .directory =>
      let s := w.tools.shell w.files directory environment (Path.expand w.environment command)
      modifyWorld fun w => { w with files := s.files }
      shellResult s.status (outputText s.out) (outputText s.err)

def printShell (command : String) : HostExec Unit := do
  let v ← runShell command .none
  match ← objOf? v with
  | some (.record _ fields) =>
    let out ← text ((fields.get? "stdout").getD (.text ""))
    let err ← text ((fields.get? "stderr").getD (.text ""))
    emit (.out (out ++ "\n"))
    emit (.out (err ++ "\n"))
  | _ => pure ()

end Exec

end ScriptLang
