import ScriptLang.Lint.Analysis
import ScriptLang.Run.Session

/-!
# Checking a program

All that is wrong with a program text: stray characters, then what the parser finds, then what goes
wrong in its imports, then what the analysis of its names finds.
-/

namespace ScriptLang

namespace Exec

/-- Runs a computation and gives what it raised, if anything, instead of ending with it. -/
def raisedBy (body : Exec Unit) : Exec (List Signal) :=
  tryCatch (do
    body
    pure []) fun s =>
      match s with
      | .raised _ | .returned _ | .broke | .continued => pure [s]
      | s => throw s

def noticeSignal (n : Notice) : Exec Signal := Signal.raised <$> noticeError n

def runImports : List Node → Exec (List Signal)
  | [] => pure []
  | .exprStmt (.call (.name "import") args) :: rest => do
    let root := (← get).root
    let raised ← raisedBy (Engine.standard.evaluate (.call (.name "import") args) root *> pure ())
    return raised ++ (← runImports rest)
  | _ :: rest => runImports rest

/-- What the imports and the names of a program have wrong, in an interpreter that enables its
modules twice. -/
def checkNodes (nodes : List Node) : Exec (List Signal) := do
  startInterpreter
  enable .default
  let raised ← runImports nodes
  let m ← get
  let names := (m.scopes.chain m.root).flatMap fun e => (m.scopes.scope e).vars.names
  let found := Analysis.analyze (.block nodes) (Analysis.start names [])
  return raised ++ (← found.notices.mapM noticeSignal)

def checkParsed : Except ParseStop (List Node) → Exec (List Signal)
  | .ok nodes =>
    tryCatch (checkNodes nodes) fun s =>
      match s with
      | .raised _ | .returned _ | .broke | .continued => pure [s]
      | s => throw s
  | .error (.reported n) => do
    report n
    throw .exhausted
  | .error (.raised n) => do return [← noticeSignal n]
  | .error (.failed f) => raisedBy (fail f)
  | .error .exhausted => throw .exhausted

def checkTokens (tokens : List Token) : Exec (List Signal) := do
  checkParsed (parseTokens (← get).isQuiet tokens)

def check (code : String) : Exec (List Signal) := do
  let (tokens, notices) := tokenizeReporting code
  let stray ← notices.mapM noticeSignal
  if tokens.isEmpty then pure stray else return stray ++ (← checkTokens tokens)

def showNumbered (i : Nat) : List Signal → Exec Unit
  | [] => pure ()
  | s :: rest => do
    let reason := (← signalText? s).getD ""
    emit (.styled ("[red]" ++ toString i ++ ". " ++ reason ++ "[/red]") "\n")
    showNumbered (i + 1) rest

/-- Checks a program text, shows what is wrong with it, and ends with success or failure. -/
def lint (code : String) : Exec Unit := do
  let errors ← check code
  if errors.isEmpty then
    emit (.styled "[green]Lint Passed[/green]" "\n")
    throw (.exit (.int 0))
  else
    let n := errors.length
    emit (.styled ("[red]Lint Failed (" ++ toString n ++ " exception" ++
      (if n == 1 then "" else "s") ++ ")[/red]") "\n")
    showNumbered 1 errors
    throw (.exit (.int 1))

end Exec

end ScriptLang
