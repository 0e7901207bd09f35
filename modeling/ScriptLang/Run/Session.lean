import ScriptLang.Run.Interpreter
import ScriptLang.Run.Settings

/-!
# Sessions

A session is an interpreter with the default modules, in which programs are run one after the other.
-/

namespace ScriptLang

namespace Exec

/-- Starts an interpreter: an empty outermost scope with the default modules. -/
def startInterpreter : Exec Unit := do
  restart .default
  modify fun m => { m with current := m.root }

/-- Runs a computation, and another one on the error that it raises. Whatever else a computation
ends with, such as a loop that is left outside of a loop, counts as an error too, unless it ends the
program. -/
def onFailure {α : Type} (body : Exec α) (handler : String → Exec α) : Exec α :=
  tryCatch body fun s => do
    match ← signalText? s with
    | some reason => handler reason
    | none => throw s

/-- Runs a program by itself in a new interpreter. Errors are shown, and end with a failure. -/
def runText (code : String) : Exec Unit :=
  onFailure (do
    let nodes ← parse code
    startInterpreter
    let _ ← Engine.standard.interpretAll nodes) fun reason => do
      emit (.styled ("[red]" ++ reason ++ "[/red]") "\n")
      throw (.exit (.int 1))

end Exec

/-- A machine with given settings; notices are read in a language and shown from a level on. -/
def Machine.start (settings : Datum) (world : World) (typed : List Typed) :
    Except Signal Unit × Machine :=
  (Exec.useSettings settings : Exec Unit).run { world, typed }

end ScriptLang
