import ScriptLang.Run.Input
import ScriptLang.Run.Session

/-!
# The prompt

Lines are gathered until their brackets are balanced, and then run as a program; the value of the
last statement is printed. An interrupt drops the lines gathered so far.

The two line editors differ in how they are guarded against an interrupt and the end of what is
typed, and in the completions that they offer.
-/

namespace ScriptLang

inductive PromptReply where
  | line (s : String)
  | interrupted
  | ended
  deriving DecidableEq, Repr

inductive Turn where
  /-- The prompt is left. -/
  | leave
  /-- The lines gathered so far are dropped. -/
  | drop
  /-- More lines are waited for. -/
  | gather (code : String)
  | evaluate (code : String)
  deriving DecidableEq, Repr

def promptText (gathered : String) : String := if gathered.isEmpty then ">>> " else "... "

def leaves (line : String) : Bool := ["exit", "quit"].contains (Text.lower (Text.strip line))

def turnOf (gathered : String) : PromptReply → Turn
  | .ended => .leave
  | .interrupted => .drop
  | .line s =>
    if leaves s then .leave
    else
      let code := gathered ++ s ++ "\n"
      if isComplete code then .evaluate code else .gather code

namespace Exec

/-- Takes an interrupt and the end of what is typed for replies. -/
def replying (x : Exec PromptReply) : Exec PromptReply :=
  tryCatch x fun s =>
    match s with
    | .interrupted => pure .interrupted
    | .raised _ => pure .ended
    | s => throw s

/-- Asks for a line at the prompt. The editor that cycles is guarded twice. -/
def promptReply (editor : Editor) (prompt : String) : Exec PromptReply :=
  match editor with
  | .menu => replying (PromptReply.line <$> promptLine editor prompt)
  | .cycle => replying (replying (PromptReply.line <$> promptLine editor prompt))

def showValue (code : String) : Exec Unit := do
  let v ← interpretText code
  match v with
  | .none => pure ()
  | v => emit (.out ((← text v) ++ "\n"))

def showSignal (s : Signal) : Exec Unit := do
  match ← signalText? s with
  | some reason => emit (.styled ("[red]" ++ reason ++ "[/red]") "\n")
  | none => throw s

/-- Deals with the signal that has ended an evaluation; tells whether the prompt goes on. -/
def afterSignal : Signal → Exec Bool
  | .exit code => equal code (.int 1)
  | .interrupted => do
    emit (.out "\n")
    pure true
  | s => do
    showSignal s
    pure true

def runAtPrompt (code : String) : Exec Bool :=
  tryCatch (do
    showValue code
    pure true) afterSignal

/-- Does what a reply led to; gives what is then gathered, unless the prompt ends. -/
def takeTurn : Turn → Exec (Option String)
  | .leave => pure none
  | .drop => do
    emit (.out "\n")
    pure (some "")
  | .gather code => pure (some code)
  | .evaluate code => do return if ← runAtPrompt code then some "" else none

/-- Reads and runs lines after those gathered so far, for at most `rounds` prompts. -/
def promptFrom (editor : Editor) : (rounds : Nat) → (gathered : String) → Exec Unit
  | 0, _ => throw .exhausted
  | rounds + 1, gathered => do
    let reply ← promptReply editor (promptText gathered)
    match ← takeTurn (turnOf gathered reply) with
    | some gathered => promptFrom editor rounds gathered
    | none => pure ()

/-- Reads and runs lines until the prompt ends. Each prompt takes something that is typed, or is the
last one. -/
def promptLoop (editor : Editor) : Exec Unit := do
  promptFrom editor ((← get).typed.length + 1) ""

def prompt : Exec Unit := do
  startInterpreter
  promptLoop (← get).world.editor

end Exec

end ScriptLang
