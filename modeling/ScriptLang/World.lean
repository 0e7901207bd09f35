import ScriptLang.Datum
import ScriptLang.Failure
import ScriptLang.Files

/-!
# The surroundings of a run

What a program can see besides its own text: files, environment variables, standard input, and
answers from the network; and what can happen at a prompt. What a program shows is a list of events.

The other programs that a run makes use of are not modelled: they are functions that the
surroundings come with.
-/

namespace ScriptLang

inductive Typed where
  | line (s : String)
  | interrupt
  | endOfInput
  /-- Completions are asked for while a text stands at the prompt. -/
  | complete (text : String)
  deriving DecidableEq, Repr, Inhabited

inductive Reply where
  | response (status : Nat) (body : List Nat) (length : Option String) (chunks : Option (List Nat))
  | refused (reason : String)
  deriving Repr, Inhabited

/-- A completion, and where it starts relative to the cursor if the prompt shows that. -/
structure Completion where
  text : String
  start : Option Int := none
  deriving DecidableEq, Repr, Inhabited

inductive Event where
  | out (s : String)
  | err (s : String)
  /-- Text with markup, and what is written after it. -/
  | styled (s ending : String)
  | prompt (s : String)
  | system (command : String)
  | completions (items : List Completion)
  deriving DecidableEq, Repr, Inhabited

inductive Editor where
  /-- Full-screen editing with a completion menu. -/
  | menu
  /-- Line editing that cycles through completions. -/
  | cycle
  deriving DecidableEq, Repr, Inhabited

structure ShellRun where
  files : Files
  status : Nat := 0
  out : List Nat := []
  err : List Nat := []

/-- The programs that a run makes use of, and what the system tells about itself. -/
structure Tools where
  /-- Runs a command of the shell in a directory and with given settings. -/
  shell (files : Files) (directory : String) (settings : Table String) (command : String) :
    ShellRun := { files }
  /-- Takes the member of a name out of an archive. -/
  extract (archive : List Nat) (name : String) : Except Failure (List Nat) :=
    .error (.archiveItem name)
  /-- What a file of plain definitions defines. -/
  definitions (code : String) : Except Failure (Table Datum) := .ok []
  /-- The amounts of memory that are known, by name. -/
  memory : Table Datum := []
  deriving Inhabited

structure World where
  files : Files := []
  /-- The current directory of the process. -/
  directory : String := "/"
  /-- The current directory of shell commands. -/
  shellDirectory : String := "/"
  environment : Table String := []
  input : List Char := []
  isTerminal : Bool := false
  editor : Editor := .menu
  /-- Whether questions are answered at the prompt rather than from standard input. -/
  asksAtPrompt : Bool := false
  replies : Table Reply := []
  /-- Directories searched for libraries, the latest first. -/
  searchPath : List String := []
  /-- Where libraries are installed. -/
  libraries : String := ""
  /-- Where the program itself lies. -/
  home : String := ""
  /-- The operating system and the processor, as they name themselves. -/
  system : String := "Linux"
  machine : String := "x86_64"
  tools : Tools := {}
  /-- What was shown, the latest event first. -/
  events : List Event := []
  deriving Inhabited

namespace World

/-- Shows an event; text on one stream joins text just shown on the same stream, and empty text is
not shown. -/
def emit (w : World) (e : Event) : World :=
  let events := match e, w.events with
    | .out "", rest | .err "", rest => rest
    | .out s, .out t :: rest => .out (t ++ s) :: rest
    | .err s, .err t :: rest => .err (t ++ s) :: rest
    | e, rest => e :: rest
  { w with events }

def transcript (w : World) : List Event := w.events.reverse

def resolve (w : World) (p : String) : String := Path.resolve w.directory p

/-- The answer to a request for an address; an unknown address cannot be reached. -/
def reply (w : World) (address : String) : Reply :=
  (w.replies.get? address).getD (.refused ("unreachable: " ++ address))

end World

end ScriptLang
