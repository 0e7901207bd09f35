import ScriptLang.Install.Release
import ScriptLang.Install.Startup
import ScriptLang.Number.Reading

/-!
# Installing a release

An installation finds the release, downloads its archive, takes the program out of it, puts it into
a directory and puts that directory on the search path. Every failure becomes part of the result.
-/

namespace ScriptLang.Install

/-- What is to be installed, and how. -/
structure Order where
  directory : String
  channel : String
  /-- The tag that is installed if the channel is `custom`. -/
  tag : Option String := none
  build : String
  keepsQuarantine : Bool := false
  isVerbose : Bool := false
  addsToPath : Bool := true
  deriving DecidableEq, Repr

inductive Audience where
  | nobody
  /-- The messages and the percentages are kept. -/
  | recorder
  /-- The messages are printed. -/
  | terminal
  deriving DecidableEq, Repr

inductive Result where
  | installed (directory command : String)
  | failed (reason : String)
  deriving DecidableEq, Repr

structure State where
  world : World
  messages : List String := []
  progress : List Int := []

abbrev Step := ExceptT Failure (StateM State)

def onWorld {α : Type} (t : Task α) : Step α := fun s =>
  let (outcome, world) := t.run s.world
  (outcome, { s with world })

def printLine (text : String) : Step Unit :=
  modify fun s => { s with world := s.world.emit (.styled text "\n") }

def tell (a : Audience) (o : Order) (text : String) : Step Unit := do
  match a with
  | .recorder => modify fun s => { s with messages := s.messages ++ [text] }
  | .terminal => printLine text
  | .nobody => pure ()
  if o.isVerbose then printLine text

def reach (a : Audience) (percent : Int) : Step Unit := do
  match a with
  | .recorder => modify fun s => { s with progress := s.progress ++ [max 0 (min 100 percent)] }
  | _ => pure ()

def ofExcept {α : Type} : Except Failure α → Step α
  | .ok a => pure a
  | .error f => throw f

/-- The length that an answer announces; zero counts as none. -/
def announced (d : Download) : Except Failure (Option Int) := do
  let text := d.length.getD "0"
  let n ← Number.readInt 10 text (Text.quote text)
  .ok (if n == 0 then none else some n)

def percentAfter (got : Nat) (total : Int) : Int :=
  let share := (Number.divInt? got total).getD 0.0
  5 + (Number.truncate? (65.0 * share)).getD 0

def receive (a : Audience) (total : Option Int) : List Nat → List (List Nat) → Step (List Nat)
  | got, [] => pure got
  | got, piece :: rest => do
    if piece.isEmpty then receive a total got rest
    else
      let got := got ++ piece
      match total with
      | some n => reach a (percentAfter got.length n)
      | none => pure ()
      receive a total got rest

/-- Puts a program into its place; a directory in its place takes it in under its old name. -/
def place (path binary : String) (bytes : List Nat) (w : World) : Except Failure World :=
  if w.files.isDirectory (w.resolve path) then w.putFile (Path.join path binary) bytes
  else do
    let w ← w.putFile path bytes
    .ok { w with files := w.files.setMode (w.resolve path) 0o755 }

/-- Lets a downloaded program run on a system that keeps such programs from running. -/
def clearQuarantine (path : String) : Task Unit :=
  modify fun w => w.emit (.system ("xattr -d com.apple.quarantine '" ++ path ++ "'"))

def installRelease (a : Audience) (o : Order) (r : Release) : Step Result := do
  tell a o ("Downloading: [cyan]" ++ r.address ++ "[/cyan]")
  reach a 5
  let answer ← ofExcept (download (← get).world r.address)
  let total ← ofExcept (announced answer)
  let bytes ← receive a total [] answer.pieces
  tell a o "Extracting archive…"
  reach a 75
  let program ← ofExcept ((← get).world.tools.extract bytes r.artifact.binary)
  onWorld (change fun w => w.makeDirectories o.directory)
  let path := Path.join o.directory r.artifact.command
  tell a o ("Installing to: " ++ path)
  onWorld (change (place path r.artifact.binary program))
  reach a 88
  if r.target.hasQuarantine && !o.keepsQuarantine then
    tell a o "Clearing macOS quarantine flag (Gatekeeper)…"
    onWorld (clearQuarantine path)
  reach a 92
  if o.addsToPath then
    tell a o "Adding install directory to PATH for future sessions…"
    let outcome ← onWorld (addToPath o.directory)
    tell a o outcome
  reach a 100
  pure (.installed o.directory r.artifact.command)

def orderedTag (w : World) (o : Order) : Except Failure String :=
  if o.channel == "custom" then .ok (o.tag.getD "") else channelTag w o.channel

def steps (a : Audience) (o : Order) : Step Result := do
  reach a 1
  tell a o "[bold]Resolving release tag…[/bold]"
  let w := (← get).world
  let tag ← ofExcept (orderedTag w o)
  if tag.isEmpty then
    pure (.failed "Could not resolve a release tag for the selected channel.")
  else
    match Release.of tag o.build w.system w.machine with
    | .error f => pure (.failed f.message)
    | .ok r => installRelease a o r

def Result.ofFailure (f : Failure) : Result :=
  match f with
  | .refusedStatus .. => .failed ("HTTP error: " ++ f.message)
  | f => .failed ("Unhandled error: " ++ f.message)

def install (a : Audience) (o : Order) (s : State) : Result × State :=
  match (steps a o).run s with
  | (.ok r, s) => (r, s)
  | (.error f, s) => (.ofFailure f, s)

end ScriptLang.Install
