import ScriptLang.Text.Digit
import ScriptLang.Text.Quoted
import ScriptLang.Text.Search

/-!
# Command-line options

A grammar lists the options that a program takes. Arguments are first told apart into options and
plain ones; long options may be shortened as long as one option is meant, and short ones may be
written together. The program's usage and help are printed from the same grammar.
-/

namespace ScriptLang.Options

structure Switch where
  /-- The spellings; the first one names the option. -/
  names : List String
  help : String
  /-- What stands for the value in the help; `none` if the option takes no value. -/
  value : Option String := none
  /-- The values that are allowed; none means all. -/
  choices : List String := []
  /-- Whether it shuts out the other options of this kind. -/
  isExclusive : Bool := false
  deriving DecidableEq, Repr

structure Grammar where
  program : String
  description : String
  switches : List Switch
  epilog : String := ""
  deriving Repr

inductive Stop where
  /-- Help was asked for. -/
  | help
  | refused (reason : String)
  deriving DecidableEq, Repr

/-- The options given, by their first spelling, with their values. -/
abbrev Given := List (String × Option String)

def Given.has (g : Given) (name : String) : Bool := g.any fun e => e.1 == name

def Given.value? (g : Given) (name : String) : Option String :=
  g.reverse.findSome? fun e => if e.1 == name then e.2 else none

namespace Switch

def name (s : Switch) : String := s.names.headD ""

def label (s : Switch) : String := Text.join "/" s.names

def help? (s : Switch) : Bool := s.name == "-h"

def forHelp : Switch := ⟨["-h", "--help"], "show this help message and exit", none, [], false⟩

end Switch

namespace Grammar

def all (g : Grammar) : List Switch := .forHelp :: g.switches

def spellings (g : Grammar) : List (String × Switch) :=
  g.all.flatMap fun s => s.names.map fun n => (n, s)

end Grammar

/-- A text written together with an option. -/
structure Attached where
  text : String
  /-- Whether an equals sign stands before it. -/
  hasSign : Bool
  deriving DecidableEq, Repr

inductive Piece where
  | plain (raw : String)
  /-- The mark after which all arguments are plain. -/
  | dashes
  | unknown (raw : String)
  | option (s : Switch) (name : String) (attached : Option Attached)
  deriving Repr

def isNegativeNumber (arg : String) : Bool :=
  match arg.toList with
  | '-' :: cs =>
    let (whole, rest) := cs.span Text.isDecimal
    match rest with
    | [] => !whole.isEmpty
    | '.' :: fraction => !fraction.isEmpty && fraction.all Text.isDecimal
    | _ => false
  | _ => false

def cutValue (arg : String) : String × Option Attached :=
  if arg.toList.contains '=' then
    let (name, value) := Text.cutFirst '=' arg
    (name, some ⟨value, true⟩)
  else (arg, none)

def candidates (g : Grammar) (arg : String) : List (String × Switch × Option Attached) :=
  if Text.startsWith arg "--" then
    let (name, value) := cutValue arg
    (g.spellings.filter fun e => Text.startsWith e.1 name).map fun e => (e.1, e.2, value)
  else
    let short := String.ofList (arg.toList.take 2)
    g.spellings.filterMap fun e =>
      if e.1 == short then some (e.1, e.2, some ⟨String.ofList (arg.toList.drop 2), false⟩)
      else if Text.startsWith e.1 arg then some (e.1, e.2, none)
      else none

def classify (g : Grammar) (arg : String) : Except Stop Piece :=
  if !Text.startsWith arg "-" then .ok (.plain arg)
  else
    match g.spellings.lookup arg with
    | some s => .ok (.option s arg none)
    | none =>
      if arg.length == 1 then .ok (.plain arg)
      else
        let (name, value) := cutValue arg
        match value, g.spellings.lookup name with
        | some v, some s => .ok (.option s name (some v))
        | _, _ =>
          match candidates g arg with
          | [(name, s, attached)] => .ok (.option s name attached)
          | [] =>
            if isNegativeNumber arg || arg.toList.contains ' ' then .ok (.plain arg)
            else .ok (.unknown arg)
          | several => .error (.refused ("ambiguous option: " ++ arg ++ " could match " ++
              Text.join ", " (several.map Prod.fst)))

def classifyAll (g : Grammar) : List String → Except Stop (List Piece)
  | [] => .ok []
  | "--" :: rest => .ok (.dashes :: rest.map .plain)
  | arg :: rest => do
    let piece ← classify g arg
    let pieces ← classifyAll g rest
    .ok (piece :: pieces)

def refuse {α : Type} (s : Switch) (reason : String) : Except Stop α :=
  .error (.refused ("argument " ++ s.label ++ ": " ++ reason))

structure Unfolded where
  /-- Options without values that are written together. -/
  flags : List Switch := []
  /-- The option after them, with the value that is attached. -/
  last : Option (Switch × Option String) := none
  /-- What means nothing. -/
  rest : Option String := none

/-- An option with the text attached to it, which is its value, or else the letters of other short
options. -/
def unfold (g : Grammar) (s : Switch) (isShort hasSign : Bool) :
    List Char → Except Stop Unfolded
  | [] =>
    if s.value.isSome then .ok { last := some (s, some "") }
    else refuse s ("ignored explicit argument " ++ Text.quote "")
  | c :: cs =>
    let text := String.ofList (c :: cs)
    if s.value.isSome then .ok { last := some (s, some text) }
    else if !isShort || hasSign || c == '-' then
      refuse s ("ignored explicit argument " ++ Text.quote text)
    else
      match g.spellings.lookup (String.ofList ['-', c]), cs with
      | none, _ => .ok { flags := [s], rest := some ("-" ++ text) }
      | some next, [] => .ok { flags := [s], last := some (next, none) }
      | some next, '=' :: cs => do
        let u ← unfold g next true true cs
        .ok { u with flags := s :: u.flags }
      | some next, c :: cs => do
        let u ← unfold g next true false (c :: cs)
        .ok { u with flags := s :: u.flags }

def take (g : Grammar) (given : Given) (s : Switch) (value : Option String) :
    Except Stop Given := do
  match value with
  | some v =>
    if !s.choices.isEmpty && !s.choices.contains v then
      refuse s ("invalid choice: " ++ Text.quote v ++ " (choose from " ++
        Text.join ", " (s.choices.map Text.quote) ++ ")")
  | none => pure ()
  if s.isExclusive then
    match g.switches.find? fun t => t.isExclusive && t.name != s.name && given.has t.name with
    | some t => refuse s ("not allowed with argument " ++ t.label)
    | none => pure ()
  if s.help? then .error .help
  else .ok (given ++ [(s.name, value)])

def attach (g : Grammar) (s : Switch) (name : String) : Option Attached → Except Stop Unfolded
  | none => .ok { last := some (s, none) }
  | some a => unfold g s (!Text.startsWith name "--") a.hasSign a.text.toList

/-- Takes the arguments in order; those that belong to no option are collected. -/
def takeAll (g : Grammar) : List Piece → Given → List String → Except Stop (Given × List String)
  | [], given, extras => .ok (given, extras)
  | .plain raw :: rest, given, extras => takeAll g rest given (extras ++ [raw])
  | .dashes :: rest, given, extras => takeAll g rest given (extras ++ ["--"])
  | .unknown raw :: rest, given, extras => takeAll g rest given (extras ++ [raw])
  | .option s name attached :: rest, given, extras => do
    let u ← attach g s name attached
    let extras := extras ++ u.rest.toList
    let flagged : Except Stop Given :=
      u.flags.foldlM (fun given flag => take g given flag none) given
    match u.last, rest with
    | none, rest => do
      let given ← flagged
      takeAll g rest given extras
    | some (last, some value), rest => do
      let given ← take g (← flagged) last (some value)
      takeAll g rest given extras
    | some (last, none), rest =>
      match last.value, rest with
      | none, rest => do
        let given ← take g (← flagged) last none
        takeAll g rest given extras
      | some _, .plain raw :: rest => do
        let given ← take g (← flagged) last (some raw)
        takeAll g rest given extras
      | some _, _ => refuse last "expected one argument"

def parse (g : Grammar) (args : List String) : Except Stop Given := do
  let pieces ← classifyAll g args
  let (given, extras) ← takeAll g pieces [] []
  if extras.isEmpty then .ok given
  else .error (.refused ("unrecognized arguments: " ++ Text.join " " extras))

/-! ### Usage and help -/

def width : Nat := 78

def Switch.usage (s : Switch) : String :=
  match s.value with
  | some v => s.name ++ " " ++ v
  | none => s.name

/-- The parts of the usage after the program's name; options that shut each other out are one. -/
def Grammar.usageParts (g : Grammar) : List String :=
  let exclusive := g.all.filter (·.isExclusive)
  let group := "[" ++ Text.join " | " (exclusive.map Switch.usage) ++ "]"
  g.all.filterMap fun s =>
    if !s.isExclusive then some ("[" ++ s.usage ++ "]")
    else if exclusive.head?.map Switch.name == some s.name then some group
    else none

/-- Parts laid out in lines, the first of which has `used` characters in front of it already. -/
def layOut (indent : Nat) : (line : List String) → (used : Nat) → List String → List (List String)
  | line, _, [] => [line]
  | line, used, part :: parts =>
    if used + 1 + part.length > width && !line.isEmpty then
      line :: layOut indent [part] (indent + 1 + part.length) parts
    else layOut indent (line ++ [part]) (used + 1 + part.length) parts

private def blanks (n : Nat) : String := String.ofList (List.replicate n ' ')

def Grammar.usage (g : Grammar) : String :=
  let lead := "usage: " ++ g.program
  let whole := Text.join " " (lead :: g.usageParts)
  if whole.length ≤ width then whole
  else
    let indent := lead.length
    match layOut indent [lead] lead.length g.usageParts with
    | [] => lead
    | first :: rest => Text.join "\n" (Text.join " " first ::
        rest.map fun line => blanks (indent + 1) ++ Text.join " " line)

def Switch.invocation (s : Switch) : String :=
  Text.join ", " (s.names.map fun n =>
    match s.value with
    | some v => n ++ " " ++ v
    | none => n)

def Grammar.help (g : Grammar) : String :=
  let longest := (g.all.map fun s => s.invocation.length + 2).foldl Nat.max 0
  let column := Nat.min (longest + 2) 24
  let entry (s : Switch) : String :=
    let shown := "  " ++ s.invocation
    if shown.length + 2 ≤ column then shown ++ blanks (column - shown.length) ++ s.help ++ "\n"
    else shown ++ "\n" ++ blanks column ++ s.help ++ "\n"
  let ending := if g.epilog.isEmpty then "" else "\n" ++ g.epilog
  g.usage ++ "\n\n" ++ g.description ++ "\n\noptions:\n" ++ Text.join "" (g.all.map entry) ++ ending

def Grammar.complaint (g : Grammar) (reason : String) : String :=
  g.usage ++ "\n" ++ g.program ++ ": error: " ++ reason ++ "\n"

end ScriptLang.Options
