import ScriptLang.Machine

/-!
# Reading from the user

A program asks for lines on standard input or at a prompt. At a prompt completions may be asked for
while the prompt still waits: the names of globals that start like the text before the cursor, or,
in the menu, the next part of a dotted name.
-/

namespace ScriptLang

def isCompletable (c : Char) : Bool :=
  c.isAlphanum || c == '@' || c == '_' || c == '%' || c == '.'

/-- The text before the cursor from the start of the last name in it on. -/
def lastWord (s : String) : String :=
  let cs := s.toList.reverse
  let after := cs.takeWhile fun c => !isCompletable c
  let word := (cs.drop after.length).takeWhile isCompletable
  if word.isEmpty then "" else String.ofList (after ++ word).reverse

def sortedSet (names : List String) : List String :=
  (names.mergeSort fun a b => a ≤ b).eraseReps

def menuCompletions (names : List String) (s : String) : List Completion :=
  let word := lastWord s
  let names := sortedSet names
  match Text.cutLast? '.' word with
  | some (base, after) =>
    let front := base ++ "."
    let children := names.filterMap fun n =>
      if Text.startsWith n front then
        let rest := String.ofList (n.toList.drop front.length)
        let child := (Text.cutFirst '.' rest).1
        if rest.isEmpty || !Text.startsWith child after then none else some child
      else none
    (sortedSet children).map fun c => ⟨c, some (-(after.length : Int))⟩
  | none =>
    (names.filter fun n => Text.startsWith n word).map fun n => ⟨n, some (-(word.length : Int))⟩

def cycleCompletions (names : List String) (s : String) : List Completion :=
  ((sortedSet names).filter fun n => Text.startsWith n s).map fun n => ⟨n, none⟩

namespace Exec

def completions (editor : Editor) (s : String) : Exec (List Completion) := do
  let m ← get
  let names := (m.scopes.chain m.root).flatMap fun e => (m.scopes.scope e).vars.names
  pure (match editor with
    | .menu => menuCompletions names s
    | .cycle => cycleCompletions names s)

def passTyped : Exec Unit := modify fun m => { m with typed := m.typed.tail }

def takeTyped (editor : Editor) : List Typed → Exec String
  | [] => fail (.other .endOfInput "")
  | t :: rest => do
    passTyped
    match t with
    | .line s => pure s
    | .interrupt => throw .interrupted
    | .endOfInput => fail (.other .endOfInput "")
    | .complete s =>
      emit (.completions (← completions editor s))
      takeTyped editor rest

def promptLine (editor : Editor) (prompt : String) : Exec String := do
  emit (.prompt prompt)
  takeTyped editor (← get).typed

/-- A line of standard input; one that holds only the interrupt character interrupts the program. -/
def inputLine : HostExec String := do
  let cs := (← get).world.input
  let line := cs.takeWhile (· != '\n')
  modifyWorld fun w => { w with input := (cs.drop line.length).tail }
  if cs.isEmpty then fail .endOfInput
  if line == [Char.ofNat 3] then throw .interrupted
  pure (String.ofList line)

/-- Asks the user for a line; at a prompt, completions are those that are cycled through. -/
def ask (prompt : String) : Exec String := do
  if (← get).world.asksAtPrompt then promptLine .cycle prompt
  else
    emit (.out prompt)
    inputLine

end Exec

end ScriptLang
