import ScriptLang.Table
import ScriptLang.Text.Search

/-!
# Paths

Paths are texts with slashes. `join` puts a relative path below another one, `normalize` removes
empty and dotted steps, and `expand` fills in environment variables and the home directory.
-/

namespace ScriptLang.Path

def isAbsolute (p : String) : Bool := Text.startsWith p "/"

/-- A path below another one; an absolute path stands alone. -/
def join (base p : String) : String :=
  if isAbsolute p then p
  else if base.isEmpty || Text.endsWith base "/" then base ++ p
  else base ++ "/" ++ p

def takeSteps : List String → List String → List String
  | taken, [] => taken.reverse
  | taken, step :: rest =>
    if step == "" || step == "." then takeSteps taken rest
    else if step == ".." then takeSteps taken.tail rest
    else takeSteps (step :: taken) rest

def steps (p : String) : List String := takeSteps [] (Text.splitOn p "/")

def normalize (p : String) : String := "/" ++ Text.join "/" (steps p)

def resolve (directory p : String) : String := normalize (join directory p)

/-- A path before its last step, without the slashes between them, and the last step. -/
def cut (p : String) : String × String :=
  let last := (p.toList.reverse.takeWhile (· != '/')).reverse
  let front := p.toList.take (p.toList.length - last.length)
  let bare := (front.reverse.dropWhile (· == '/')).reverse
  (String.ofList (if bare.isEmpty then front else bare), String.ofList last)

/-- A path below a directory, without empty and single-dotted steps. -/
def tidy (directory p : String) : String :=
  "/" ++ Text.join "/" ((Text.splitOn (join directory p) "/").filter fun s => s != "" && s != ".")

def parent (p : String) : String :=
  match Text.cutLast? '/' p with
  | some (front, _) => if front.isEmpty then "/" else front
  | none => ""

def base (p : String) : String :=
  match Text.cutLast? '/' p with
  | some (_, last) => last
  | none => p

private def isWordChar (c : Char) : Bool := c.isAlphanum || c == '_'

/-- The variable reference after a dollar sign: its name and its length. -/
private def reference? : List Char → Option (List Char × Nat)
  | '{' :: cs =>
    let name := cs.takeWhile (· != '}')
    if name.length < cs.length then some (name, name.length + 2) else none
  | cs =>
    let name := cs.takeWhile isWordChar
    if name.isEmpty then none else some (name, name.length)

private def expandFrom (env : Table String) : Nat → List Char → List Char
  | _, [] => []
  | skip + 1, _ :: cs => expandFrom env skip cs
  | 0, c :: cs =>
    if c == '$' then
      match reference? cs with
      | some (name, n) =>
        match env.get? (String.ofList name) with
        | some value => value.toList ++ expandFrom env n cs
        | none => c :: cs.take n ++ expandFrom env n cs
      | none => c :: expandFrom env 0 cs
    else c :: expandFrom env 0 cs

/-- The text with references to environment variables replaced; unknown ones stay. -/
def expandVariables (env : Table String) (p : String) : String :=
  String.ofList (expandFrom env 0 p.toList)

def expandHome (env : Table String) (p : String) : String :=
  match p.toList with
  | '~' :: rest =>
    if rest.isEmpty || rest.head? == some '/' then
      let home := (env.get? "HOME").getD "/"
      let home := String.ofList (home.toList.reverse.dropWhile (· == '/')).reverse
      let p := home ++ String.ofList rest
      if p.isEmpty then "/" else p
    else p
  | _ => p

def expand (env : Table String) (p : String) : String := expandHome env (expandVariables env p)

end ScriptLang.Path
