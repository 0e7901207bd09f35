import ScriptLang.Run.Engine
import ScriptLang.Run.Module
import ScriptLang.Run.Settings

/-!
# Importing libraries

A library is looked for by name: as a file or folder in the current directories and the library
directory, then anywhere below the library directory, then among the built-in modules, and last as
plain definitions on the search path. What it defines can be renamed into a module of its own, or
restricted to a list of names.
-/

namespace ScriptLang

structure Request where
  lib : String
  /-- The module that the new names go into; nothing leaves them as they are. -/
  module : Value := .none
  /-- The names that are wanted; none means all. -/
  only : Option (List Value) := none
  paths : List Value := []

inductive LibrarySource where
  | program (path : String)
  | plain (path : String)
  /-- A folder of plain definitions, by the directory it lies in. -/
  | folder (directory : String)
  deriving DecidableEq, Repr

namespace World

def sourceIn? (w : World) (directory name : String) : Option LibrarySource :=
  let isFile (p : String) : Bool := w.files.isFile (w.resolve p)
  let program := Path.join directory (name ++ ".ypsh")
  let plain := Path.join directory (name ++ ".py")
  let folder := Path.join directory name
  let inside (file : String) : String := Path.join folder file
  if isFile program then some (.program program)
  else if isFile plain then some (.plain plain)
  else if w.files.isDirectory (w.resolve folder) then
    if isFile (inside "__init__.ypsh") then some (.program (inside "__init__.ypsh"))
    else if isFile (inside "__import__.ypsh") then some (.program (inside "__import__.ypsh"))
    else if isFile (inside "__init__.py") || isFile (inside "__import__.py") then
      some (.folder directory)
    else none
  else none

def bases (w : World) : List String :=
  let current := if w.shellDirectory == w.directory then [w.directory]
    else [w.shellDirectory, w.directory]
  (current ++ [w.libraries]).filter fun d => !d.isEmpty && w.files.isDirectory (w.resolve d)

def source? (w : World) (name : String) : Option LibrarySource :=
  w.bases.findSome? fun d => w.sourceIn? d name

/-- The file of a name that lies least deep below the library directory. -/
def deepFile? (w : World) (name : String) : Option String :=
  if w.libraries.isEmpty || !w.files.isDirectory (w.resolve w.libraries) then none
  else w.files.shallowest? w.libraries name w.directory

end World

namespace Exec

/-- A file below the library directory; a search once made is not made again. -/
def searchLibraries (name : String) : HostExec (Option String) := do
  let m ← get
  match m.searches.get? name with
  | some found => pure found
  | none =>
    let found := m.world.deepFile? name
    set { m with searches := m.searches.set name found }
    pure found

def readText (path : String) : HostExec String := do
  let w := (← get).world
  match w.files.text? (w.resolve path) with
  | some s => pure s
  | none =>
    match w.files.entry? (w.resolve path) with
    | some .directory => fail (.isADirectory path)
    | some (.file bytes _) => fail (.other .badEscape (Text.decodingFault 0 0 bytes))
    | none => fail (.fileMissing path)

def readPlain (path : String) : HostExec (Table Value) := do
  let code ← readText path
  let ds ← ofExcept ((← get).world.tools.definitions code)
  ds.mapM fun e => return (e.1, ← valueOfDatum e.2)

def checkFile (path : String) : HostExec Unit := do
  let w := (← get).world
  if !w.files.isFile (w.resolve path) then report (.fileMissing path)

/-- Makes the definitions of a file global, after the table of provided functions that comes with
such files. -/
def importPlain (path : String) : Exec Unit := do
  checkFile path
  let ds ← readPlain path
  let provided ← newDict []
  let root := (← get).root
  for (name, v) in ("__builtins__", provided) :: ds do assignName root name v

def globalNames : Exec (List String) := do
  let m ← get
  pure (m.scopes.scope m.root).vars.names

def moveInto (module : Value) (name : String) : Exec Unit := do
  let root := (← get).root
  let v ← lookup root name
  let described (front : String) : Exec Value := do
    return (← doc? (.text (front ++ name))).getD .none
  let own ← described "root."
  let doc ← if ← truth own then pure own else described "@."
  define module (.text name) v doc

def orElseOnError {α : Type} (x : Exec α) (a : α) : Exec α :=
  tryCatch x fun s =>
    match s with
    | .raised _ => pure a
    | s => throw s

/-- Treats the globals that are new since `before` as a request asks. -/
def settleNames (before : List String) (r : Request) : Exec Unit := do
  let root := (← get).root
  let fresh := (← globalNames).filter fun n => !before.contains n
  let st := (← get).store
  if !fresh.isEmpty then
    match (r.only.getD []).find? fun v => !st.isHashable v with
    | some v => fail (.unhashable (st.typeName v))
    | none => pure ()
  let isWanted (n : String) : Bool := match r.only with
    | some wanted => wanted.any fun v => st.equalItem v (.text n)
    | none => true
  let keep := fresh.filter isWanted
  let drop := fresh.filter fun n => !isWanted n
  if ← truth r.module then
    for n in keep do
      orElseOnError (moveInto r.module n) ()
      modifyScopes fun ss => ss.unset root n
  for n in drop do modifyScopes fun ss => ss.unset root n

def importProgram (g : Engine) (path : String) (r : Request) : Exec Unit := do
  let before ← globalNames
  checkFile path
  let code ← readText path
  let _ ← g.interpretText code
  settleNames before r

/-- The file of a module on the search path. A folder without a file of its own is a module without
a file, if there is no other one. -/
private def moduleFile? (w : World) (name : String) : Option (Option String) :=
  let below := Text.replace name "." "/"
  let file := w.searchPath.findSome? fun d =>
    let plain := Path.join d (below ++ ".py")
    let init := Path.join (Path.join d below) "__init__.py"
    if w.files.isFile (w.resolve init) then some init
    else if w.files.isFile (w.resolve plain) then some plain
    else none
  match file with
  | some path => some (some path)
  | none =>
    if w.searchPath.any fun d => w.files.isDirectory (w.resolve (Path.join d below)) then some none
    else none

/-- The definitions of a module on the search path; a module is read only once. -/
def loadModule (name : String) : HostExec (Table Value) := do
  let m ← get
  match m.loaded.get? name with
  | some ds => pure ds
  | none =>
    match moduleFile? m.world name with
    | none => fail (.moduleMissing name)
    | some file =>
      let ds ← match file with
        | some path => readPlain path
        | none => pure []
      modify fun m => { m with loaded := m.loaded.set name ds }
      pure ds

private def sortedNames (names : List String) : List String :=
  names.mergeSort fun a b => a ≤ b

/-- Imports a module from the search path: its public names in sorted order, or those wanted. -/
def importModule (r : Request) (paths : List Value) : Exec Unit := do
  for p in ← extraPaths do addSearchPath p
  for v in paths do
    match v with
    | .text p => addSearchPath p
    | _ => fail (.other .wrongType
        ("expected str, bytes or os.PathLike object, not " ++ (← typeName v)))
  let ds ← loadModule r.lib
  let aliased ← truth r.module
  let names ← match r.only with
    | some wanted => wanted.filterMapM fun (v : Value) => do
        match v with
        | .text n => return if Table.has ds n then some n else none
        | _ => fail (.other .wrongType
            ("attribute name must be string, not '" ++ (← typeName v) ++ "'"))
    | none => pure (sortedNames (ds.names.filter fun n => !Text.startsWith n "_"))
  let target := if aliased then r.module else if r.only.isSome then .none else .text r.lib
  let root := (← get).root
  for n in names do
    let v := (Table.get? ds n).getD .none
    match target with
    | .none => assignName root n v
    | _ => define target (.text n) v .none

def requestOf (v : Value) : HostExec Request := do
  let st := (← get).store
  match v, st.dict? v with
  | _, some entries =>
    let part (key : String) : Value := (st.lookup entries (.text key)).getD .none
    let first (keys : List String) : Value :=
      ((keys.map part).find? st.truth).getD (part (keys.getLastD ""))
    match first ["lib", "id", "name"] with
    | .text lib =>
      if lib.isEmpty then fail .importSpecName
      else
        let only := match st.list? (part "in") with
          | some items => if items.isEmpty then none else some items.toList
          | none => none
        let paths := match first ["paths", "py_paths"] with
          | .none => []
          | p =>
            match st.list? p with
            | some items => items.toList
            | none => [p]
        pure { lib, module := part "as", only, paths }
    | _ => fail .importSpecName
  | .text lib, _ => pure { lib }
  | _, _ => fail .importSpecKind

def importOne (g : Engine) (r : Request) : Exec Bool := do
  let importFile (path : String) : Exec Unit := do
    let before ← globalNames
    importPlain path
    settleNames before r
  match (← get).world.source? r.lib with
  | some (.program path) => importProgram g path r *> pure true
  | some (.plain path) => importFile path *> pure true
  | some (.folder directory) => importModule r (.text directory :: r.paths) *> pure true
  | none =>
    match ← searchLibraries (r.lib ++ ".ypsh") with
    | some path => importProgram g path r *> pure true
    | none =>
      match ← searchLibraries (r.lib ++ ".py") with
      | some path => importFile path *> pure true
      | none =>
        let before ← globalNames
        if ← enableNamed r.lib then
          settleNames before r
          pure true
        else
          orElseOnError (importModule r r.paths *> pure true) false

def importAll (g : Engine) (specs : List Value) : Exec Unit := do
  let missing ← specs.filterMapM fun v => do
    let r ← requestOf v
    return if ← importOne g r then none else some ("'" ++ r.lib ++ "'")
  if !missing.isEmpty then report (.librariesMissing (Text.join ", " missing))

end Exec

end ScriptLang
