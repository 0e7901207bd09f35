import ScriptLang.Path
import ScriptLang.Table
import ScriptLang.Text.Utf8

/-!
# Files

A file system is a table from absolute paths in normal form to directories and files. The root
directory is always there.
-/

namespace ScriptLang

inductive Entry where
  | directory
  | file (bytes : List Nat) (mode : Nat)
  deriving DecidableEq, Repr, Inhabited

abbrev Files := Table Entry

namespace Files

def entry? (fs : Files) (p : String) : Option Entry :=
  if p == "/" then some .directory else fs.get? p

def isFile (fs : Files) (p : String) : Bool :=
  match fs.entry? p with
  | some (.file ..) => true
  | _ => false

def isDirectory (fs : Files) (p : String) : Bool :=
  match fs.entry? p with
  | some .directory => true
  | _ => false

def has (fs : Files) (p : String) : Bool := (fs.entry? p).isSome

def bytes? (fs : Files) (p : String) : Option (List Nat) :=
  match fs.entry? p with
  | some (.file bytes _) => some bytes
  | _ => none

def universalNewlines : List Char → List Char
  | [] => []
  | '\r' :: '\n' :: cs => '\n' :: universalNewlines cs
  | '\r' :: cs => '\n' :: universalNewlines cs
  | c :: cs => c :: universalNewlines cs

/-- Bytes as a text whose line ends are read as newlines; those that are no text are left out. -/
def readBytes (bs : List Nat) : String :=
  String.ofList (universalNewlines (Text.ofBytes bs).toList)

def text? (fs : Files) (p : String) : Option String :=
  (fs.bytes? p).bind fun bs =>
    if Text.bytes (Text.ofBytes bs) = bs then some (readBytes bs) else none

/-- Writes a file; one that is there keeps its mode. -/
def write (fs : Files) (p : String) (bytes : List Nat) : Files :=
  match fs.entry? p with
  | some (.file _ mode) => fs.set p (.file bytes mode)
  | _ => fs.set p (.file bytes 0o644)

def setMode (fs : Files) (p : String) (mode : Nat) : Files :=
  match fs.entry? p with
  | some (.file bytes _) => fs.set p (.file bytes mode)
  | _ => fs

def mode? (fs : Files) (p : String) : Option Nat :=
  match fs.entry? p with
  | some (.file _ mode) => some mode
  | _ => none

/-- The directories on the way to a path, the path itself last. -/
def ancestry (p : String) : List String :=
  (Path.steps p).foldl (fun acc step => acc ++ [acc.getLastD "" ++ "/" ++ step]) []

def makeDirectories (fs : Files) (p : String) : Files :=
  (ancestry p).foldl (fun fs d => if fs.has d then fs else fs.set d .directory) fs

/-- Writes a file below directories that are made if need be. -/
def place (fs : Files) (p : String) (bytes : List Nat) : Files :=
  (fs.makeDirectories (Path.parent p)).write p bytes

def children (fs : Files) (d : String) : List String :=
  let front := if d == "/" then "/" else d ++ "/"
  fs.filterMap fun e =>
    if Text.startsWith e.1 front then
      let rest := String.ofList (e.1.toList.drop front.length)
      if rest.isEmpty || rest.toList.contains '/' then none else some rest
    else none

def fileNames (fs : Files) (d : String) : List String :=
  (fs.children d).filter fun n => fs.isFile (Path.resolve d n)

/-- The directories at and below a path with the names of their files, each directory before those
below it and spelt from the given path on, which starts at a directory; `fuel` bounds the depth. -/
def walkFrom (fs : Files) (start : String) : (fuel : Nat) → String → List (String × List String)
  | 0, _ => []
  | fuel + 1, p =>
    let d := Path.resolve start p
    (p, fs.fileNames d) ::
      ((fs.children d).filter fun n => fs.isDirectory (Path.resolve d n)).flatMap fun n =>
        walkFrom fs start fuel (Path.join p n)

def walk (fs : Files) (p : String) (start : String := "/") : List (String × List String) :=
  if !p.isEmpty && fs.isDirectory (Path.resolve start p) then
    fs.walkFrom start (fs.length + 1) p
  else []

def depthBelow (d p : String) : Nat := (p.toList.drop d.length).count '/'

/-- The less deep one of the best directory so far and the one that is visited, if it has a file of
a given name; the first one of the same depth. -/
def lessDeep (d name : String) (best : Option String) (visit : String × List String) :
    Option String :=
  if visit.2.contains name then
    match best with
    | some p => if depthBelow d visit.1 < depthBelow d p then some visit.1 else best
    | none => some visit.1
  else best

def shallowestOf? (d name : String) (visits : List (String × List String)) : Option String :=
  (visits.foldl (lessDeep d name) none).map fun p => Path.join p name

/-- The path of a file of a given name that lies least deep below a directory, the first one met in
a walk. -/
def shallowest? (fs : Files) (d name : String) (start : String := "/") : Option String :=
  shallowestOf? d name (fs.walk d start)

end Files

end ScriptLang
