import ScriptLang.Failure
import ScriptLang.World

/-!
# Changing the file system

Making directories and writing files, with the failures that arise when something is in the way.
Failures name the path as it was given.
-/

namespace ScriptLang

namespace World

def has (w : World) (p : String) : Bool := !p.isEmpty && w.files.has (w.resolve p)

/-- Why nothing can be made at a path: something above it is a file, or is missing. -/
def blocked (w : World) (p : String) : Failure :=
  if (Files.ancestry (Path.parent (w.resolve p))).any w.files.isFile then .notADirectory p
  else .fileMissing p

/-- Makes a directory inside one that is there; a directory that is there already is left alone. -/
def makeDirectory (w : World) (p : String) : Except Failure World :=
  let full := w.resolve p
  if p.isEmpty then .error (.fileMissing p)
  else if w.files.isDirectory full then .ok w
  else if w.files.isFile full then .error (.fileExists p)
  else if w.files.isDirectory (Path.parent full) then
    .ok { w with files := w.files.set full .directory }
  else .error (w.blocked p)

/-- Makes a directory and those above it that are missing, at most `depth` of them. -/
def makeDirectoriesWithin : (depth : Nat) → World → String → Except Failure World
  | 0, w, p => .error (w.blocked p)
  | depth + 1, w, p => do
    let (front, last) := Path.cut p
    let (front, last) := if last.isEmpty then Path.cut front else (front, last)
    if !front.isEmpty && !last.isEmpty && !w.has front then
      let w ← makeDirectoriesWithin depth w front
      if last == "." then .ok w else w.makeDirectory p
    else w.makeDirectory p

def makeDirectories (w : World) (p : String) : Except Failure World :=
  makeDirectoriesWithin (p.length + 1) w p

def putFile (w : World) (p : String) (bytes : List Nat) : Except Failure World :=
  let full := w.resolve p
  if p.isEmpty then .error (.fileMissing p)
  else if w.files.isDirectory full then .error (.isADirectory p)
  else if w.files.isDirectory (Path.parent full) then
    .ok { w with files := w.files.write full bytes }
  else .error (w.blocked p)

/-- Writes a text at the end of a file, which is made if it is missing. -/
def extendFile (w : World) (p text : String) : Except Failure World :=
  w.putFile p ((w.files.bytes? (w.resolve p)).getD [] ++ Text.bytes text)

def contentsOf? (w : World) (p : String) : Option String :=
  (w.files.bytes? (w.resolve p)).map Files.readBytes

/-- The text of a file, if there is the file; bytes that are no text are a failure. -/
def textOf (w : World) (p : String) : Except Failure (Option String) :=
  match w.files.bytes? (w.resolve p), w.files.text? (w.resolve p) with
  | some bytes, none => .error (.other .badEscape (Text.decodingFault 0 0 bytes))
  | _, s => .ok s

end World

end ScriptLang
