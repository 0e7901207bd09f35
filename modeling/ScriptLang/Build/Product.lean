import ScriptLang.Build.Platform
import ScriptLang.Datum
import ScriptLang.Failure

/-!
# Configured products

A product is the interpreter with settings of its own: those of the release, with a configuration
put over them. The interpreter's own text is cut at build points, and the settings are written in
front of its parts.
-/

namespace ScriptLang.Build

/-- The parts of a version tag; parts that are missing are zero. -/
def versionOf (tag : String) : List String :=
  let plain := (Text.splitOn (Text.replace tag "v" "") "b").headD ""
  let parts := Text.splitOn plain "."
  [parts.getD 0 "0", parts.getD 1 "0", parts.getD 2 "0"]

def releaseSettings (p : Platform) (stamp tag : String) : List (String × Datum) :=
  [("product.information", .dict [
      ("name", .text "PyYPSH"),
      ("desc", .text "One of the official implementations of the YPSH programming language."),
      ("id", .text "net.diamondgotcat.ypsh.pyypsh"),
      ("release", .dict [
        ("version", .list ((versionOf tag).map .text)),
        ("type", .text "release")]),
      ("build", .text (buildName p stamp))]),
   ("runtime.platform", .dict [
      ("os.id", .text p.system),
      ("arch.id", .text p.processor)]),
   ("runtime.options", .dict [
      ("default_language", .text "en_US")])]

/-- The key and value that the item of a sequence gives, by its place in the sequence. -/
def pairOf (index : Nat) : Datum → Except Failure (String × Datum)
  | .list [.text key, d] => .ok (key, d)
  | .list [key@(.list _), _] | .list [key@(.dict _), _] => .error (.unhashable key.typeName)
  | .list [key, d] => .ok (key.written, d)
  | .list items => .error (.dictElementLength index items.length)
  | .text s =>
    match s.toList with
    | [k, v] => .ok (String.ofList [k], .text (String.ofList [v]))
    | cs => .error (.dictElementLength index cs.length)
  | .dict [(k, _), (v, _)] => .ok (k, .text v)
  | .dict entries => .error (.dictElementLength index entries.length)
  | _ => .error (.dictElement index)

def pairsOf : (index : Nat) → List Datum → Except Failure (List (String × Datum))
  | _, [] => .ok []
  | index, d :: ds => do
    let pair ← pairOf index d
    let pairs ← pairsOf (index + 1) ds
    .ok (pair :: pairs)

/-- The entries that a configuration puts over others: those of a dictionary, or the pairs in a
sequence. -/
def entriesOf : Datum → Except Failure (List (String × Datum))
  | .dict entries => .ok entries
  | .list items => pairsOf 0 items
  | .text s => pairsOf 0 (s.toList.map fun c => .text (String.ofList [c]))
  | d => .error (.notIterable d.typeName)

def settings (p : Platform) (stamp tag : String) (config : Datum) : Except Failure Datum := do
  let entries ← entriesOf config
  .ok (.dict (entries.foldl (fun t e => Table.set t e.1 e.2) (releaseSettings p stamp tag)))

/-- The parts of an interpreter's text that a product is made of. -/
structure Parts where
  interpreter : String := ""
  commandLine : String := ""
  deriving DecidableEq, Repr

def buildPoint : String := "#!buildpoint!"

/-- The parts of an interpreter's text: what follows its first and its second build point. -/
def Parts.of (content : String) : Except Failure Parts :=
  match Text.splitOn content buildPoint with
  | _ :: interpreter :: commandLine :: _ =>
    .ok ⟨Text.strip interpreter, Text.strip commandLine⟩
  | _ => .error (.indexRange "list")

def banner : String :=
  "#!/usr/bin/env python3\n\n" ++
  "# ╭──────────────────────────────────────╮\n" ++
  "# │ PyYPSH (Customized)                  │\n" ++
  "# │ Nercone <nercone@diamondgotcat.net>  │\n" ++
  "# │ Made by Nercone / MIT License        │\n" ++
  "# │ Copyright (c) 2025 DiamondGotCat     │\n" ++
  "# ╰──────────────────────────────────────╯\n"

def product (settings : Datum) (parts : Parts) : String :=
  Text.strip (banner ++ "\nYPSH_OPTIONS_DICT = " ++ settings.written ++ "\n\n" ++
    parts.interpreter ++ "\n\n" ++ parts.commandLine ++ "\n")

end ScriptLang.Build
