import ScriptLang.Datum
import ScriptLang.Machine
import ScriptLang.Text.Blank

/-!
# Settings of the interpreter

The settings are written as a nested dictionary. The interpreter keeps them by name, with a default
for each one that is missing, and also as the dictionary itself.
-/

namespace ScriptLang

namespace Settings

def standard : Datum :=
  .dict [
    ("product.information", .dict [
      ("name", .text "PyYPSH"),
      ("desc", .text "One of the official implementations of the YPSH programming language."),
      ("id", .text "net.diamondgotcat.ypsh.pyypsh"),
      ("release", .dict [
        ("version", .list [.int 0, .int 0, .int 0]),
        ("type", .text "source")]),
      ("build", .text "PyYPSH-Python3-Source")]),
    ("runtime.platform", .dict [
      ("os.id", .text "PYTH3"),
      ("arch.id", .text "PYANY")]),
    ("runtime.options", .dict [
      ("default_language", .text "en_US"),
      ("auto_gc", .bool false),
      ("collect_after_toplevel", .bool false)])]

/-- The entry under a key, or a default; what has no entries is a failure. -/
def entry (d : Datum) (key : String) (default : Datum) : Except Failure Datum :=
  match d with
  | .dict _ => .ok ((d.get? key).getD default)
  | d => .error (.noAttribute d.typeName "get")

def isTrue : Datum → Bool
  | .none => false
  | .bool b => b
  | .int i => i != 0
  | .float x => x != 0.0
  | .text s => !s.isEmpty
  | .list items => !items.isEmpty
  | .dict entries => !entries.isEmpty

def versionParts : Datum → Except Failure (List String)
  | .list items => .ok (items.map Datum.plainText)
  | .text s => .ok (s.toList.map fun c => String.ofList [c])
  | .dict entries => .ok (entries.map Prod.fst)
  | d => .error (.notIterable d.typeName)

/-- The settings by name, in the order in which they are read. -/
def named (d : Datum) : Except Failure (Table Datum) := do
  let product ← entry d "product.information" (.dict [])
  let name ← entry product "name" (.text "PyYPSH")
  let desc ← entry product "desc"
    (.text "One of the official implementations of the YPSH programming language.")
  let id ← entry product "id" (.text "net.diamondgotcat.ypsh.pyypsh")
  let release ← entry product "release" (.dict [])
  let version ← entry release "version" (.list [.int 0, .int 0, .int 0])
  let parts ← versionParts version
  let type ← entry release "type" (.text "source")
  let build ← entry product "build" (.text "PyYPSH-Python3-Source")
  let runtime ← entry d "runtime.options" (.dict [])
  let language ← entry runtime "default_language" (.text "en_US")
  let autorun ← entry runtime "autorun_script" .none
  let autoCollect ← entry runtime "auto_gc" (.bool false)
  let collectAfter ← entry runtime "collect_after_toplevel" (.bool false)
  .ok [
    ("product_name", name), ("product_desc", desc), ("product_id", id),
    ("product_release_version", version),
    ("product_release_version_text", .text (name.plainText ++ " v" ++ Text.join "." parts)),
    ("product_release_type", type), ("product_build", build),
    ("runtime_default_language", language), ("runtime_autorun_script", autorun),
    ("runtime_auto_gc", .bool (isTrue autoCollect)),
    ("runtime_collect_after_toplevel", .bool (isTrue collectAfter))]

end Settings

namespace Exec

mutual

def valueOfDatum : Datum → HostExec Value
  | .none => pure .none
  | .bool b => pure (.bool b)
  | .int i => pure (.int i)
  | .float x => pure (.float x)
  | .text s => pure (.text s)
  | .list items => do newList (← valuesOfData items)
  | .dict entries => do newDict (← entriesOfData entries)

def valuesOfData : List Datum → HostExec (List Value)
  | [] => pure []
  | d :: ds => do
    let v ← valueOfDatum d
    return v :: (← valuesOfData ds)

def entriesOfData : List (String × Datum) → HostExec (List (Value × Value))
  | [] => pure []
  | (key, d) :: rest => do
    let v ← valueOfDatum d
    return (.text key, v) :: (← entriesOfData rest)

end

def useSettings (d : Datum) : HostExec Unit := do
  let named ← ofExcept (Settings.named d)
  let version ← ofExcept
    (Settings.versionParts ((Table.get? named "product_release_version").getD .none))
  let options ← entriesOfData named
  let dict ← valueOfDatum d
  modify fun m => { m with
    options := options.filterMap fun e => match e.1 with
      | .text name => some (name, e.2)
      | _ => none
    optionsDict := dict
    shellName := Text.strip ("YPShell-" ++ Text.join "" version) }

end Exec

end ScriptLang
