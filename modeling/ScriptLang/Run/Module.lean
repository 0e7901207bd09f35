import ScriptLang.Run.Define
import ScriptLang.Text.Blank

/-!
# Built-in modules

Which names each built-in module defines, with their descriptions. A module is enabled by name;
case, dashes and blanks in the name do not matter.
-/

namespace ScriptLang

inductive Module where
  | minimal | default | knowledge | core | extra | imports | memory | docs | environment | shell
  | types | epoch
  deriving DecidableEq, Repr

namespace Module

/-- The form of a name in which case, dashes and blanks do not matter. -/
def normalName (id : String) : String :=
  Text.replace (Text.replace (Text.lower (Text.strip id)) "-" "_") " " "_"

def ofName? (id : String) : Option Module :=
  match normalName id with
  | "min" | "minimal" => some minimal
  | "" | "default" => some default
  | "egg" | "knowledge" => some knowledge
  | "core" | "system_core" => some core
  | "extra" | "system_extra" => some extra
  | "system_import" => some imports
  | "memory" => some memory
  | "docs" => some docs
  | "env" => some environment
  | "shell" => some shell
  | "types" => some types
  | _ => if id == "dgce" then some epoch else none

end Module

structure Definition where
  module : String
  id : String
  content : Value
  doc : Option String := none

namespace Definition

def printing : List Definition :=
  let showing := "Show content with Simplize(e.g. 'ypsh.module ypsh.modules (list)')"
  [⟨"@", "print", .builtin .print, "Normal Printing (No color, No decoration)"⟩,
   ⟨"@", "cprint", .builtin .colorPrint,
    "Show content with Decoration(e.g. Coloring) using python's 'rich' library."⟩,
   ⟨"@", "show", .builtin .showValue, showing⟩,
   ⟨"@", "lookup", .builtin .showValue, showing⟩,
   ⟨"@", "ask", .builtin .ask, "Ask User Interactive (e.g. 'What your name> ')"⟩,
   ⟨"@", "module_enable", .builtin .moduleEnable, "Enabling a YPSH Built-in Module"⟩]

def constants : List Definition :=
  [⟨"@", "false", .bool false, none⟩, ⟨"@", "False", .bool false, none⟩,
   ⟨"@", "true", .bool true, none⟩, ⟨"@", "True", .bool true, none⟩,
   ⟨"@", "none", .none, none⟩, ⟨"@", "None", .none, none⟩]

def errors : List Definition :=
  let language := "Set a Language ID for Localized Exception Message."
  let level := "Set a Exception Level for Exception Printing."
  [⟨"@", "Error", .builtin .error, "The Exception Object."⟩,
   ⟨"@", "Exception", .builtin .error, "The Exception Object."⟩,
   ⟨"@", "exit", .builtin .exit, "Exit YPSH's main Process."⟩,
   ⟨"@", "raise", .builtin .raise, "Raise a Exception with Exception Object."⟩,
   ⟨"@", "Error.lang.set", .builtin .languageSet, language⟩,
   ⟨"@", "Exception.lang.set", .builtin .languageSet, language⟩,
   ⟨"@", "Error.level.set", .builtin .levelSet, level⟩,
   ⟨"@", "Exception.level.set", .builtin .levelSet, level⟩]

def core : List Definition := printing ++ constants ++ errors

def numbers : List Definition :=
  [⟨"@", "min", .builtin .minimum, none⟩, ⟨"@", "max", .builtin .maximum, none⟩,
   ⟨"@", "range", .builtin .range, none⟩, ⟨"@", "mod", .builtin .modulo, none⟩]

def streams : List Definition :=
  [⟨"@", "stdin", .stream .input, "Standard Input"⟩,
   ⟨"@", "stdout", .stream .output, "Standard Output"⟩,
   ⟨"@", "stderr", .stream .error, "Standard Error Output"⟩,
   ⟨"standard", "input", .stream .input, "Standard Input"⟩,
   ⟨"standard", "output", .stream .output, "Standard Output"⟩,
   ⟨"standard", "error", .stream .error, "Standard Error Output"⟩]

def product (options : Table Value) (optionsDict : Value) : List Definition :=
  let option (name : String) : Value := (options.get? name).getD .none
  [⟨"ypsh", "def", .builtin .define, "Define Anything"⟩,
   ⟨"ypsh", "undef", .builtin .undefine, "Delete a Variable"⟩,
   ⟨"ypsh", "locals", .builtin .locals, "YPSH Local Scope"⟩,
   ⟨"ypsh", "globals", .builtin .globals, "YPSH Global Scope"⟩,
   ⟨"ypsh", "options", .options, "Return YPSH's Options"⟩,
   ⟨"ypsh", "options.dict", optionsDict, "Return YPSH's Options as Dict"⟩,
   ⟨"ypsh", "product.name", option "product_name", "Return YPSH's Product Name"⟩,
   ⟨"ypsh", "product.desc", option "product_desc", "Return YPSH's Product Description"⟩,
   ⟨"ypsh", "product.id", option "product_id", "Return YPSH's Product ID"⟩,
   ⟨"ypsh", "version", option "product_release_version", "Return YPSH's Version"⟩,
   ⟨"ypsh", "version.type", option "product_release_type", "Return YPSH's Release Type"⟩,
   ⟨"ypsh", "version.text", option "product_release_version_text",
    "Return YPSH's Version as Text"⟩,
   ⟨"ypsh", "version.build", option "product_build", "Return YPSH's Build ID"⟩]

def programs : List Definition :=
  [⟨"@", "count", .builtin .count, none⟩,
   ⟨"@", "exec", .builtin .execute, none⟩,
   ⟨"ypsh", "reset", .builtin .reset,
    "Reset all Variables(and Functions), and Enable 'default' Module"⟩,
   ⟨"ypsh", "minimalize", .builtin .minimalize,
    "Reset all Variables(and Functions), and Enable 'minimal' Module"⟩,
   ⟨"@", "range", .builtin .range, none⟩]

def extra (options : Table Value) (optionsDict : Value) : List Definition :=
  numbers ++ streams ++ product options optionsDict ++ programs

def environment : List Definition :=
  [⟨"@", "env", .builtin .environment, "Get a content from System environment (e.g. 'PATH')"⟩]

def searchPaths : List Definition :=
  [⟨"import", "path.add", .builtin .importPathAdd, "Add a directory to sys.path for Imports"⟩]

def imports : List Definition :=
  [⟨"import", "python", .builtin .importFile, "Import a .py file into YPSH env"⟩,
   ⟨"@", "import", .builtin .importLibrary, none⟩]

def memory : List Definition :=
  [⟨"memory", "info", .builtin .memoryInfo, "Return RAM/VRAM/process memory usage."⟩,
   ⟨"memory", "gc", .builtin .memoryCollect, "Force Python GC (and CUDA cache if available)."⟩,
   ⟨"memory", "deep_size", .builtin .memoryDeepSize, "Approximate deep size of an object."⟩,
   ⟨"memory", "vars.usage", .builtin .memoryUsage, "List variable sizes across environments."⟩,
   ⟨"memory", "clear", .builtin .memoryClear, "Delete variables and run GC. ('all' or [names])"⟩,
   ⟨"memory", "limit.set", .builtin .memoryLimit, "Set soft limit (bytes or percent)."⟩,
   ⟨"memory", "alloc", .builtin .memoryAllocate, "Allocate a bytearray of size n."⟩,
   ⟨"memory", "free", .builtin .memoryFree, "Free an allocated object by dropping references."⟩,
   ⟨"memory", "auto_gc.set", .builtin .autoCollectSet,
    "Enable/disable automatic GC after block exit."⟩,
   ⟨"memory", "collect.after_toplevel", .builtin .collectAfterSet,
    "Run GC after each top-level statement (may be slow)."⟩]

def docs : List Definition :=
  [⟨"docs", "get", .builtin .docsGet,
    "Get description with key(e.g. 'ypsh.version'), from YPSH's Built-in Documentation"⟩,
   ⟨"docs", "set", .builtin .docsSet,
    "Set description with key(e.g. 'ypsh.version') and content, to YPSH's Built-in Documentation"⟩]

def shell (directory : String) : List Definition :=
  [⟨"@", "%", .builtin .shellRun, none⟩,
   ⟨"shell", "run", .builtin .shellRun, none⟩,
   ⟨"shell", "cwd", .text directory, none⟩,
   ⟨"shell", "cwd.set", .builtin .shellDirectorySet, none⟩]

def types : List Definition :=
  [⟨"@", "str", .builtin .textType, none⟩, ⟨"@", "int", .builtin .intType, none⟩,
   ⟨"@", "float", .builtin .floatType, none⟩, ⟨"@", "list", .builtin .listType, none⟩,
   ⟨"@", "dict", .builtin .dictType, none⟩]

def epoch : List Definition :=
  [⟨"conv", "dgce48", .builtin .epoch48, none⟩, ⟨"conv", "dgce64", .builtin .epoch64, none⟩,
   ⟨"conv", "datetime", .builtin .epochMoment, none⟩]

end Definition

namespace Exec

def defineAll (ds : List Definition) : Exec Unit := do
  for d in ds do
    define (.text d.module) (.text d.id) d.content (d.doc.elim .none Value.text)

def addSearchPath (path : String) : HostExec Unit :=
  modifyWorld fun w =>
    let p := Path.expand w.environment path
    if p.isEmpty || w.searchPath.contains p then w
    else { w with searchPath := p :: w.searchPath }

/-- The directories that the environment adds to those searched for libraries. -/
def extraPaths : HostExec (List String) := do
  let extra := ((← get).world.environment.get? "YPSH_PY_EXTLIBS").getD ""
  pure ((Text.splitOn extra ":").filter fun p => !p.isEmpty)

def enableEnvironment : Exec Unit := defineAll Definition.environment

def enableExtra : Exec Unit := do
  let m ← get
  defineAll (Definition.extra m.options m.optionsDict)

def enableImports : Exec Unit := do
  enableEnvironment
  modifyHost fun h => { h with searches := [] }
  defineAll Definition.searchPaths
  for p in ← extraPaths do addSearchPath p
  defineAll Definition.imports

def knowledgeText : String :=
  "Words exist to express and communicate something.\n" ++
  "A programming language is a syntax used to convey something to a computer.\n" ++
  "Words can sometimes hurt people.\n" ++
  "Of course, there are also commands that can damage a computer.\n" ++
  "Those who use them wisely, without abuse, are the true users of computers.\n" ++
  "- 2025 DiamondGotCat"

def enable : Module → Exec Unit
  | .minimal | .core => defineAll Definition.core
  | .default => do
    defineAll Definition.core
    enableExtra
    enableImports
    defineAll Definition.docs
  | .knowledge => emit (.out (knowledgeText ++ "\n"))
  | .extra => enableExtra
  | .imports => enableImports
  | .memory => do
    modifyHost fun h => { h with memoryLimit := none }
    defineAll Definition.memory
  | .docs => defineAll Definition.docs
  | .environment => enableEnvironment
  | .shell => do defineAll (Definition.shell (← get).world.shellDirectory)
  | .types => defineAll Definition.types
  | .epoch => defineAll Definition.epoch

def enableNamed (id : String) : Exec Bool := do
  match Module.ofName? id with
  | some m =>
    enable m
    pure true
  | none => pure false

/-- Starts over with an empty outermost scope and one module enabled. -/
def restart (module : Module) : Exec Unit := do
  let root ← newScope none
  modify fun m => { m with root }
  enable module

end Exec

end ScriptLang
