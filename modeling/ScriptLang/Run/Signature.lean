import ScriptLang.Machine

/-!
# Arguments of provided functions

A signature lists the parameters of a provided function. Binding gives each parameter the positional
argument in its place, else the argument of its name, else its default. What is wrong is looked for
in a fixed order: unknown names, arguments given twice, too many arguments, missing arguments.
-/

namespace ScriptLang

structure Param where
  name : String
  /-- The value of the parameter if no argument is given. -/
  default : Option Value := none

structure Signature where
  /-- The name of the function in messages. -/
  name : String
  params : List Param
  /-- Whether the function counts the value it belongs to as its first argument. -/
  hasReceiver : Bool := false

namespace Signature

private def wrong {α : Type} (s : Signature) (text : String) : Except Failure α :=
  .error (.other .wrongType (s.name ++ "() " ++ text))

private def listed : List String → String
  | [] => ""
  | [a] => a
  | [a, b] => a ++ " and " ++ b
  | names => Text.join ", " names.dropLast ++ ", and " ++ names.getLastD ""

/-- Checks that each named argument has a parameter that no positional argument took. -/
def checkNames (s : Signature) (given : Nat) : List String → Except Failure Unit
  | [] => .ok ()
  | name :: names =>
    match s.params.findIdx? fun p => p.name == name with
    | none =>
      if s.hasReceiver && name == "self" then
        s.wrong ("got multiple values for argument '" ++ name ++ "'")
      else s.wrong ("got an unexpected keyword argument '" ++ name ++ "'")
    | some i =>
      if i < given then s.wrong ("got multiple values for argument '" ++ name ++ "'")
      else s.checkNames given names

def checkCount (s : Signature) (given : Nat) : Except Failure Unit :=
  let extra := if s.hasReceiver then 1 else 0
  let most := s.params.length + extra
  let least := (s.params.filter fun p => p.default.isNone).length + extra
  let given := given + extra
  if given ≤ most then .ok ()
  else
    let (takes, plural) :=
      if least < most then ("from " ++ toString least ++ " to " ++ toString most, true)
      else (toString most, most != 1)
    s.wrong ("takes " ++ takes ++ " positional argument" ++ (if plural then "s" else "") ++
      " but " ++ toString given ++ (if given == 1 then " was" else " were") ++ " given")

def arguments (s : Signature) (pos : List Value) (named : Table Value) : List (Option Value) :=
  s.params.mapIdx fun i p => pos[i]? <|> named.get? p.name <|> p.default

def bind (s : Signature) (pos : List Value) (named : Table Value) :
    Except Failure (List Value) := do
  s.checkNames pos.length named.names
  s.checkCount pos.length
  let args := s.arguments pos named
  let missing := (s.params.zip args).filterMap fun (p, a) =>
    if a.isNone then some ("'" ++ p.name ++ "'") else none
  if missing.isEmpty then .ok (args.map fun a => a.getD .none)
  else
    s.wrong ("missing " ++ toString missing.length ++ " required positional argument" ++
      (if missing.length == 1 then "" else "s") ++ ": " ++ listed missing)

end Signature

def Builtin.signature? (f : Builtin) : Option Signature :=
  let required (names : List String) : List Param := names.map fun n => ⟨n, none⟩
  let method (name : String) (params : List Param) : Option Signature := some ⟨name, params, true⟩
  let inner (name : String) (params : List Param) : Option Signature :=
    some ⟨"Interpreter.module_enable.<locals>." ++ name, params, false⟩
  let printing : List Param := [⟨"content", some (.text "")⟩, ⟨"end", some (.text "\n")⟩]
  match f with
  | .print => method "Interpreter.normal_print" printing
  | .colorPrint => method "Interpreter.color_print" printing
  | .showValue => method "Interpreter.ypsh_print" printing
  | .moduleEnable => method "Interpreter.module_enable" (required ["id"])
  | .error => method "YPSHException.__init__"
      [⟨"location", some (.text "APP")⟩, ⟨"level", some (.text "C")⟩,
       ⟨"ecode", some (.text "0000")⟩, ⟨"name", some (.text "GeneralError")⟩,
       ⟨"desc", some .none⟩]
  | .exit => inner "exit_now" [⟨"code", some (.int 0)⟩]
  | .raise => inner "raise_error" (required ["exception"])
  | .languageSet => inner "error_lang_set" [⟨"lang", some (.text "en")⟩]
  | .levelSet => inner "error_level_set" [⟨"level", some (.text "W")⟩]
  | .modulo => inner "<lambda>" (required ["a", "b"])
  | .define => method "Interpreter.ypsh_def"
      (required ["module", "id", "content"] ++ [⟨"desc", some .none⟩])
  | .undefine => method "Interpreter.ypsh_undef" (required ["module"] ++ [⟨"id", some .none⟩])
  | .locals => inner "_ypsh_locals" []
  | .globals => inner "_ypsh_globals" []
  | .count => inner "count_func" (required ["input_"])
  | .execute => inner "ypsh_exec" (required ["code_string"])
  | .reset => inner "ypsh_reset" []
  | .minimalize => inner "ypsh_minimalize" []
  | .range => inner "ypsh_range" [⟨"start", some (.int 1)⟩, ⟨"end", some .none⟩]
  | .importPathAdd => inner "import_path_add" (required ["path"])
  | .importFile => inner "import_py" (required ["file_path"])
  | .memoryInfo => method "MemoryManager.info" []
  | .memoryCollect => method "MemoryManager.gc" []
  | .memoryDeepSize => method "MemoryManager.deep_size"
      (required ["obj"] ++ [⟨"seen", some .none⟩])
  | .memoryUsage => method "MemoryManager.vars_usage" []
  | .memoryClear => method "MemoryManager.clear" [⟨"names", some .none⟩]
  | .memoryLimit => method "MemoryManager.set_limit"
      [⟨"bytes", some .none⟩, ⟨"percent", some .none⟩]
  | .memoryAllocate => method "MemoryManager.alloc" (required ["n"])
  | .memoryFree => method "MemoryManager.free" (required ["obj"])
  | .autoCollectSet => inner "_auto_gc_set" [⟨"flag", some (.bool true)⟩]
  | .collectAfterSet => inner "_collect_after_toplevel" [⟨"flag", some (.bool false)⟩]
  | .docsGet => method "Interpreter.get_doc" (required ["key"])
  | .docsSet => method "Interpreter.set_doc" (required ["key", "content"])
  | .environment => inner "get_system_env" (required ["var_id"])
  | .shellRun => some ⟨"shell_exec",
      required ["command"] ++ [⟨"check", some (.bool true)⟩, ⟨"env", some .none⟩], false⟩
  | .shellDirectorySet => inner "set_SHELL_CWD" (required ["new"])
  | .epoch48 => inner "datetime_to_dgc_epoch48" (required ["dt"])
  | .epoch64 => inner "datetime_to_dgc_epoch64" (required ["dt"])
  | .epochMoment => inner "dgc_epoch64_to_datetime" (required ["dgc_epoch_str"])
  | _ => none

end ScriptLang
