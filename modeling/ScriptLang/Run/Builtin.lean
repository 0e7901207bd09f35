import ScriptLang.Run.Command
import ScriptLang.Run.Epoch
import ScriptLang.Run.Input
import ScriptLang.Run.Library
import ScriptLang.Run.Memory
import ScriptLang.Run.Show

/-!
# Provided functions

What each function of the built-in modules does with its arguments.
-/

namespace ScriptLang

namespace Exec

private def refused {α : Type} (s : String) : HostExec α := fail (.other .wrongType s)

def endingOf (v : Value) : HostExec String := do
  match v with
  | .text s => pure s
  | .none => pure "\n"
  | _ => refused ("end must be None or a string, not " ++ (← typeName v))

def styledEnding (v : Value) : HostExec String := do
  match v with
  | .text s => pure s
  | _ => text v

def bestOf (op : String) (key : Value → Exec Value) :
    Value × Value → List Value → Exec Value
  | best, [] => pure best.2
  | best, v :: rest => do
    let k ← key v
    let better ← ofExcept ((← get).store.ordered op k best.1)
    bestOf op key (if better then (k, v) else best) rest

private def extremumNames (name : String) (named : Table Value) : HostExec Unit := do
  if named.length > 2 then
    refused (name ++ "() takes at most 2 keyword arguments (" ++ toString named.length ++ " given)")
  match named.names.find? fun n => n != "key" && n != "default" with
  | some n => refused ("'" ++ n ++ "' is an invalid keyword argument for " ++ name ++ "()")
  | none => pure ()

/-- The least or greatest of the arguments, or of the items of a single one. -/
def extremum (g : Engine) (name op : String) (args : List Value) (named : Table Value) :
    Exec Value := do
  if args.isEmpty then fail (.extremumArguments name)
  extremumNames name named
  let fallback := named.get? "default"
  let values ← match args with
    | [v] => items v
    | vs =>
      if fallback.isSome then
        refused ("Cannot specify a default for " ++ name ++ "() with multiple positional arguments")
      pure vs
  let key (v : Value) : Exec Value :=
    match (named.get? "key").getD .none with
    | .none => pure v
    | f => g.apply f [v] []
  match values, fallback with
  | v :: rest, _ => do
    let k ← key v
    bestOf op key (k, v) rest
  | [], some v => pure v
  | [], none => fail (.emptyExtremum name)

def askFor (args : List Value) (named : Table Value) : Exec Value := do
  noNames "input" named
  match args with
  | [] => return .text (← ask "")
  | [v] => return .text (← ask (← text v))
  | _ => refused ("input expected at most 1 argument, got " ++ toString args.length)

/-- The integers from one number to another, both included; from one on if only one is given. -/
def rangeOf (start stop : Value) : HostExec Value := do
  match stop with
  | .none =>
    let last ← add start (.int 1)
    return .range 1 (← indexArgument last) 1
  | _ =>
    let last ← add stop (.int 1)
    let first ← indexArgument start
    return .range first (← indexArgument last) 1

def scopeDict (e : ScopeId) : Exec Value := do
  Value.ref <$> dictOfTable ((← get).scopes.scope e).vars

def environmentValue (v : Value) : HostExec Value := do
  match v with
  | .text name => return ((← get).world.environment.get? name).elim .none Value.text
  | _ => fail (.environmentText (← typeName v))

def enableValue (v : Value) : Exec Value := do
  match v with
  | .text id => return .bool (← enableNamed id)
  | _ => fail (.noAttribute (← typeName v) "strip")

private def codeOf (v : Value) : HostExec String := do
  match v with
  | .text s => pure s
  | _ => fail (.textNeeded (← typeName v))

private def pathOf (v : Value) : HostExec String := do
  match v with
  | .text s => pure s
  | _ => refused ("expected str, bytes or os.PathLike object, not " ++ (← typeName v))

/-- A text argument that names a file that is read; a number is reported as no file. -/
private def fileOf (v : Value) : HostExec String := do
  match v with
  | .text s => pure s
  | .int _ | .bool _ =>
    report (.fileMissing (← text v))
    fail (.other .system "[Errno 9] Bad file descriptor")
  | _ => refused ("stat: path should be string, bytes, os.PathLike or integer, not " ++
      (← typeName v))

def applyBound (g : Engine) (f : Builtin) (args : List Value) : Exec Value := do
  let a := args.headD .none
  let b := (args[1]?).getD .none
  match f with
  | .print =>
    let s ← text a
    let ending ← endingOf b
    emit (.out (s ++ ending))
    pure .none
  | .colorPrint =>
    let s ← text a
    emit (.styled s (← styledEnding b))
    pure .none
  | .showValue =>
    let s ← showLine a
    emit (.styled s (← styledEnding b))
    pure .none
  | .moduleEnable => enableValue a
  | .error => newFault a b ((args[2]?).getD .none) ((args[3]?).getD .none) ((args[4]?).getD .none)
  | .exit => throw (.exit a)
  | .raise =>
    handle a (.text "C") true
    pure .none
  | .languageSet =>
    modifyHost fun h => { h with options := h.options.set "runtime_default_language" a }
    pure .none
  | .levelSet =>
    modifyHost fun h => { h with level := a }
    pure .none
  | .modulo => mod a b
  | .define =>
    define a b ((args[2]?).getD .none) ((args[3]?).getD .none)
    pure .none
  | .undefine =>
    undefine a b
    pure .none
  | .locals => scopeDict (← get).current
  | .globals =>
    let m ← get
    scopeDict (m.scopes.root m.root)
  | .count => return .int (← length a)
  | .execute =>
    let _ ← g.interpretText (← codeOf a)
    pure .none
  | .reset =>
    restart .default
    pure .none
  | .minimalize =>
    restart .minimal
    pure .none
  | .range => rangeOf a b
  | .importPathAdd =>
    addSearchPath (← pathOf a)
    pure (.bool true)
  | .importFile =>
    importPlain (← fileOf a)
    pure .none
  | .memoryInfo => memoryInfo
  | .memoryCollect | .memoryFree => pure (.int 0)
  | .memoryDeepSize => pure (.int nominalSize)
  | .memoryUsage => memoryUsage
  | .memoryClear => clearGlobals a
  | .memoryLimit => setMemoryLimit a b
  | .memoryAllocate => allocateBytes a
  | .autoCollectSet =>
    let flag := Value.bool (← truth a)
    modifyHost fun h => { h with options := h.options.set "runtime_auto_gc" flag }
    pure flag
  | .collectAfterSet =>
    let flag := Value.bool (← truth a)
    modifyHost fun h => { h with options := h.options.set "runtime_collect_after_toplevel" flag }
    pure flag
  | .docsGet => return (← doc? a).getD (.bool false)
  | .docsSet =>
    setDoc a b
    pure .none
  | .environment => environmentValue a
  | .shellRun =>
    match a with
    | .text command => runShell command ((args[2]?).getD .none)
    | _ => fail (.noAttribute (← typeName a) "partition")
  | .shellDirectorySet =>
    let path ← text a
    modifyWorld fun w => { w with shellDirectory := path }
    pure (.bool true)
  | .epoch48 => encodeEpoch 48 a
  | .epoch64 => encodeEpoch 64 a
  | .epochMoment => decodeEpoch a
  | _ => pure .none

def applyBuiltin (g : Engine) (f : Builtin) (args : List Value) (named : Table Value) :
    Exec Value := do
  match f with
  | .ask => askFor args named
  | .minimum => extremum g "min" "<" args named
  | .maximum => extremum g "max" ">" args named
  | .textType | .intType | .floatType | .listType | .dictType => construct f args named
  | .importLibrary =>
    match named with
    | (n, _) :: _ =>
      refused ("Interpreter.module_enable.<locals>.import_main() got an unexpected keyword " ++
        "argument '" ++ n ++ "'")
    | [] =>
      importAll g args
      pure .none
  | _ =>
    match f.signature? with
    | some s => applyBound g f (← ofExcept (s.bind args named))
    | none => pure .none

end Exec

end ScriptLang
