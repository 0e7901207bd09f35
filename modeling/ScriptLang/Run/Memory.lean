import ScriptLang.Run.Arithmetic
import ScriptLang.Run.Convert
import ScriptLang.Run.Settings

/-!
# Memory

What a program can ask about memory and do to it. Collecting garbage has no effect that a program
can see.
-/

namespace ScriptLang

structure Tracking where
  isOn : Bool := true
  deriving DecidableEq, Repr

def Tracking.enable (_ : Tracking) (flag : Bool) : Bool × Tracking := (flag, ⟨flag⟩)

namespace Exec

/-- A size that is reported for things whose size is not known. -/
def nominalSize : Int := 64

def amountNames : List String :=
  ["ram_total", "ram_available", "ram_used", "ram_percent", "proc_rss", "proc_vms", "vram_total",
   "vram_used", "vram_free", "py_tracemalloc_current", "py_tracemalloc_peak"]

def amount (name : String) : HostExec Value := do
  valueOfDatum (((← get).world.tools.memory.get? name).getD .none)

def memoryInfo : HostExec Value := do
  newDict (← amountNames.mapM fun name => return (.text name, ← amount name))

def memoryUsage : Exec Value := do
  let m ← get
  let root := m.scopes.root m.root
  let entries ← (m.scopes.scope root).vars.mapM fun e =>
    newDict [(.text "name", .text e.1), (.text "bytes", .int nominalSize)]
  newList entries

/-- Names that clearing all globals keeps, with everything below them. -/
def protectedNames : List String := ["@", "root", "ypsh", "docs"]

private def isProtected (name : String) : Bool :=
  protectedNames.any fun p => name == p || Text.startsWith name (p ++ ".")

def clearGlobal (root : ScopeId) (v : Value) : Exec Unit := do
  match v with
  | .text s => modifyScopes fun ss => ss.unset root s
  | _ =>
    let st := (← get).store
    if !st.isHashable v then fail (.unhashable (st.typeName v))

/-- Unbinds all unprotected globals, or those of a list, and tells whether it was asked right. -/
def clearGlobals (names : Value) : Exec Value := do
  let m ← get
  let root := m.scopes.root m.root
  let targets := match names with
    | .text "all" =>
      some (((m.scopes.scope root).vars.names.filter fun n => !isProtected n).map Value.text)
    | _ => (m.store.list? names).map Array.toList
  match targets with
  | none => pure (.bool false)
  | some vs =>
    for v in vs do clearGlobal root v
    pure (.bool true)

private def limitValue : HostExec Value := do return (← get).memoryLimit.elim .none Value.int

/-- Sets the limit on memory, in bytes or as a percentage of what there is, and gives it. -/
def setMemoryLimit (bytes percent : Value) : HostExec Value := do
  match bytes, percent with
  | .none, .none => limitValue
  | .none, p =>
    let total ← amount "ram_total"
    if ← truth total then
      let share ← div p (.float 100.0)
      let n ← toInteger (← mul total share)
      modify fun m => { m with memoryLimit := some n }
    limitValue
  | b, _ =>
    let n ← toInteger b
    modify fun m => { m with memoryLimit := some n }
    limitValue

def allocateBytes (size : Value) : HostExec Value := do
  let n ← toInteger size
  if n < 0 then fail .negativeCount
  if n ≥ Nat.pow 2 63 then fail (.other .overflow "cannot fit 'int' into an index-sized integer")
  allocValue (.bytes (Array.replicate n.toNat 0))

end Exec

end ScriptLang
