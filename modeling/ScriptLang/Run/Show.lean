import ScriptLang.Run.Attribute
import ScriptLang.Store.Json

/-!
# Showing values

A value is shown with the names of the globals that are equal to it and with the kind of thing it
is.
-/

namespace ScriptLang

namespace Exec

/-- The names of the globals that are equal to a value. -/
def namesOf (v : Value) : Exec (List String) := do
  let m ← get
  pure ((m.scopes.chain m.root).flatMap fun e =>
    (m.scopes.scope e).vars.filterMap fun b =>
      if m.store.equal b.2 v then some b.1 else none)

def showLine (v : Value) : Exec String := do
  let names ← namesOf v
  let alone := if names.isEmpty then "" else Text.join ", " names ++ " "
  let after := "| " ++ alone
  let m ← get
  let isFunction := match m.store.ofValue? v with
    | some (.func ..) => true
    | _ => m.store.isCallable v
  if isFunction then pure (alone ++ "(func)")
  else match v with
    | .text s => pure (s ++ " " ++ after ++ "(str)")
    | .bool _ => pure (alone ++ "(bool)")
    | .int _ => return (← text v) ++ " " ++ after ++ "(int)"
    | .float _ => return (← text v) ++ " " ++ after ++ "(float)"
    | _ =>
      match m.store.ofValue? v with
      | some (.list _) => return (← ofExcept (m.store.json v)) ++ " " ++ after ++ "(list)"
      | some (.dict _) => return (← ofExcept (m.store.json v)) ++ " " ++ after ++ "(dict)"
      | _ => return (← text v) ++ " " ++ after ++ "(python)"

end Exec

end ScriptLang
