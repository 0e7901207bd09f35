import ScriptLang.Run.Item

/-!
# Modules

A module is a global list of the names of its members; each member is a global whose name is the
module's name, a dot and its own. The members of the module `@`, also called `root`, are globals
under their own name as well. Each member has a description, which may be nothing.
-/

namespace ScriptLang

namespace Exec

/-- Whether a module is the one whose members are globals themselves. -/
def isRootModule : Value → Bool
  | .text s => s == "@" || s == "root"
  | _ => false

def nameOf (v : Value) : HostExec String := do
  match v with
  | .text s => pure s
  | _ =>
    let st := (← get).store
    if st.isHashable v then text v else fail (.unhashable (st.typeName v))

def setDoc (key content : Value) : HostExec Unit := do
  let st := (← get).store
  if st.isHashable key then
    modify fun m => { m with docs := m.store.insert m.docs key content }
  else fail (.unhashable (st.typeName key))

def removeDoc (key : Value) : HostExec Unit :=
  modify fun m => { m with docs := m.store.remove m.docs key }

def doc? (key : Value) : HostExec (Option Value) := do
  let m ← get
  if m.store.isHashable key then pure (m.store.lookup m.docs key)
  else fail (.unhashable (m.store.typeName key))

def ensureModule (name : String) : Exec Unit := do
  let m ← get
  if (m.scopes.holder? m.root name).isNone then
    let empty ← newList []
    assignName m.root name empty

def addMember (name : String) (id : Value) : Exec Unit := do
  let root := (← get).root
  let current ← lookup root name
  let st := (← get).store
  match current, st.list? current with
  | .ref r, some items =>
    if !items.any fun v => st.equalItem v id then
      setObj r (.list (items.push id))
      assignName root name current
  | _, _ => report (.notAList name)

def define (module id content doc : Value) : Exec Unit := do
  let root := (← get).root
  if isRootModule module then
    ensureModule "root"
    ensureModule "@"
    addMember "root" id
    addMember "@" id
    let name ← text id
    assignName root ("root." ++ name) content
    assignName root ("@." ++ name) content
    assignName root name content
    setDoc (.text ("root." ++ name)) doc
    setDoc (.text ("@." ++ name)) doc
  else
    let name ← nameOf module
    ensureModule name
    addMember name id
    let member ← text id
    assignName root (name ++ "." ++ member) content
    setDoc (.text (name ++ "." ++ member)) doc

def unsetRoot (name : String) : Exec Unit := do
  let root := (← get).root
  modifyScopes fun ss => ss.unset root name

def members? (name : String) : Exec (Option (List Value)) := do
  let m ← get
  match m.scopes.get? m.root name with
  | some v => some <$> items v
  | none => pure none

/-- Undefines a member of a module, or a whole module. -/
def undefine (module id : Value) : Exec Unit := do
  if isRootModule module then
    let name ← text id
    unsetRoot ("root." ++ name)
    unsetRoot ("@." ++ name)
    unsetRoot name
    removeDoc (.text ("root." ++ name))
    removeDoc (.text ("@." ++ name))
  else
    let isWhole ← match id with
      | .none => pure true
      | _ => equal module id
    let name ← nameOf module
    match ← members? name with
    | none => pure ()
    | some members =>
      if isWhole then
        for member in members do
          let full := name ++ "." ++ (← text member)
          unsetRoot full
          removeDoc (.text full)
        unsetRoot name
        removeDoc (.text name)
      else
        let m ← get
        match members.findIdx? fun v => m.store.equalItem v id with
        | some i =>
          let rest ← newList (members.eraseIdx i)
          assignName m.root name rest
        | none => pure ()
        let full := name ++ "." ++ (← text id)
        unsetRoot full
        removeDoc (.text full)

end Exec

end ScriptLang
