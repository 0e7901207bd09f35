import ScriptLang.Run.Builtin

/-!
# Calls

A function of the language runs in a new scope inside the one it was declared in, with its
parameters bound. A class makes an instance and hands it to its initialiser.
-/

namespace ScriptLang

/-- Whether a value is of a declared type; types that are not known allow every value. -/
def Store.hasType (st : Store) (v : Value) (type : String) : Bool :=
  match type, v with
  | "int", .int _ | "int", .bool _ => true
  | "int", _ => false
  | "float", .float _ => true
  | "float", _ => false
  | "str", .text _ => true
  | "str", _ => false
  | "bool", .bool _ => true
  | "bool", _ => false
  | "list", _ => (st.list? v).isSome
  | "dict", _ => (st.dict? v).isSome
  | "none", .none => true
  | "none", _ => false
  | "function", _ =>
    match st.ofValue? v with
    | some (.func ..) => true
    | _ => false
  | _, _ => true

structure Closure extends Code where
  name : String
  returns : String

namespace Exec

def closure? (v : Value) : Exec (Option Closure) := do
  match ← objOf? v with
  | some (.func declaration code _) =>
    let fields := match ← obj? declaration with
      | some (.record _ fields) => fields
      | _ => []
    let name ← text ((fields.get? "name").getD (.text ""))
    let returns ← text ((fields.get? "return_type").getD (.text "auto"))
    return (← get).codes[code]?.map fun c => { c with name, returns }
  | _ => pure none

/-- Binds a parameter, unless its name says that it is not wanted. -/
def bindParam (e : ScopeId) (name : String) (v : Option Value) : Exec Unit := do
  if name != "_" then
    match v with
    | some v => assignName e name v
    | none => fail (.unassigned "value")

/-- The value of a parameter without an argument: that of its default. One without a default is
reported; if that is silenced, it gets the value `last` of the parameter before it. -/
def defaultValue (g : Engine) (e : ScopeId) (last : Option Value) (default : Node) :
    Exec (Option Value) := do
  if default.isAbsent then
    report .argumentMismatch
    pure last
  else some <$> g.evaluate default e

/-- Gives parameters in order the positional arguments, the named ones, or the defaults, and binds
each of them with `bind`. The results are the positional arguments that are left over and the names
that were used. -/
def bindParams (g : Engine) (bind : String → Option Value → Exec Unit) (e : ScopeId)
    (named : Table Value) : (last : Option Value) → List (String × String × Node) → List Value →
    Exec (List Value × List String)
  | _, [], pos => pure (pos, [])
  | _, (name, _, _) :: params, v :: pos => do
    bind name (some v)
    bindParams g bind e named (some v) params pos
  | last, (name, _, default) :: params, [] => do
    match named.get? name with
    | some v =>
      bind name (some v)
      let (rest, used) ← bindParams g bind e named (some v) params []
      pure (rest, name :: used)
    | none =>
      let v ← defaultValue g e last default
      bind name v
      bindParams g bind e named v params []

/-- The value that a function body returns; `return` ends the body early, and only then is the
type of the value checked. -/
def returning (c : Closure) (body : Exec Value) : Exec Value :=
  tryCatch body fun s => do
    match s with
    | .returned v =>
      if c.returns != "auto" && !(← get).store.hasType v c.returns then
        report (.returnType c.name c.returns (← typeName v))
      pure v
    | s => throw s

def callFunction (g : Engine) (c : Closure) (pos : List Value) (named : Table Value) :
    Exec Value := do
  let e ← newScope (some c.scope)
  if named.names.any fun n => !c.params.any fun p => p.1 == n then report .argumentMismatch
  let (rest, used) ← bindParams g (bindParam e) e named none c.params pos
  if !rest.isEmpty then report .argumentMismatch
  if named.names.any fun n => !used.contains n then report .argumentMismatch
  returning c (g.executeAll e c.body)

def callingOr (g : Engine) (f : Value) (pos : List Value) (named : Table Value)
    (other : Exec Value) : Exec Value := do
  match ← closure? f with
  | some c => callFunction g c pos named
  | none => other

/-- Calls a value that is a function of the language or can be called like a provided one. -/
def callAny (g : Engine) (f : Value) (pos : List Value) (named : Table Value) : Exec Value :=
  callingOr g f pos named (g.apply f pos named)

def instantiate (g : Engine) (cls : Ref) (fields : Table Value) (pos : List Value)
    (named : Table Value) : Exec Value := do
  let st := (← get).store
  let members := (st.dict? ((fields.get? "env").getD .none)).getD []
  let props ← alloc (.dict members)
  let inst ← allocValue (.inst cls props)
  let init := (st.lookup members (.text "__init__")).getD .none
  let _ ← callingOr g init (inst :: pos) named do
    if st.isCallable init then g.apply init (inst :: pos) named else pure .none
  pure inst

/-- Calls a value like a provided function. -/
def applyValue (g : Engine) (f : Value) (pos : List Value) (named : Table Value) :
    Exec Value := do
  match f with
  | .builtin b => applyBuiltin g b pos named
  | .method receiver name => operation g receiver name pos named
  | .typeMethod t name => typeOperation g t name pos named
  | .ref r =>
    match ← obj? r with
    | some (.bound receiver function) => callAny g function (receiver :: pos) named
    | some (.record .cls fields) => instantiate g r fields pos named
    | _ => fail (.other .wrongType ("'" ++ (← typeName f) ++ "' object is not callable"))
  | _ => fail (.other .wrongType ("'" ++ (← typeName f) ++ "' object is not callable"))

end Exec

end ScriptLang
