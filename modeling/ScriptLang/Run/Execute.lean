import ScriptLang.Run.Evaluate

/-!
# Executing statements

One step of execution for each kind of statement, against an engine for the parts.
-/

namespace ScriptLang

/-- What is left of the values that a loop goes through. -/
inductive Series where
  /-- The items of a list from a place on, whatever they are when their turn comes. -/
  | list (r : Ref) (i : Nat)
  | bytes (r : Ref) (i : Nat)
  /-- What a dictionary shows from a place on; its size must stay what it was at the start. -/
  | entries (r : Ref) (kind : ViewKind) (size i : Nat)
  | items (vs : List Value)
  | range (next step : Int) (count : Nat)
  /-- The lines of standard input. -/
  | lines

namespace Exec

/-! ### Assignments -/

def readTarget (g : Engine) (e : ScopeId) (target : Node) : Exec Value := do
  match target with
  | .member object name =>
    let v ← g.evaluate object e
    member v name
  | .binary left .index right =>
    let v ← g.evaluate left e
    let key ← g.evaluate right e
    indexed v key
  | .name id => lookup e id
  | node =>
    report (.notEvaluable node.describe)
    pure .none

def assignTarget (g : Engine) (e : ScopeId) (target : Node) (value : Value) : Exec Unit := do
  match target with
  | .member object name =>
    let v ← g.evaluate object e
    if !(← putAttribute v name value) then report (.noAttribute name)
  | .binary left .index right =>
    let v ← g.evaluate left e
    let key ← g.evaluate right e
    if !(← putItem v key value) then
      let k ← text key
      let c ← text v
      report (.noEntry k c)
  | .name id => assignName e id value
  | node => report (.notEvaluable node.describe)

def checkType (name type : String) (v : Value) : HostExec Unit := do
  if type != "auto" && !(← get).store.hasType v type then
    report (.variableType name type (← typeName v))

/-- Declares a name: the binding it has is removed first, wherever that is. -/
def redeclare (e : ScopeId) (name : String) (v : Value) (b : Binding) : Exec Unit :=
  modifyScopes fun ss =>
    let intent := ss.intent? e name
    let toRoot := b.forceGlobal || (!b.forceLocal && intent == some "global")
    let start := if toRoot then ss.root e else e
    let ss := match ss.holder? start name with
      | some h => ss.unset h name
      | none => ss
    ss.declare e name v b.readOnly toRoot (b.forceLocal || intent == some "local")

def executeAssign (g : Engine) (e : ScopeId) (name : Option String) (expr target : Node)
    (b : Binding) : Exec Unit := do
  let value ← g.evaluate expr e
  if !(name == some "_" && target.isAbsent) then
    if b.declare then checkType (name.getD "None") b.type value
    if !target.isAbsent then assignTarget g e target value
    else if b.declare then redeclare e (name.getD "") value b
    else assignName e (name.getD "") value

def applyAssignOp (op : AssignOp) (v w : Value) : HostExec Value := do
  match op with
  | .add => add v w
  | .sub => sub v w
  | .mul => mul v w
  | .div => div v w
  | .other s =>
    report (.unknownOperator s)
    pure .none

/-- The value of a name, which is bound to zero first if it is not bound. -/
def currentOrZero (e : ScopeId) (name : String) : Exec Value := do
  if ((← get).scopes.holder? e name).isNone then assignName e name (.int 0)
  return ((← get).scopes.get? e name).getD (.int 0)

def executeAugAssign (g : Engine) (e : ScopeId) (name : Option String) (op : AssignOp)
    (expr target : Node) : Exec Unit := do
  if name == some "_" && target.isAbsent then
    let _ ← g.evaluate expr e
  else if target.isAbsent then
    let current ← currentOrZero e (name.getD "")
    let v ← g.evaluate expr e
    assignName e (name.getD "") (← applyAssignOp op current v)
  else
    let current ← readTarget g e target
    let v ← g.evaluate expr e
    assignTarget g e target (← applyAssignOp op current v)

/-! ### Declarations -/

def executeFunction (e : ScopeId) (name : String) (params : List (String × String × Node))
    (returns : String) (body : List Node) : Exec Unit := do
  let code ← newCode { params, body, scope := e }
  let declaration ← alloc (.record .declaration [("name", .text name),
    ("return_type", .text returns), ("body", .internal (.nodes [code] body))])
  let f ← allocValue (.func declaration code [("env", .internal (.scope e))])
  assignName e name f

def executeTemplate (g : Engine) (e : ScopeId) (name : String) (body : List Node) :
    Exec Unit := do
  let inner ← newScope (some e)
  let _ ← g.executeAll inner body
  let env ← dictOfTable ((← get).scopes.scope inner).vars
  let t ← allocValue (.record .template [("env", .ref env)])
  assignName e name t

def baseMembers (base : Value) : HostExec (List (Value × Value)) := do
  if ← truth base then
    match ← attribute? base "env" with
    | some env =>
      match (← get).store.dict? env with
      | some entries => pure entries
      | none => fail (.noAttribute (← typeName env) "copy")
    | none => fail (.noAttribute (← typeName base) "env")
  else pure []

/-- The value that a class names as its base; one that is no template is reported. -/
def baseValue (e : ScopeId) (base : Option String) : Exec Value := do
  match base with
  | none | some "" => pure .none
  | some b =>
    let v ← lookup e b
    let isTemplate := match ← objOf? v with
      | some (.record .template _) => true
      | _ => false
    if (← truth v) && !isTemplate then report (.notATemplate b)
    pure v

def executeClass (g : Engine) (e : ScopeId) (name : String) (base : Option String)
    (body : List Node) : Exec Unit := do
  let members ← baseMembers (← baseValue e base)
  let inner ← newScope (some (← get).root)
  let _ ← g.executeAll inner body
  let m ← get
  let members := (m.scopes.scope inner).vars.foldl
    (fun ms b => m.store.insert ms (.text b.1) b.2) members
  let env ← newDict members
  let c ← allocValue (.record .cls
    [("name", .text name), ("env", env), ("interpreter", .internal .interpreter)])
  assignName e name c

/-! ### Loops -/

/-- The series of a value. One that cannot be gone through is reported, and then fails. -/
def seriesOf (v : Value) : HostExec Series := do
  let refuse (isReported : Bool) : HostExec Series := do
    if isReported then report .notIterable
    fail (.notIterable (← typeName v))
  match v with
  | .text s => pure (.items (s.toList.map fun c => .text (String.ofList [c])))
  | .range a b c => pure (.range a c (rangeLength a b c))
  | .stream .input => pure .lines
  | .stream _ => fail (.other .unreadable "not readable")
  | .internal (.nodes place ns) => pure (.items (Internal.ofNodes place ns))
  | .builtin .textType | .builtin .listType | .builtin .dictType => refuse false
  | .ref r =>
    match ← obj? r with
    | some (.list _) => pure (.list r 0)
    | some (.tuple items) => pure (.items items)
    | some (.bytes _) => pure (.bytes r 0)
    | some (.dict entries) => pure (.entries r .keys entries.length 0)
    | some (.view kind d) => return .entries d kind (← entriesOf d).length 0
    | some (.inst ..) => refuse false
    | some (.fault ..) =>
      report .notIterable
      failKey (.int 0)
    | _ => refuse true
  | _ => refuse true

def nextOf (s : Series) : HostExec (Option (Value × Series)) := do
  match s with
  | .list r i =>
    let items := ((← get).store.list? (.ref r)).getD #[]
    pure (items[i]?.map fun v => (v, .list r (i + 1)))
  | .bytes r i =>
    match ← obj? r with
    | some (.bytes data) => pure (data[i]?.map fun n => (.int n, .bytes r (i + 1)))
    | _ => pure none
  | .entries r kind size i =>
    let entries ← entriesOf r
    if entries.length != size then
      fail (.other .execution "dictionary changed size during iteration")
    match entries[i]? with
    | none => pure none
    | some (key, value) =>
      let v ← match kind with
        | .keys => pure key
        | .values => pure value
        | .items => newTuple [key, value]
      pure (some (v, .entries r kind size (i + 1)))
  | .items [] => pure none
  | .items (v :: rest) => pure (some (v, .items rest))
  | .range _ _ 0 => pure none
  | .range next step (count + 1) => pure (some (.int next, .range (next + step) step count))
  | .lines => return (← takeLine?).map fun v => (v, .lines)

def bodyStatements (body : Node) : HostExec (List Node) := do
  match body with
  | .block statements => pure statements
  | node => fail (.noAttribute node.kind "statements")

/-- One round of a loop inside a block of its own; tells whether the loop goes on. -/
def loopRound (e : ScopeId) (body : Exec Unit) : Exec Bool :=
  tryCatch (do
    inBlock e body
    pure true) fun s =>
      match s with
      | .continued => pure true
      | .broke => pure false
      | s => throw s

/-- A round of a loop over values: the value is bound in the block of the round. -/
def forRound (g : Engine) (e : ScopeId) (binder : String) (body : Node) (v : Value) : Exec Bool :=
  loopRound e do
    if binder != "_" then
      modifyScopes fun ss => ss.declare e binder v false false true
    let _ ← g.executeAll e (← bodyStatements body)

def forLoop (g : Engine) (e : ScopeId) (binder : String) (body : Node) :
    (rounds : Nat) → Series → Exec Unit
  | 0, _ => throw .exhausted
  | rounds + 1, s => do
    match ← nextOf s with
    | none => pure ()
    | some (v, rest) =>
      let goesOn ← forRound g e binder body v
      if goesOn then forLoop g e binder body rounds rest

def whileRound (g : Engine) (e : ScopeId) (body : Node) : Exec Bool :=
  loopRound e do
    let _ ← g.executeAll e (← bodyStatements body)

def whileLoop (g : Engine) (e : ScopeId) (condition body : Node) : (rounds : Nat) → Exec Unit
  | 0 => throw .exhausted
  | rounds + 1 => do
    if ← truth (← g.evaluate condition e) then
      let goesOn ← whileRound g e body
      if goesOn then whileLoop g e condition body rounds

/-! ### Statements -/

def executeTry (g : Engine) (e : ScopeId) (tryBlock : Node) (binder : String)
    (catchBlock : Node) : Exec Value :=
  tryCatch (inBlock e (g.execute tryBlock e)) fun s =>
    match s with
    | .raised v => inBlock e do
        modifyScopes fun ss => ss.declare e binder v false false true
        g.execute catchBlock e
    | s => throw s

def executeStep (g : Engine) (node : Node) (e : ScopeId) : Exec Value := do
  inScope e
  match node with
  | .block statements => inBlock e (g.executeAll e statements)
  | .varDecl name type expr =>
    let v ← g.evaluate expr e
    if name != "_" then
      checkType name type v
      modifyScopes fun ss => ss.declare e name v false false false
    pure .none
  | .intent kind name =>
    modifyScopes fun ss => ss.setIntent e name kind
    pure .none
  | .assign name expr target b =>
    executeAssign g e name expr target b
    pure .none
  | .augAssign name op expr target =>
    executeAugAssign g e name op expr target
    pure .none
  | .template name body =>
    executeTemplate g e name body
    pure .none
  | .cls name base body =>
    executeClass g e name base body
    pure .none
  | .func name params returns body =>
    executeFunction e name params returns body
    pure .none
  | .exprStmt (.keyword "global" (.text name)) =>
    modifyScopes fun ss => ss.setIntent e name "global"
    pure .none
  | .exprStmt (.keyword "local" (.text name)) =>
    modifyScopes fun ss => ss.setIntent e name "local"
    pure .none
  | .exprStmt expr => g.evaluate expr e
  | .ifStmt condition thenBlock elseBlock =>
    if ← truth (← g.evaluate condition e) then g.execute thenBlock e
    else if elseBlock.isAbsent then pure .none
    else g.execute elseBlock e
  | .shell command =>
    printShell command
    pure .none
  | .forStmt binder iterable body =>
    let s ← seriesOf (← g.evaluate iterable e)
    forLoop g e binder body g.rounds s
    pure .none
  | .whileStmt condition body =>
    whileLoop g e condition body g.rounds
    pure .none
  | .returnStmt value =>
    let v ← g.evaluate value e
    throw (.returned v)
  | .breakStmt => throw .broke
  | .continueStmt => throw .continued
  | .tryCatch tryBlock binder catchBlock => executeTry g e tryBlock binder catchBlock
  | node => g.evaluate node e

end Exec

end ScriptLang
