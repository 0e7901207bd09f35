import ScriptLang.Parser
import ScriptLang.Scope
import ScriptLang.Store.Compare
import ScriptLang.Store.Display
import ScriptLang.World

/-!
# The interpreter's state

A computation of the interpreter reads and changes a `Machine` and may end early with a `Signal`.
Most of what it does concerns only the `Host`: the objects, the settings and the surroundings. Such
computations are of the type `HostExec`; they see neither the scopes nor what functions do nor what
is typed, and they end early only with a `Halt`.

Notices go through `report`: it ends the program with the notice, which is then shown, unless
notices are silenced, in which case the computation goes on.
-/

namespace ScriptLang

/-- Why a computation ends early. -/
inductive Signal where
  /-- An error, as a value that a program can catch. -/
  | raised (error : Value)
  | exit (code : Value)
  | returned (value : Value)
  | broke
  | continued
  /-- The user interrupted the program. -/
  | interrupted
  /-- The bound on the length of the computation was reached. -/
  | exhausted
  deriving Repr, Inhabited

/-- Why a computation ends early that holds no statement of a program. -/
inductive Halt where
  | raised (error : Value)
  /-- The program ends with a grave line, which is then shown. -/
  | reported (line : String)
  | interrupted
  | exhausted
  deriving Repr, Inhabited

def Halt.signal : Halt → Signal
  | raised error => .raised error
  | reported _ => .exit (.int 1)
  | interrupted => .interrupted
  | exhausted => .exhausted

def Event.alarm (line : String) : Event := .styled ("[on red]" ++ line ++ "[/]") "\n"

/-- Expressions embedded in texts that have been parsed, by their sources. -/
structure EmbeddedCache where
  nodes : Table Node
  /-- Each of them is what its source spells. -/
  parsed : ∀ {source node}, nodes.get? source = some node →
    ∃ quiet, parseEmbedded quiet source = .ok node

namespace EmbeddedCache

instance : Inhabited EmbeddedCache := ⟨⟨[], nofun⟩⟩

def insert (c : EmbeddedCache) {quiet : Bool} {source : String} {node : Node}
    (h : parseEmbedded quiet source = .ok node) : EmbeddedCache where
  nodes := c.nodes.set source node
  parsed {s n} hn := by
    rw [Table.get?_set] at hn
    split at hn
    · next hs => exact ⟨quiet, hs ▸ Option.some.inj hn ▸ h⟩
    · exact c.parsed hn

end EmbeddedCache

/-- The state of the interpreter apart from its scopes and the code of its functions. -/
structure Host where
  store : Store := #[]
  /-- Descriptions of the members of modules. -/
  docs : List (Value × Value) := []
  /-- The settings of the interpreter, by name. -/
  options : Table Value := []
  /-- The settings as the dictionary they came from. -/
  optionsDict : Value := .none
  /-- The name of the shell that runs commands. -/
  shellName : String := ""
  /-- How grave a notice must be to be shown; an unknown level silences all notices. -/
  level : Value := .text "W"
  /-- The limit on memory that a program has set. -/
  memoryLimit : Option Int := none
  embedded : EmbeddedCache := default
  /-- Libraries of plain definitions that have been loaded by name. -/
  loaded : Table (Table Value) := []
  /-- Searches for library files that have been made. -/
  searches : Table (Option String) := []
  world : World := {}
  deriving Inhabited

structure Code where
  params : List (String × String × Node)
  body : List Node
  /-- The scope that the function was declared in. -/
  scope : ScopeId

structure Machine extends Host where
  scopes : Scopes Value := #[]
  /-- The code of the functions that have been declared, by number. -/
  codes : Array Code := #[]
  /-- The scope of the program's globals. -/
  root : ScopeId := 0
  /-- The scope in which evaluation last went on. -/
  current : ScopeId := 0
  /-- What will be typed at the prompt. -/
  typed : List Typed := []
  deriving Inhabited

abbrev Exec := ExceptT Signal (StateM Machine)

/-- Computations that leave the scopes, the code of functions and what is typed alone. -/
abbrev HostExec := ExceptT Halt (StateM Host)

/-- The host after a computation on it: the line that the computation ended with is shown. -/
def Host.showing {α : Type} (h : Host) : Except Halt α → Host
  | .error (.reported line) => { h with world := h.world.emit (.alarm line) }
  | _ => h

def HostExec.onMachine {α : Type} (x : HostExec α) : Exec α := ExceptT.mk fun m =>
  match m with
  | ⟨host, scopes, codes, root, current, typed⟩ =>
    let (outcome, host) := x.run host
    (outcome.mapError Halt.signal, ⟨host.showing outcome, scopes, codes, root, current, typed⟩)

instance (priority := low) : MonadLift HostExec Exec := ⟨HostExec.onMachine⟩

namespace Host

def levels : List String := ["C", "E", "W", "I", "D"]

def isQuiet (h : Host) : Bool :=
  match h.level with
  | .text s => !levels.contains s
  | _ => true

def language (h : Host) : Value := (h.options.get? "runtime_default_language").getD .none

def reader (h : Host) : Option String :=
  if h.store.truth h.language then (h.store.text none h.language).toOption else none

end Host

abbrev Machine.isQuiet (m : Machine) : Bool := m.toHost.isQuiet

namespace Exec

def modifyHost (f : Host → Host) : HostExec Unit := modify f

def modifyStore (f : Store → Store) : HostExec Unit := modify fun m => { m with store := f m.store }

def modifyScopes (f : Scopes Value → Scopes Value) : Exec Unit :=
  modify fun m => { m with scopes := f m.scopes }

def modifyWorld (f : World → World) : HostExec Unit := modify fun m => { m with world := f m.world }

def alloc (o : Obj) : HostExec Ref := do
  let m ← get
  set { m with store := m.store.push o }
  pure m.store.size

def allocValue (o : Obj) : HostExec Value := Value.ref <$> alloc o

def newList (items : List Value) : HostExec Value := allocValue (.list items.toArray)

def newTuple (items : List Value) : HostExec Value := allocValue (.tuple items)

def newDict (entries : List (Value × Value)) : HostExec Value := allocValue (.dict entries)

def dictOfTable (t : Table Value) : HostExec Ref := alloc (.dict (t.map fun e => (.text e.1, e.2)))

def setObj (r : Ref) (o : Obj) : HostExec Unit := modifyStore fun st => st.setIfInBounds r o

def obj? (r : Ref) : HostExec (Option Obj) := do return (← get).store[r]?

def objOf? (v : Value) : HostExec (Option Obj) := do return (← get).store.ofValue? v

def entriesOf (r : Ref) : HostExec (List (Value × Value)) := do
  return ((← get).store.dict? (.ref r)).getD []

def fail {α : Type} (f : Failure) : HostExec α := do
  let v ← allocValue (.failure f [])
  throw (.raised v)

def ofExcept {α : Type} : Except Failure α → HostExec α
  | .ok a => pure a
  | .error f => fail f

def emit (e : Event) : HostExec Unit := modifyWorld fun w => w.emit e

def text (v : Value) : HostExec String := do
  let m ← get
  ofExcept (m.store.text m.reader v)

def quoted (v : Value) : HostExec String := do
  let m ← get
  ofExcept (m.store.quoted m.reader v)

def typeName (v : Value) : HostExec String := do return (← get).store.typeName v

def truth (v : Value) : HostExec Bool := do return (← get).store.truth v

def equal (v w : Value) : HostExec Bool := do return (← get).store.equal v w

def failKey {α : Type} (key : Value) : HostExec α := do
  let shown ← quoted key
  let args ← newTuple [key]
  let v ← allocValue (.failure (.keyMissing shown) [("args", args)])
  throw (.raised v)

/-- The error object of a notice. Its arguments keep the wording without the particulars. -/
def noticeError (n : Notice) : HostExec Value := do
  let reader := (← get).reader
  let raw := (pickText reader n.form.texts).getD ""
  let texts ← newDict (n.texts.map fun e => (.text e.1, .text e.2))
  allocValue (.fault ⟨.text "YPSH", .text "C", .text n.form.number, .text n.form.name, texts,
    [.text (Notice.headline "YPSH" "C" n.form.number n.form.name raw)]⟩ [])

def raiseNotice {α : Type} (n : Notice) : HostExec α := do
  let v ← noticeError n
  throw (.raised v)

/-- Ends the program with a notice; does nothing if notices are silenced. -/
def report (n : Notice) : HostExec Unit := do
  let m ← get
  if !m.isQuiet then throw (.reported (n.render m.reader))

def stopReading {α : Type} : ParseStop → HostExec α
  | .reported n => do
    report n
    throw .exhausted
  | .raised n => raiseNotice n
  | .failed f => fail f
  | .exhausted => throw .exhausted

def parse (code : String) : HostExec (List Node) := do
  match parseProgram (← get).isQuiet code with
  | .ok nodes => pure nodes
  | .error stop => stopReading stop

/-! ### Scopes -/

def inScope (e : ScopeId) : Exec Unit := modify fun m => { m with current := e }

def newScope (parent : Option ScopeId) : Exec ScopeId := do
  let m ← get
  let (e, scopes) := m.scopes.new parent
  set { m with scopes }
  pure e

def newCode (c : Code) : Exec Nat := do
  let m ← get
  set { m with codes := m.codes.push c }
  pure m.codes.size

/-- The value of a name; one that has none is reported. -/
def lookup (e : ScopeId) (name : String) : Exec Value := do
  match (← get).scopes.get? e name with
  | some v => pure v
  | none =>
    report (.unbound name)
    pure .none

/-- Gives a name a value; a read-only name is reported, and written all the same if notices are
silenced. -/
def assignName (e : ScopeId) (name : String) (v : Value) : Exec Unit := do
  if (← get).scopes.isReadOnly e name then report (.readOnly name)
  modifyScopes fun ss => ss.assign e name v

/-- Runs a computation inside a block of a scope, which ends whatever the outcome is. -/
def inBlock {α : Type} (e : ScopeId) (body : Exec α) : Exec α := ExceptT.mk fun m =>
  let (outcome, m) := body.run { m with scopes := m.scopes.pushBlock e }
  (outcome, { m with scopes := m.scopes.popBlock e })

end Exec

end ScriptLang
