import ScriptLang.Table

/-!
# Scopes

A scope binds names to values, some of them read-only, and has a chain of enclosing scopes. A block
inside a scope has no scope of its own: the scope keeps a stack of the names that each open block
has bound, and erases them when the block ends. A scope may also record that a name is meant for the
outermost scope or for the scope itself.

All scopes live in one numbered collection, so that a function can keep the scope it was made in.
-/

namespace ScriptLang

abbrev ScopeId := Nat

/-- What was done to a name of a scope. -/
inductive Change where
  /-- It got a value. If `depth` is not zero, so many blocks were open and the innermost one will
  erase the name. -/
  | written (name : String) (depth : Nat)
  /-- It was bound in the scope as the outermost one: by force, or from a scope inside. -/
  | routed (name : String)
  | removed (name : String)
  deriving DecidableEq, Repr

structure Scope (α : Type) where
  vars : Table α := []
  /-- Whether each bound name is read-only. -/
  flags : Table Bool := []
  /-- Where a name is meant to be bound. -/
  intents : Table String := []
  /-- The names bound by each open block, the innermost block first. -/
  blocks : List (List String) := []
  /-- The enclosing scopes, the nearest first. -/
  ancestors : List ScopeId := []
  /-- What was done to the names, the latest first. No computation reads this; it is there to say
  what a computation has done. -/
  changes : List Change := []
  deriving Inhabited

namespace Scope

variable {α : Type}

def isReadOnly (s : Scope α) (name : String) : Bool := (s.flags.get? name).getD false

def note (s : Scope α) (name : String) : Scope α :=
  match s.blocks with
  | [] => s
  | block :: rest => { s with blocks := (block ++ [name]) :: rest }

/-- Binds a name, and notes it in the innermost open block if asked to. -/
def bind (s : Scope α) (name : String) (value : α) (readOnly noted : Bool) : Scope α :=
  let change := if noted then .written name s.blocks.length else .routed name
  let s := { s with
    vars := s.vars.set name value
    flags := s.flags.set name readOnly
    changes := change :: s.changes }
  if noted then s.note name else s

def assign (s : Scope α) (name : String) (value : α) : Scope α :=
  { s with vars := s.vars.set name value, changes := .written name 0 :: s.changes }

def erase (s : Scope α) (name : String) : Scope α :=
  { s with vars := s.vars.erase name, flags := s.flags.erase name }

def unset (s : Scope α) (name : String) : Scope α :=
  { s.erase name with changes := .removed name :: s.changes }

def pushBlock (s : Scope α) : Scope α := { s with blocks := [] :: s.blocks }

/-- Ends the innermost block and erases the names it bound. -/
def popBlock (s : Scope α) : Scope α :=
  match s.blocks with
  | [] => s
  | block :: rest => block.foldl erase { s with blocks := rest }

end Scope

abbrev Scopes (α : Type) := Array (Scope α)

namespace Scopes

variable {α : Type}

def scope (ss : Scopes α) (e : ScopeId) : Scope α := ss.getD e {}

def update (ss : Scopes α) (e : ScopeId) (f : Scope α → Scope α) : Scopes α := ss.modify e f

/-- A scope and those around it, from the inside out. -/
def chain (ss : Scopes α) (e : ScopeId) : List ScopeId := e :: (ss.scope e).ancestors

def new (ss : Scopes α) (parent : Option ScopeId) : ScopeId × Scopes α :=
  let ancestors := match parent with
    | some p => ss.chain p
    | none => []
  (ss.size, ss.push { ancestors })

def root (ss : Scopes α) (e : ScopeId) : ScopeId := (ss.scope e).ancestors.getLastD e

def holder? (ss : Scopes α) (e : ScopeId) (name : String) : Option ScopeId :=
  (ss.chain e).find? fun i => (ss.scope i).vars.has name

def get? (ss : Scopes α) (e : ScopeId) (name : String) : Option α :=
  (ss.chain e).findSome? fun i => (ss.scope i).vars.get? name

def intent? (ss : Scopes α) (e : ScopeId) (name : String) : Option String :=
  (ss.chain e).findSome? fun i => (ss.scope i).intents.get? name

def setIntent (ss : Scopes α) (e : ScopeId) (name kind : String) : Scopes α :=
  ss.update e fun s => { s with intents := s.intents.set name kind }

/-- The scope that a name without a binding is bound in. -/
def home (ss : Scopes α) (e : ScopeId) (name : String) : ScopeId :=
  if ss.intent? e name = some "global" then ss.root e else e

/-- Binds a name where it is meant to be, noting it if that is the scope itself. -/
def bindHome (ss : Scopes α) (e : ScopeId) (name : String) (value : α) (readOnly : Bool) :
    Scopes α :=
  let target := ss.home e name
  ss.update target fun s => s.bind name value readOnly (target == e)

/-- Declares a name, in the outermost scope or in the scope itself if forced. -/
def declare (ss : Scopes α) (e : ScopeId) (name : String) (value : α)
    (readOnly forceGlobal forceLocal : Bool) : Scopes α :=
  if forceGlobal then ss.update (ss.root e) fun s => s.bind name value readOnly false
  else if forceLocal then ss.update e fun s => s.bind name value readOnly true
  else ss.bindHome e name value readOnly

def isReadOnly (ss : Scopes α) (e : ScopeId) (name : String) : Bool :=
  match ss.holder? e name with
  | some h => (ss.scope h).isReadOnly name
  | none => false

/-- Gives a name a value, in the nearest scope that binds it or else where it is meant to be. -/
def assign (ss : Scopes α) (e : ScopeId) (name : String) (value : α) : Scopes α :=
  match ss.holder? e name with
  | some h => ss.update h fun s => s.assign name value
  | none => ss.bindHome e name value false

def unset (ss : Scopes α) (e : ScopeId) (name : String) : Scopes α :=
  ss.update e fun s => s.unset name

def pushBlock (ss : Scopes α) (e : ScopeId) : Scopes α := ss.update e Scope.pushBlock

def popBlock (ss : Scopes α) (e : ScopeId) : Scopes α := ss.update e Scope.popBlock

end Scopes

end ScriptLang
