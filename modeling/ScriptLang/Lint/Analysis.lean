import ScriptLang.Node.Basic
import ScriptLang.Notice
import ScriptLang.Table

/-!
# Checking names without running

An analysis walks through a program with a stack of scopes that tell which names are declared and
which of them are read-only. It notes each use of a name that is not declared and each assignment to
a read-only one. Blocks, functions, classes, loops and catch clauses have scopes of their own.
-/

namespace ScriptLang

structure Analysis where
  /-- The declared names and whether they are read-only, the innermost scope first. -/
  scopes : List (Table Bool) := [[]]
  /-- What was found, in order. -/
  notices : List Notice := []
  /-- Whether a name was declared, or a scope left, when there was no scope. -/
  failed : Bool := false
  deriving Repr, DecidableEq

namespace Analysis

def push (a : Analysis) : Analysis := { a with scopes := [] :: a.scopes }

def pop (a : Analysis) : Analysis :=
  { a with scopes := a.scopes.tail, failed := a.failed || a.scopes.isEmpty }

def declare (a : Analysis) (name : String) (readOnly : Bool) : Analysis :=
  match a.scopes with
  | [] => { a with failed := true }
  | scope :: rest => { a with scopes := scope.set name readOnly :: rest }

/-- Declares a name, unless it says that the value is not wanted. -/
def declareUsed (a : Analysis) (name : String) : Analysis :=
  if name == "_" then a else a.declare name false

/-- Whether the nearest declaration of a name is read-only; `none` if there is no declaration. -/
def declaration? (a : Analysis) (name : String) : Option Bool :=
  a.scopes.findSome? fun scope => scope.get? name

def note (a : Analysis) (n : Notice) : Analysis := { a with notices := a.notices ++ [n] }

def use (a : Analysis) (name : String) : Analysis :=
  if (a.declaration? name).isSome then a else a.note (.unbound name)

def useFunction (a : Analysis) (name : String) : Analysis :=
  if (a.declaration? name).isSome then a else a.note (.unboundFunction name)

def assign (a : Analysis) (name : String) : Analysis :=
  match a.declaration? name with
  | none => a.note (.unbound name)
  | some true => a.note (.readOnly name)
  | some false => a

/-- Notes an assignment to a name, or declares it; a missing name is neither. -/
def bind (a : Analysis) (name : Option String) (declares readOnly : Bool) : Analysis :=
  match name with
  | none | some "" | some "_" => a
  | some name => if declares then a.declare name readOnly else a.assign name

mutual

def analyze : Node → Analysis → Analysis
  | .absent, a => a
  | .name id, a => a.use id
  | .list items, a => analyzeAll items a
  | .dict pairs, a => analyzePairs pairs a
  | .keyword _ value, a => analyze value a
  | .varDecl name _ expr, a => (analyze expr a).declareUsed name
  | .binary left _ right, a => analyze right (analyze left a)
  | .unary _ operand, a => analyze operand a
  | .ternary condition ifTrue ifFalse, a =>
    analyze ifFalse (analyze ifTrue (analyze condition a))
  | .func name params _ body, a =>
    (analyzeAll body (analyzeParams params (a.declare name false).push)).pop
  | .template name _, a => a.declare name false
  | .cls name _ body, a => (analyzeAll body (a.declare name false).push).pop
  | .member object _, a => analyze object a
  | .call (.name id) args, a => analyzeAll args (a.useFunction id)
  | .call callee args, a => analyzeAll args (analyze callee a)
  | .exprStmt expr, a => analyze expr a
  | .block statements, a => (analyzeAll statements a.push).pop
  | .ifStmt condition thenBlock elseBlock, a =>
    analyze elseBlock (analyze thenBlock (analyze condition a))
  | .forStmt binder iterable body, a =>
    (analyze body ((analyze iterable a).push.declareUsed binder)).pop
  | .whileStmt condition body, a => analyze body (analyze condition a)
  | .returnStmt value, a => analyze value a
  | .tryCatch tryBlock binder catchBlock, a =>
    (analyze catchBlock ((analyze tryBlock a).push.declare binder false)).pop
  | .assign name expr target b, a =>
    let a := analyze expr a
    if target.isAbsent then a.bind name b.declare b.readOnly else analyze target a
  | .augAssign name _ expr target, a =>
    let a := analyze expr a
    if target.isAbsent then a.bind name false false else analyze target a
  | .number _, a | .text _, a | .breakStmt, a | .continueStmt, a | .shell _, a
  | .intent .., a => a

def analyzeAll : List Node → Analysis → Analysis
  | [], a => a
  | n :: rest, a => analyzeAll rest (analyze n a)

def analyzePairs : List (String × Node) → Analysis → Analysis
  | [], a => a
  | (_, n) :: rest, a => analyzePairs rest (analyze n a)

/-- Declares each parameter, and then walks through its default. -/
def analyzeParams : List (String × String × Node) → Analysis → Analysis
  | [], a => a
  | (name, _, default) :: rest, a => analyzeParams rest (analyze default (a.declareUsed name))

end

def start (names readOnlyNames : List String) : Analysis :=
  readOnlyNames.foldl (fun a n => a.declare n true)
    (names.foldl (fun a n => a.declare n false) {})

end Analysis

end ScriptLang
