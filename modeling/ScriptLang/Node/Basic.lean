/-!
# Syntax trees

One type for statements and expressions: a program may hold any node in any place, and the
interpreter decides what a node means where it stands. An identifier in an expression is a `name`;
`absent` fills a place that is left empty.
-/

namespace ScriptLang

inductive Literal where
  | int (value : Int)
  | float (value : Float)
  deriving Repr, Inhabited

/-- Operators between two operands; `index` is the subscript `a[b]`. -/
inductive BinaryOp where
  | add | sub | mul | div
  | lt | gt | le | ge | eq | ne
  | and | or | index
  | other (symbol : String)
  deriving DecidableEq, Repr, Inhabited

inductive UnaryOp where
  | not | neg | pos
  | other (symbol : String)
  deriving DecidableEq, Repr, Inhabited

inductive AssignOp where
  | add | sub | mul | div
  | other (symbol : String)
  deriving DecidableEq, Repr, Inhabited

def BinaryOp.symbol : BinaryOp → String
  | .add => "+"
  | .sub => "-"
  | .mul => "*"
  | .div => "/"
  | .lt => "<"
  | .gt => ">"
  | .le => "<="
  | .ge => ">="
  | .eq => "=="
  | .ne => "!="
  | .and => "&&"
  | .or => "||"
  | .index => "[]"
  | .other s => s

def BinaryOp.known : List BinaryOp :=
  [.add, .sub, .mul, .div, .lt, .gt, .le, .ge, .eq, .ne, .and, .or, .index]

def BinaryOp.ofSymbol (s : String) : BinaryOp :=
  (BinaryOp.known.find? fun op => op.symbol == s).getD (.other s)

def UnaryOp.symbol : UnaryOp → String
  | .not => "!"
  | .neg => "-"
  | .pos => "+"
  | .other s => s

def UnaryOp.ofSymbol (s : String) : UnaryOp :=
  (([.not, .neg, .pos] : List UnaryOp).find? fun op => op.symbol == s).getD (.other s)

def AssignOp.symbol : AssignOp → String
  | .add => "PLUSEQ"
  | .sub => "MINUSEQ"
  | .mul => "MULTEQ"
  | .div => "DIVEQ"
  | .other s => s

def AssignOp.ofSymbol (s : String) : AssignOp :=
  (([.add, .sub, .mul, .div] : List AssignOp).find? fun op => op.symbol == s).getD (.other s)

structure Binding where
  /-- Whether the name is declared rather than assigned. -/
  declare : Bool := false
  forceGlobal : Bool := false
  forceLocal : Bool := false
  readOnly : Bool := false
  /-- The declared type; `auto` allows every value. -/
  type : String := "auto"
  deriving DecidableEq, Repr, Inhabited

inductive Node where
  | absent
  | name (id : String)
  | number (value : Literal)
  | text (value : String)
  | list (items : List Node)
  | dict (pairs : List (String × Node))
  | keyword (name : String) (value : Node)
  | varDecl (name type : String) (expr : Node)
  | binary (left : Node) (op : BinaryOp) (right : Node)
  | unary (op : UnaryOp) (operand : Node)
  | ternary (condition ifTrue ifFalse : Node)
  /-- A function; each parameter has a name, a type and a default, which may be `absent`. -/
  | func (name : String) (params : List (String × String × Node)) (returns : String)
      (body : List Node)
  | template (name : String) (body : List Node)
  | cls (name : String) (base : Option String) (body : List Node)
  | member (object : Node) (name : String)
  | call (callee : Node) (args : List Node)
  | exprStmt (expr : Node)
  | block (statements : List Node)
  | ifStmt (condition thenBlock elseBlock : Node)
  | forStmt (binder : String) (iterable body : Node)
  | whileStmt (condition body : Node)
  | returnStmt (value : Node)
  | breakStmt
  | continueStmt
  | shell (command : String)
  | tryCatch (tryBlock : Node) (binder : String) (catchBlock : Node)
  | intent (kind name : String)
  /-- Assigns to `target`, or to the name if the target is `absent`. -/
  | assign (name : Option String) (expr target : Node) (binding : Binding)
  | augAssign (name : Option String) (op : AssignOp) (expr target : Node)
  deriving Repr, Inhabited

namespace Node

/-- The dotted name that a member chain spells, if it starts with an identifier. -/
def path? : Node → Option String
  | member (name id) field => some (id ++ "." ++ field)
  | member object field => object.path?.map fun p => p ++ "." ++ field
  | _ => none

def isAbsent : Node → Bool
  | absent => true
  | _ => false

def kind : Node → String
  | absent => "NoneType"
  | name _ => "str"
  | number _ => "Number"
  | text _ => "String"
  | list _ => "ListLiteral"
  | dict _ => "DictLiteral"
  | keyword .. => "KeywordArg"
  | varDecl .. => "VarDecl"
  | binary .. => "BinOp"
  | unary .. => "UnaryOp"
  | ternary .. => "TernaryOp"
  | func .. => "FuncDecl"
  | template .. => "TemplateDecl"
  | cls .. => "ClassDecl"
  | member .. => "Attribute"
  | call .. => "FuncCall"
  | exprStmt _ => "ExpressionStmt"
  | block _ => "Block"
  | ifStmt .. => "IfStmt"
  | forStmt .. => "ForStmt"
  | whileStmt .. => "WhileStmt"
  | returnStmt _ => "ReturnStmt"
  | breakStmt => "BreakStmt"
  | continueStmt => "ContinueStmt"
  | shell _ => "ShellStmt"
  | tryCatch .. => "TryCatchStmt"
  | intent .. => "Intent"
  | assign .. => "Assign"
  | augAssign .. => "AugAssign"

end Node

end ScriptLang
