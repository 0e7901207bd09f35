import ScriptLang.Node.Basic
import ScriptLang.Number.Decimal
import ScriptLang.Text.Quoted
import ScriptLang.Text.Search

/-!
# Written form of syntax trees

Messages show a node by its class and fields. A bare identifier is shown as it is, and in quotes
inside a list. Assignments and scope declarations have no written form, so neither has a node that
would show one.
-/

namespace ScriptLang

def Literal.describe : Literal → String
  | .int i => toString i
  | .float x => Number.floatText x

namespace Node

private def form (label : String) (fields : List String) : String :=
  label ++ "(" ++ Text.join ", " fields ++ ")"

private def brackets (items : List String) : String := "[" ++ Text.join ", " items ++ "]"

private def tuple (items : List String) : String := "(" ++ Text.join ", " items ++ ")"

mutual

def describe? : Node → Option String
  | absent => some "None"
  | name id => some id
  | number v => some (form "Number" [v.describe])
  | text s => some (form "String" [s])
  | list items => (describeItems items).map fun s => form "ListLiteral" [brackets s]
  | dict pairs => (describePairs pairs).map fun s => form "DictLiteral" [brackets s]
  | keyword n value => (describe? value).map fun s => "KeywordArg(" ++ n ++ "=" ++ s ++ ")"
  | varDecl n t e => (describe? e).map fun s => form "VarDecl" [n, t, s]
  | binary l op r =>
    (describe? l).bind fun sl => (describe? r).map fun sr => form "BinOp" [sl, op.symbol, sr]
  | unary op e => (describe? e).map fun s => form "UnaryOp" [op.symbol, s]
  | ternary c a b =>
    (describe? c).bind fun sc => (describe? a).bind fun sa => (describe? b).map fun sb =>
      form "TernaryOp" [sc, sa, sb]
  | func n params returns body =>
    (describeParams params).bind fun sp => (describeItems body).map fun sb =>
      form "FuncDecl" [n, brackets sp, returns, brackets sb]
  | template n _ => some (form "TemplateDecl" [n])
  | cls n base _ => some (form "ClassDecl" [n, "base=" ++ base.getD "None"])
  | member object n => (describe? object).map fun s => form "Attribute" [s, n]
  | call callee args =>
    (describe? callee).bind fun sc => (describeItems args).map fun sa =>
      form "FuncCall" [sc, brackets sa]
  | exprStmt e => (describe? e).map fun s => form "ExpressionStmt" [s]
  | block stmts => (describeItems stmts).map fun s => form "Block" [brackets s]
  | ifStmt c a b =>
    (describe? c).bind fun sc => (describe? a).bind fun sa => (describe? b).map fun sb =>
      form "IfStmt" [sc, sa, sb]
  | forStmt v e body =>
    (describe? e).bind fun se => (describe? body).map fun sb => form "ForStmt" [v, se, sb]
  | whileStmt c body =>
    (describe? c).bind fun sc => (describe? body).map fun sb => form "WhileStmt" [sc, sb]
  | returnStmt e => (describe? e).map fun s => form "ReturnStmt" [s]
  | breakStmt => some "BreakStmt()"
  | continueStmt => some "ContinueStmt()"
  | shell command => some (form "ShellStmt" [command])
  | tryCatch _ v _ => some (form "TryCatchStmt" ["try", "catch " ++ v])
  | intent .. => none
  | assign .. => none
  | augAssign .. => none

def describeItem : Node → Option String
  | name id => some (Text.quote id)
  | absent => some "None"
  | number v => some (form "Number" [v.describe])
  | node => describe? node

def describeItems : List Node → Option (List String)
  | [] => some []
  | n :: rest => (describeItem n).bind fun s => (describeItems rest).map (s :: ·)

def describePairs : List (String × Node) → Option (List String)
  | [] => some []
  | (key, n) :: rest =>
    (describeItem n).bind fun s =>
      (describePairs rest).map (tuple [Text.quote key, s] :: ·)

def describeParams : List (String × String × Node) → Option (List String)
  | [] => some []
  | (n, t, d) :: rest =>
    (describeItem d).bind fun s =>
      (describeParams rest).map (tuple [Text.quote n, Text.quote t, s] :: ·)

end

def describe (n : Node) : String := n.describe?.getD ""

end Node

end ScriptLang
