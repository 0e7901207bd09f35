import ScriptLang.Failure
import ScriptLang.Moment
import ScriptLang.Node.Basic
import ScriptLang.Scope

/-!
# Values

A value is either immediate or refers to an object of the store, which other values may share. The
functions that the language provides are values too, one constructor each. So are some parts of the
interpreter itself, which a program reaches through the attributes of functions and classes.
-/

namespace ScriptLang

abbrev Ref := Nat

inductive Builtin where
  | print | colorPrint | showValue | ask | moduleEnable | error | exit | raise
  | languageSet | levelSet
  | minimum | maximum | modulo | define | undefine | locals | globals | count | execute
  | reset | minimalize | range
  | importLibrary | importPathAdd | importFile
  | memoryInfo | memoryCollect | memoryDeepSize | memoryUsage | memoryClear | memoryLimit
  | memoryAllocate | memoryFree | autoCollectSet | collectAfterSet
  | docsGet | docsSet | environment | shellRun | shellDirectorySet
  | textType | intType | floatType | listType | dictType
  | epoch48 | epoch64 | epochMoment
  deriving DecidableEq, Repr, Inhabited

inductive Stream where
  | input | output | error
  deriving DecidableEq, Repr, Inhabited

/-- Parts of the interpreter that a program can get hold of. What stands in the body of a function
is told apart by its place: the number of the function's code and the way from there. -/
inductive Internal where
  | interpreter
  | scope (e : ScopeId)
  | node (place : List Nat) (node : Node)
  | nodes (place : List Nat) (nodes : List Node)
  deriving Repr, Inhabited

inductive Value where
  | none
  | bool (b : Bool)
  | int (i : Int)
  | float (x : Float)
  | text (s : String)
  /-- The integers from `start` on, `step` apart, that do not reach `stop`. -/
  | range (start stop step : Int)
  | moment (m : Moment)
  | builtin (f : Builtin)
  /-- An operation of a value, such as the `append` of a list. -/
  | method (receiver : Value) (name : String)
  /-- An operation of a type that is still without the value it works on. -/
  | typeMethod (type : Builtin) (name : String)
  | stream (s : Stream)
  /-- The settings of the interpreter. -/
  | options
  | internal (part : Internal)
  | ref (r : Ref)
  deriving Repr, Inhabited

namespace Internal

/-- A part of a function's body as a value; an empty place is nothing, and a bare name is a text. -/
def ofNode (place : List Nat) : Node → Value
  | .absent => .none
  | .name id => .text id
  | n => .internal (.node place n)

def ofNodes (place : List Nat) (ns : List Node) : List Value :=
  ns.zipIdx.map fun e => ofNode (place ++ [e.2]) e.1

/-- A part of a part by its name, if it has one that is a statement or a list of statements. -/
def part? : Internal → String → Option Value
  | .node place (.block ns), "statements" | .node place (.func _ _ _ ns), "body"
  | .node place (.template _ ns), "body" | .node place (.cls _ _ ns), "body" =>
    some (.internal (.nodes (place ++ [0]) ns))
  | .node place (.forStmt _ _ n), "body" | .node place (.whileStmt _ n), "body"
  | .node place (.ifStmt _ n _), "then_block" | .node place (.tryCatch n _ _), "try_block" =>
    some (ofNode (place ++ [0]) n)
  | .node place (.ifStmt _ _ n), "else_block" | .node place (.tryCatch _ _ n), "catch_block" =>
    some (ofNode (place ++ [1]) n)
  | _, _ => none

def operations : Internal → List String
  | .interpreter => ["execute", "evaluate"]
  | .scope _ => ["push_block", "pop_block"]
  | _ => []

def same : Internal → Internal → Bool
  | .interpreter, .interpreter => true
  | .scope a, .scope b => a == b
  | .node a _, .node b _ | .nodes a _, .nodes b _ => a == b
  | _, _ => false

end Internal

def Value.isNodes : Value → Bool
  | internal (.nodes ..) => true
  | _ => false

def rangeLength (start stop step : Int) : Nat :=
  if step > 0 then ((stop - start + step - 1) / step).toNat
  else if step < 0 then ((start - stop - step - 1) / (-step)).toNat
  else 0

def rangeItem (start step : Int) (i : Nat) : Int := start + step * i

def Category.label : Category → String
  | .wrongType => "TypeError"
  | .badValue => "ValueError"
  | .badIndex => "IndexError"
  | .noKey => "KeyError"
  | .noAttribute => "AttributeError"
  | .zeroDivision => "ZeroDivisionError"
  | .overflow => "OverflowError"
  | .endOfInput => "EOFError"
  | .unassigned => "UnboundLocalError"
  | .badEscape => "UnicodeDecodeError"
  | .fileMissing => "FileNotFoundError"
  | .fileExists => "FileExistsError"
  | .notADirectory => "NotADirectoryError"
  | .isADirectory => "IsADirectoryError"
  | .moduleMissing => "ModuleNotFoundError"
  | .download => "URLError"
  | .network => "ConnectionError"
  | .status => "HTTPError"
  | .badArchive => "BadZipFile"
  | .badJson => "JSONDecodeError"
  | .execution => "RuntimeError"
  | .syntaxFault => "SyntaxError"
  | .system => "OSError"
  | .unreadable => "UnsupportedOperation"

def Builtin.typeName : Builtin → String
  | .print | .colorPrint | .showValue | .moduleEnable | .define | .undefine | .docsGet | .docsSet
  | .memoryInfo | .memoryCollect | .memoryDeepSize | .memoryUsage | .memoryClear | .memoryLimit
  | .memoryAllocate | .memoryFree => "method"
  | .ask | .minimum | .maximum => "builtin_function_or_method"
  | .error | .textType | .intType | .floatType | .listType | .dictType => "type"
  | _ => "function"

end ScriptLang
