import ScriptLang.Table
import ScriptLang.Value

/-!
# The store

Objects that values refer to. Two values that refer to one object share it, so a change made through
one is seen through the other.
-/

namespace ScriptLang

inductive ViewKind where
  | keys | values | items
  deriving DecidableEq, Repr, Inhabited

/-- Objects that are no more than their fields. -/
inductive RecordKind where
  | template | cls | shellResult | declaration
  deriving DecidableEq, Repr, Inhabited

/-- An error of the language, as a program can make, raise and catch it. -/
structure Fault where
  location : Value
  level : Value
  number : Value
  name : Value
  /-- The texts by language, usually a dictionary. -/
  texts : Value
  args : List Value
  deriving Repr, Inhabited

inductive Obj where
  | list (items : Array Value)
  | tuple (items : List Value)
  | dict (entries : List (Value × Value))
  | bytes (data : Array Nat)
  | view (kind : ViewKind) (dict : Ref)
  /-- A function, by the number of its code; its declaration is a record. -/
  | func (declaration : Ref) (code : Nat) (fields : Table Value)
  | record (kind : RecordKind) (fields : Table Value)
  | inst (cls props : Ref)
  /-- A function that gets a value before its other arguments. -/
  | bound (receiver function : Value)
  | fault (f : Fault) (fields : Table Value)
  | failure (f : Failure) (fields : Table Value)
  deriving Repr, Inhabited

abbrev Store := Array Obj

namespace Store

/-- How deep an operation follows the objects that a value is made of. -/
def depthBound : Nat := 10000

def obj? (st : Store) (r : Ref) : Option Obj := st[r]?

def ofValue? (st : Store) : Value → Option Obj
  | .ref r => st[r]?
  | _ => none

def list? (st : Store) (v : Value) : Option (Array Value) :=
  match st.ofValue? v with
  | some (.list items) => some items
  | _ => none

def dict? (st : Store) (v : Value) : Option (List (Value × Value)) :=
  match st.ofValue? v with
  | some (.dict entries) => some entries
  | _ => none

def typeName (st : Store) : Value → String
  | .none => "NoneType"
  | .bool _ => "bool"
  | .int _ => "int"
  | .float _ => "float"
  | .text _ => "str"
  | .range .. => "range"
  | .moment _ => "datetime"
  | .builtin f => f.typeName
  | .method .. => "builtin_function_or_method"
  | .typeMethod .. => "method_descriptor"
  | .stream _ => "TextIOWrapper"
  | .options => "YPSH_OPTIONS"
  | .internal .interpreter => "Interpreter"
  | .internal (.scope _) => "Environment"
  | .internal (.node _ n) => n.kind
  | .internal (.nodes ..) => "list"
  | .ref r =>
    match st[r]? with
    | some (.list _) => "list"
    | some (.tuple _) => "tuple"
    | some (.dict _) => "dict"
    | some (.bytes _) => "bytearray"
    | some (.view .keys _) => "dict_keys"
    | some (.view .values _) => "dict_values"
    | some (.view .items _) => "dict_items"
    | some (.func ..) => "Function"
    | some (.record .template _) => "Template"
    | some (.record .cls _) => "Class"
    | some (.record .shellResult _) => "ShellExecutionResult"
    | some (.record .declaration _) => "FuncDecl"
    | some (.inst ..) => "Instance"
    | some (.bound ..) => "function"
    | some (.fault ..) => "YPSHException"
    | some (.failure f _) => f.category.label
    | none => "object"

def truth (st : Store) : Value → Bool
  | .none => false
  | .bool b => b
  | .int i => i != 0
  | .float x => x != 0.0
  | .text s => !s.isEmpty
  | .range a b c => rangeLength a b c != 0
  | .internal (.nodes _ ns) => !ns.isEmpty
  | .ref r =>
    match st[r]? with
    | some (.list items) => !items.isEmpty
    | some (.tuple items) => !items.isEmpty
    | some (.dict entries) => !entries.isEmpty
    | some (.bytes data) => !data.isEmpty
    | some (.view _ d) =>
      match st[d]? with
      | some (.dict entries) => !entries.isEmpty
      | _ => true
    | _ => true
  | _ => true

end Store

end ScriptLang
