import ScriptLang.Number.Decimal
import ScriptLang.Table
import ScriptLang.Text.Quoted
import ScriptLang.Text.Search

/-!
# Data

Values without identity: what settings and files of definitions hold. `Datum.written` is the form in
which a program of definitions spells a datum.
-/

namespace ScriptLang

inductive Datum where
  | none
  | bool (b : Bool)
  | int (i : Int)
  | float (x : Float)
  | text (s : String)
  | list (items : List Datum)
  | dict (entries : List (String × Datum))
  deriving Repr, Inhabited

namespace Datum

def get? (d : Datum) (key : String) : Option Datum :=
  match d with
  | dict entries => Table.get? entries key
  | _ => Option.none

def typeName : Datum → String
  | none => "NoneType"
  | bool _ => "bool"
  | int _ => "int"
  | float _ => "float"
  | text _ => "str"
  | list _ => "list"
  | dict _ => "dict"

mutual

def written : Datum → String
  | none => "None"
  | bool b => if b then "True" else "False"
  | int i => toString i
  | float x => Number.floatText x
  | text s => Text.quote s
  | list items => "[" ++ Text.join ", " (writtenItems items) ++ "]"
  | dict entries => "\x7b" ++ Text.join ", " (writtenEntries entries) ++ "\x7d"

def writtenItems : List Datum → List String
  | [] => []
  | d :: ds => written d :: writtenItems ds

def writtenEntries : List (String × Datum) → List String
  | [] => []
  | (key, d) :: rest => (Text.quote key ++ ": " ++ written d) :: writtenEntries rest

end

def plainText : Datum → String
  | text s => s
  | d => d.written

end Datum

end ScriptLang
