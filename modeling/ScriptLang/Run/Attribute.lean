import ScriptLang.Machine

/-!
# Attributes of values

What a name after a dot means on a value. Values of built-in types have operations; records, errors
and functions have fields that a program may also set; an instance has the properties that its class
gave it, of which functions come bound to the instance. Through the fields of functions and classes
a program also reaches parts of the interpreter.

Values have more names than are modelled here. A computation that reads or sets one of those is not
followed: it ends with `Halt.exhausted`.
-/

namespace ScriptLang

def Builtin.operations : Builtin → List String
  | .textType =>
    ["upper", "lower", "strip", "split", "join", "replace", "startswith", "endswith", "find",
     "isdigit", "count", "index"]
  | .listType =>
    ["append", "pop", "insert", "extend", "reverse", "sort", "index", "count", "remove", "clear",
     "copy"]
  | .dictType => ["get", "keys", "values", "items", "update", "pop", "clear", "copy"]
  | .intType => ["bit_length"]
  | .floatType => ["is_integer"]
  | .error => ["format", "escape"]
  | _ => []

def Moment.operations : List String := ["replace"]

def tupleOperations : List String := ["index", "count"]

/-- Names that values of a built-in type have besides their operations. -/
def Builtin.furtherNames : Builtin → List String
  | .textType =>
    ["capitalize", "casefold", "center", "encode", "expandtabs", "format", "format_map", "isalnum",
     "isalpha", "isascii", "isdecimal", "isidentifier", "islower", "isnumeric", "isprintable",
     "isspace", "istitle", "isupper", "ljust", "lstrip", "maketrans", "partition", "removeprefix",
     "removesuffix", "rfind", "rindex", "rjust", "rpartition", "rsplit", "rstrip", "splitlines",
     "swapcase", "title", "translate", "zfill"]
  | .dictType => ["fromkeys", "popitem", "setdefault"]
  | .intType => ["as_integer_ratio", "bit_count", "conjugate", "from_bytes", "to_bytes"]
  | .floatType => ["as_integer_ratio", "conjugate", "fromhex", "hex"]
  | .error => ["_pick_desc_text", "add_note", "args", "with_traceback"]
  | _ => []

def Moment.furtherNames : List String :=
  ["astimezone", "combine", "ctime", "date", "dst", "fold", "fromisocalendar", "fromisoformat",
   "fromordinal", "fromtimestamp", "isocalendar", "isoformat", "isoweekday", "max", "min", "now",
   "resolution", "strftime", "strptime", "time", "timestamp", "timetuple", "timetz", "today",
   "toordinal", "tzinfo", "tzname", "utcfromtimestamp", "utcnow", "utcoffset", "utctimetuple",
   "weekday"]

/-- Names that failures have besides their arguments; each family has some of them. -/
def Failure.furtherNames : List String :=
  ["add_note", "with_traceback", "characters_written", "colno", "doc", "encoding", "end",
   "end_lineno", "end_offset", "errno", "filename", "filename2", "lineno", "msg", "name", "obj",
   "object", "offset", "path", "pos", "print_file_and_line", "reason", "start", "strerror", "text"]

def Scope.furtherNames : List String :=
  ["_block_stack", "_declare_here", "_find_holder", "_intent", "_meta", "_root", "declare", "get",
   "get_intent", "parent", "set", "set_intent", "try_get", "unset", "vars"]

/-- Operations and other names that every instance has, whatever its class gives it. -/
def instanceOperations : List String :=
  ["__delattr__", "__dir__", "__eq__", "__format__", "__ge__", "__getattr__", "__getattribute__",
   "__gt__", "__hash__", "__init__", "__init_subclass__", "__le__", "__lt__", "__ne__", "__new__",
   "__reduce__", "__reduce_ex__", "__repr__", "__setattr__", "__sizeof__", "__str__",
   "__subclasshook__"]

def instanceNames : List String :=
  ["__annotations__", "__class__", "__dict__", "__doc__", "__module__", "__weakref__"]

def isSpecial (name : String) : Bool := Text.startsWith name "__" && Text.endsWith name "__"

/-- Whether a value has a name that is not modelled. -/
def Store.hasFurther (st : Store) (v : Value) (name : String) : Bool :=
  isSpecial name || match v with
  | .text _ => Builtin.textType.furtherNames.contains name
  | .int _ | .bool _ => Builtin.intType.furtherNames.contains name
  | .float _ => Builtin.floatType.furtherNames.contains name
  | .moment _ => Moment.furtherNames.contains name
  | .range .. => tupleOperations.contains name
  | .builtin t =>
    t.typeName == "type" &&
      (["denominator", "imag", "mro", "numerator", "real"] ++ t.furtherNames).contains name
  | .stream _ | .internal .interpreter | .internal (.node ..) => true
  | .internal (.scope _) => Scope.furtherNames.contains name
  | .internal (.nodes ..) => Builtin.listType.operations.contains name
  | .ref r =>
    match st[r]? with
    | some (.dict _) => Builtin.dictType.furtherNames.contains name
    | some (.bytes _) | some (.view ..) => true
    | some (.func ..) => name == "call"
    | some (.record .declaration _) => name == "params"
    | some (.fault ..) => Builtin.error.furtherNames.contains name
    | some (.failure ..) => Failure.furtherNames.contains name
    | _ => false
  | _ => false

/-- Whether setting a name of an object changes what is not modelled. -/
def Obj.isGuarded (o : Obj) (name : String) : Bool :=
  match o with
  | .func .. => name == "decl" || name == "env" || isSpecial name
  | .record .declaration _ | .bound .. => true
  | .record .cls _ => name == "interpreter" || isSpecial name
  | .record .. => isSpecial name
  | .fault .. | .failure .. => name == "args" || isSpecial name
  | _ => false

def Store.isCallable (st : Store) : Value → Bool
  | .builtin _ | .method .. | .typeMethod .. => true
  | .ref r =>
    match st[r]? with
    | some (.bound ..) | some (.record .cls _) => true
    | _ => false
  | _ => false

def Moment.field? (m : Moment) (name : String) : Option Value :=
  let d := m.day
  let t := m.timeOfDay
  match name with
  | "year" => some (.int d.year)
  | "month" => some (.int d.month)
  | "day" => some (.int d.day)
  | "hour" => some (.int (t / 3600000000))
  | "minute" => some (.int (t / 60000000 % 60))
  | "second" => some (.int (t / 1000000 % 60))
  | "microsecond" => some (.int (t % 1000000))
  | _ => none

namespace Exec

def isCallable (v : Value) : HostExec Bool := do return (← get).store.isCallable v

def operation? (names : List String) (v : Value) (name : String) : Option Value :=
  if names.contains name then some (.method v name) else none

/-- A property of an instance: a function is bound to it, and a missing one is nothing. -/
def property (v : Value) (props : Ref) (name : String) : HostExec Value := do
  let m ← get
  let value := (m.store.lookup ((m.store.dict? (.ref props)).getD []) (.text name)).getD .none
  match m.store.ofValue? value with
  | some (.func ..) => allocValue (.bound v value)
  | _ => if m.store.isCallable value then allocValue (.bound v value) else pure value

def modelled? (v : Value) (name : String) : HostExec (Option Value) := do
  match v with
  | .text _ => pure (operation? Builtin.textType.operations v name)
  | .int i =>
    match name with
    | "real" | "numerator" => pure (some (.int i))
    | "imag" => pure (some (.int 0))
    | "denominator" => pure (some (.int 1))
    | _ => pure (operation? Builtin.intType.operations v name)
  | .bool b =>
    match name with
    | "real" | "numerator" => pure (some (.int (if b then 1 else 0)))
    | "imag" => pure (some (.int 0))
    | "denominator" => pure (some (.int 1))
    | _ => pure (operation? Builtin.intType.operations v name)
  | .float x =>
    match name with
    | "real" => pure (some (.float x))
    | "imag" => pure (some (.float 0.0))
    | _ => pure (operation? Builtin.floatType.operations v name)
  | .moment m => pure ((m.field? name) <|> operation? Moment.operations v name)
  | .range a b c =>
    match name with
    | "start" => pure (some (.int a))
    | "stop" => pure (some (.int b))
    | "step" => pure (some (.int c))
    | _ => pure none
  | .builtin t => pure (if t.operations.contains name then some (.typeMethod t name) else none)
  | .options => return (← get).options.get? name
  | .internal part => pure (part.part? name <|> operation? part.operations v name)
  | .ref r =>
    match ← obj? r with
    | some (.list _) => pure (operation? Builtin.listType.operations v name)
    | some (.tuple _) => pure (operation? tupleOperations v name)
    | some (.dict _) => pure (operation? Builtin.dictType.operations v name)
    | some (.func declaration _ fields) =>
      pure (fields.get? name <|> if name == "decl" then some (.ref declaration) else none)
    | some (.record _ fields) => pure (fields.get? name)
    | some (.inst cls props) =>
      if name == "_props" then pure (some (.ref props))
      else if name == "_cls" then pure (some (.ref cls))
      else if instanceOperations.contains name then pure (some (.method v name))
      else if instanceNames.contains name then throw .exhausted
      else some <$> property v props name
    | some (.fault f fields) =>
      match name with
      | "location" => pure (some f.location)
      | "level" => pure (some f.level)
      | "ecode" => pure (some f.number)
      | "name" => pure (some f.name)
      | "desc" => pure (some f.texts)
      | "args" => some <$> newTuple f.args
      | _ => pure (fields.get? name <|> operation? Builtin.error.operations v name)
    | some (.failure f fields) =>
      match fields.get? name, name with
      | some x, _ => pure (some x)
      | none, "args" => some <$> newTuple [.text f.message]
      | none, _ => pure none
    | _ => pure none
  | _ => pure none

def attribute? (v : Value) (name : String) : HostExec (Option Value) := do
  match ← modelled? v name with
  | some x => pure (some x)
  | none => if (← get).store.hasFurther v name then throw .exhausted else pure none

/-- Sets what a name after a dot means on a value and tells whether that was allowed. -/
def putAttribute (v : Value) (name : String) (value : Value) : HostExec Bool := do
  match v with
  | .options =>
    modify fun m => { m with options := m.options.set name value }
    pure true
  | .internal _ => throw .exhausted
  | .ref r =>
    let o ← obj? r
    if o.any (·.isGuarded name) then throw .exhausted
    match o with
    | some (.func declaration code fields) =>
      setObj r (.func declaration code (fields.set name value))
      pure true
    | some (.record kind fields) =>
      setObj r (.record kind (fields.set name value))
      pure true
    | some (.inst _ props) =>
      let st := (← get).store
      setObj props (.dict (st.insert ((st.dict? (.ref props)).getD []) (.text name) value))
      pure true
    | some (.fault f fields) =>
      let changed := match name with
        | "location" => some { f with location := value }
        | "level" => some { f with level := value }
        | "ecode" => some { f with number := value }
        | "name" => some { f with name := value }
        | "desc" => some { f with texts := value }
        | _ => none
      match changed with
      | some f => setObj r (.fault f fields)
      | none => setObj r (.fault f (fields.set name value))
      pure true
    | some (.failure f fields) =>
      setObj r (.failure f (fields.set name value))
      pure true
    | _ => pure false
  | _ => pure false

end Exec

end ScriptLang
