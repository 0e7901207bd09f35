import ScriptLang.Run.Attribute
import ScriptLang.Run.Engine
import ScriptLang.Run.Fault
import ScriptLang.Run.Signature
import ScriptLang.Run.Sorting
import ScriptLang.Text.Case
import ScriptLang.Text.Digit

/-!
# Operations of built-in types

Texts, lists, dictionaries, numbers, dates and errors have operations that a program calls after a
dot. Lists and dictionaries are changed in place.
-/

namespace ScriptLang

namespace Exec

private def wrongType {α : Type} (s : String) : HostExec α := fail (.other .wrongType s)

/-! ### Counting arguments -/

/-- What was given instead of a text, as some messages name it. -/
def givenName (v : Value) : HostExec String := do
  match v with
  | .none => pure "None"
  | v => typeName v

private def plural (n : Nat) (word : String) : String :=
  toString n ++ " " ++ word ++ (if n == 1 then "" else "s")

def noNames (label : String) (named : Table Value) : HostExec Unit := do
  if !named.isEmpty then wrongType (label ++ "() takes no keyword arguments")

def noArguments (label : String) (args : List Value) (named : Table Value) : HostExec Unit := do
  noNames label named
  if !args.isEmpty then
    wrongType (label ++ "() takes no arguments (" ++ toString args.length ++ " given)")

def oneArgument (label : String) (args : List Value) (named : Table Value) : HostExec Value := do
  noNames label named
  match args with
  | [v] => pure v
  | _ => wrongType (label ++ "() takes exactly one argument (" ++ toString args.length ++ " given)")

def countArguments (type label : String) (least most : Nat) (args : List Value)
    (named : Table Value) : HostExec Unit := do
  noNames (if type.isEmpty then label else type ++ "." ++ label) named
  let n := args.length
  if n < least then
    wrongType (label ++ " expected " ++ (if least == most then "" else "at least ") ++
      plural least "argument" ++ ", got " ++ toString n)
  if n > most then
    wrongType (label ++ " expected " ++ (if least == most then "" else "at most ") ++
      plural most "argument" ++ ", got " ++ toString n)

def searchArguments (label : String) (args : List Value) (named : Table Value) : HostExec Unit := do
  noNames label named
  if args.isEmpty then wrongType (label ++ "() takes at least 1 argument (0 given)")
  if args.length > 3 then
    wrongType (label ++ "() takes at most 3 arguments (" ++ toString args.length ++ " given)")

def indexArgument (v : Value) : HostExec Int := do
  match v.int? with
  | some i => pure i
  | none => fail (.notIndexInteger (← typeName v))

/-- An argument as an integer that counts or numbers items. -/
def sizeArgument (v : Value) : HostExec Int := do
  let i ← indexArgument v
  if i < Nat.pow 2 63 && -(Nat.pow 2 63 : Int) ≤ i then pure i
  else fail (.other .overflow "Python int too large to convert to C ssize_t")

/-- An argument that bounds a part of a sequence; nothing leaves the bound as it is. -/
private def boundArgument (v : Option Value) (default : Int) : HostExec Int := do
  match v with
  | none | some .none => pure default
  | some v =>
    match v.int? with
    | some i => pure i
    | none => wrongType "slice indices must be integers or None or have an __index__ method"

/-- The part of a sequence of length `n` between two bounds: where it starts and ends. -/
private def clampBounds (n : Nat) (low high : Int) : Nat × Nat :=
  let high := if high > n then (n : Int) else if high < 0 then max 0 (high + n) else high
  let low := if low < 0 then max 0 (low + n) else low
  (low.toNat, high.toNat)

/-! ### Texts -/

/-- The part of a text between the bounds given as second and third argument, and its start;
`none` if the bounds leave no part. -/
private def textPart (s : String) (args : List Value) : HostExec (Option (String × Nat)) := do
  let low ← boundArgument args[1]? 0
  let high ← boundArgument args[2]? s.length
  let (low, high) := clampBounds s.length low high
  if low > high then pure none
  else pure (some (String.ofList ((s.toList.drop low).take (high - low)), low))

private def needText (v : Value) : HostExec String := do
  match v with
  | .text s => pure s
  | _ => wrongType ("must be str, not " ++ (← typeName v))

private def findText (label s : String) (args : List Value) (named : Table Value) :
    HostExec (Option Nat) := do
  searchArguments label args named
  let part ← textPart s args
  let pat ← needText (args.headD .none)
  pure (part.bind fun (part, low) => (Text.find? part pat).map (· + low))

private def affixText (label : String) (test : String → String → Bool) (s : String)
    (args : List Value) (named : Table Value) : HostExec Value := do
  searchArguments label args named
  let part ← textPart s args
  let v := args.headD .none
  let candidates ← match v with
    | .text t => pure [t]
    | _ =>
      match ← objOf? v with
      | some (.tuple items) => items.mapM fun x => do
          match x with
          | .text t => pure t
          | _ => wrongType ("tuple for " ++ label ++ " must only contain str, not " ++
              (← typeName x))
      | _ => wrongType (label ++ " first arg must be str or a tuple of str, not " ++
          (← typeName v))
  pure (.bool (part.any fun (part, _) => candidates.any (test part)))

private def joinTexts (i : Nat) : List Value → HostExec (List String)
  | [] => pure []
  | .text s :: rest => do return s :: (← joinTexts (i + 1) rest)
  | v :: _ => do fail (.joinItem i (← typeName v))

/-- The blank-separated words of a text, at most `limit` of them, and the rest as one more. -/
private def wordsUpTo : (limit : Nat) → List Char → List String
  | 0, cs =>
    let rest := cs.dropWhile Text.isBlank
    if rest.isEmpty then [] else [String.ofList rest]
  | limit + 1, cs =>
    let cs := cs.dropWhile Text.isBlank
    if cs.isEmpty then []
    else String.ofList (cs.takeWhile fun c => !Text.isBlank c) ::
      wordsUpTo limit (cs.dropWhile fun c => !Text.isBlank c)

private def splitText (s : String) (args : List Value) (named : Table Value) : HostExec Value := do
  if args.length + named.length > 2 then
    wrongType ("split() takes at most 2 arguments (" ++
      toString (args.length + named.length) ++ " given)")
  let params := ["sep", "maxsplit"]
  match named.names.find? fun n => !params.contains n with
  | some n => wrongType ("'" ++ n ++ "' is an invalid keyword argument for split()")
  | none => pure ()
  match (params.zip args).find? fun p => named.has p.1 with
  | some (n, _) => wrongType ("argument for split() given by name ('" ++ n ++
      "') and position (" ++ (if n == "sep" then "1" else "2") ++ ")")
  | none => pure ()
  let sep := (args[0]? <|> named.get? "sep").getD .none
  let most ← sizeArgument ((args[1]? <|> named.get? "maxsplit").getD (.int (-1)))
  let parts ← match sep with
    | .none => pure (if most < 0 then Text.words s else wordsUpTo most.toNat s.toList)
    | .text "" => fail .emptySeparator
    | .text t => pure (if most < 0 then Text.splitOn s t else Text.splitUpTo s t most.toNat)
    | v => wrongType ("must be str or None, not " ++ (← typeName v))
  newList (parts.map Value.text)

private def replaceText (s : String) (args : List Value) (named : Table Value) :
    HostExec Value := do
  countArguments "str" "replace" 2 3 args named
  let part (i : Nat) : HostExec String := do
    match args[i]? with
    | some (.text t) => pure t
    | v => wrongType ("replace() argument " ++ toString (i + 1) ++ " must be str, not " ++
        (← givenName (v.getD .none)))
  let old ← part 0
  let new ← part 1
  let most ← sizeArgument (args[2]?.getD (.int (-1)))
  if most < 0 then pure (.text (Text.replace s old new))
  else if old.isEmpty then
    let cs := s.toList
    let n := min most.toNat (cs.length + 1)
    let front := (cs.take n).flatMap fun c => new.toList ++ [c]
    let tail := if n > cs.length then new.toList else cs.drop n
    pure (.text (String.ofList (front ++ tail)))
  else pure (.text (Text.join new (Text.splitUpTo s old most.toNat)))

private def stripText (s : String) (args : List Value) (named : Table Value) : HostExec Value := do
  countArguments "str" "strip" 0 1 args named
  match args.headD .none with
  | .none => pure (.text (Text.strip s))
  | .text t => pure (.text (String.ofList (Text.trimWhere (t.toList.contains ·) s.toList)))
  | _ => wrongType "strip arg must be None or str"

def textOperation (s name : String) (args : List Value) (named : Table Value) : HostExec Value := do
  match name with
  | "upper" =>
    noArguments "str.upper" args named
    pure (.text (Text.upper s))
  | "lower" =>
    noArguments "str.lower" args named
    pure (.text (Text.lower s))
  | "isdigit" =>
    noArguments "str.isdigit" args named
    pure (.bool (!s.isEmpty && s.toList.all Text.isNumeral))
  | "strip" => stripText s args named
  | "split" => splitText s args named
  | "replace" => replaceText s args named
  | "join" =>
    let v ← oneArgument "str.join" args named
    match ← items? v with
    | some vs => return .text (Text.join s (← joinTexts 0 vs))
    | none => wrongType "can only join an iterable"
  | "startswith" => affixText name Text.startsWith s args named
  | "endswith" => affixText name Text.endsWith s args named
  | "find" =>
    return .int (((← findText name s args named).map fun (n : Nat) => (n : Int)).getD (-1))
  | "index" =>
    match ← findText name s args named with
    | some n => pure (.int n)
    | none => fail .substringMissing
  | _ =>
    searchArguments "count" args named
    let part ← textPart s args
    let pat ← needText (args.headD .none)
    pure (.int (part.elim 0 fun (part, _) => Text.count part pat))

/-! ### Lists -/

private def setList (r : Ref) (items : List Value) : HostExec Value := do
  setObj r (.list items.toArray)
  pure .none

def sortList (g : Engine) (r : Ref) (items : List Value) (args : List Value)
    (named : Table Value) : Exec Value := do
  if !args.isEmpty then wrongType "sort() takes no positional arguments"
  match named.names.find? fun n => n != "key" && n != "reverse" with
  | some n => wrongType ("'" ++ n ++ "' is an invalid keyword argument for sort()")
  | none => pure ()
  let descending := (← indexArgument ((named.get? "reverse").getD (.bool false))) != 0
  let keyed ← items.mapM fun v => do
    match (named.get? "key").getD .none with
    | .none => pure (v, v)
    | f => return (← g.apply f [v] [], v)
  let st := (← get).store
  let less (a b : Value × Value) : Except Failure Bool := st.ordered "<" a.1 b.1
  let (sorted, failure) := sortBy less (if descending then keyed.reverse else keyed)
  let sorted := if descending then sorted.reverse else sorted
  let _ ← setList r (sorted.map Prod.snd)
  match failure with
  | some f => fail f
  | none => pure .none

private def exactBound (v : Option Value) (default : Int) : HostExec Int := do
  match v with
  | none => pure default
  | some v =>
    match v.int? with
    | some i => pure i
    | none => wrongType "slice indices must be integers or have an __index__ method"

private def findItem (items : List Value) (args : List Value) : HostExec (Option Nat) := do
  let st := (← get).store
  let low ← exactBound args[1]? 0
  let high ← exactBound args[2]? items.length
  let (low, high) := clampBounds items.length low high
  let x := args.headD .none
  pure ((((items.take high).drop low).findIdx? fun v => st.equalItem v x).map (· + low))

def listOperation (g : Engine) (r : Ref) (items : List Value) (name : String)
    (args : List Value) (named : Table Value) : Exec Value := do
  match name with
  | "append" =>
    let v ← oneArgument "list.append" args named
    setList r (items ++ [v])
  | "pop" =>
    countArguments "list" "pop" 0 1 args named
    let i ← sizeArgument (args.headD (.int (-1)))
    if items.isEmpty then fail .emptyPop
    match place? items.length i with
    | some k =>
      let _ ← setList r (items.eraseIdx k)
      pure ((items[k]?).getD .none)
    | none => fail .popRange
  | "insert" =>
    countArguments "list" "insert" 2 2 args named
    let i ← sizeArgument (args.headD .none)
    let (k, _) := clampBounds items.length i items.length
    setList r (items.take k ++ (args[1]?).getD .none :: items.drop k)
  | "extend" =>
    let v ← oneArgument "list.extend" args named
    let more ← Exec.items v
    setList r (items ++ more)
  | "reverse" =>
    noArguments "list.reverse" args named
    setList r items.reverse
  | "sort" => sortList g r items args named
  | "index" =>
    countArguments "list" "index" 1 3 args named
    match ← findItem items args with
    | some k => pure (.int k)
    | none => fail (.itemMissing (← quoted (args.headD .none)))
  | "count" =>
    let v ← oneArgument "list.count" args named
    let st := (← get).store
    pure (.int (items.countP fun x => st.equalItem x v))
  | "remove" =>
    let v ← oneArgument "list.remove" args named
    let st := (← get).store
    match items.findIdx? fun x => st.equalItem x v with
    | some k => setList r (items.eraseIdx k)
    | none => fail .removeMissing
  | "clear" =>
    noArguments "list.clear" args named
    setList r []
  | _ =>
    noArguments "list.copy" args named
    newList items

def tupleOperation (items : List Value) (name : String) (args : List Value)
    (named : Table Value) : HostExec Value := do
  match name with
  | "index" =>
    countArguments "tuple" "index" 1 3 args named
    match ← findItem items args with
    | some k => pure (.int k)
    | none => fail (.other .badValue "tuple.index(x): x not in tuple")
  | _ =>
    let v ← oneArgument "tuple.count" args named
    let st := (← get).store
    pure (.int (items.countP fun x => st.equalItem x v))

/-! ### Dictionaries -/

def putEntry (r : Ref) (key value : Value) : HostExec Unit := do
  let st := (← get).store
  if st.isHashable key then
    setObj r (.dict (st.insert ((st.dict? (.ref r)).getD []) key value))
  else fail (.unhashable (st.typeName key))

private def putPairs (r : Ref) (i : Nat) : List Value → HostExec Unit
  | [] => pure ()
  | v :: rest => do
    match ← items? v with
    | some [key, value] =>
      putEntry r key value
      putPairs r (i + 1) rest
    | some vs => fail (.dictElementLength i vs.length)
    | none => fail (.dictElement i)

/-- Puts the entries of another dictionary or sequence, and named ones, into a dictionary. -/
def mergeInto (r : Ref) (args : List Value) (named : Table Value) : HostExec Unit := do
  match args with
  | v :: _ =>
    match (← get).store.dict? v with
    | some entries => for e in entries do putEntry r e.1 e.2
    | none => putPairs r 0 (← Exec.items v)
  | [] => pure ()
  for e in named do putEntry r (.text e.1) e.2

def dictOperation (r : Ref) (entries : List (Value × Value)) (name : String)
    (args : List Value) (named : Table Value) : HostExec Value := do
  let key : HostExec Value := do
    let k := args.headD .none
    if (← get).store.isHashable k then pure k else fail (.unhashable (← typeName k))
  match name with
  | "get" =>
    countArguments "dict" "get" 1 2 args named
    let st := (← get).store
    pure ((st.lookup entries (← key)).getD ((args[1]?).getD .none))
  | "keys" =>
    noArguments "dict.keys" args named
    allocValue (.view .keys r)
  | "values" =>
    noArguments "dict.values" args named
    allocValue (.view .values r)
  | "items" =>
    noArguments "dict.items" args named
    allocValue (.view .items r)
  | "update" =>
    countArguments "dict" "update" 0 1 args []
    mergeInto r args named
    pure .none
  | "pop" =>
    countArguments "dict" "pop" 1 2 args named
    let st := (← get).store
    let k ← if entries.isEmpty then pure (args.headD .none) else key
    match st.lookup entries k, args[1]? with
    | some v, _ =>
      setObj r (.dict (st.remove entries k))
      pure v
    | none, some v => pure v
    | none, none => failKey k
  | "clear" =>
    noArguments "dict.clear" args named
    setObj r (.dict [])
    pure .none
  | _ =>
    noArguments "dict.copy" args named
    newDict entries

/-! ### Dates -/

private def smallInteger (v : Value) : HostExec Int := do
  let i ← indexArgument v
  if i.natAbs ≥ Nat.pow 2 63 then
    fail (.other .overflow "Python int too large to convert to C long")
  if i ≥ Nat.pow 2 31 then fail (.other .overflow "signed integer is greater than maximum")
  if i < -(Nat.pow 2 31 : Int) then fail (.other .overflow "signed integer is less than minimum")
  pure i

private def replaceMoment (m : Moment) (args : List Value) (named : Table Value) :
    HostExec Value := do
  let names := ["year", "month", "day", "hour", "minute", "second", "microsecond", "tzinfo"]
  match named.names.find? fun n => !names.contains n with
  | some n => wrongType ("'" ++ n ++ "' is an invalid keyword argument for replace()")
  | none => pure ()
  let given (i : Nat) (name : String) : Option Value := args[i]? <|> named.get? name
  let field (i : Nat) (name : String) : HostExec Int := do
    match given i name with
    | some v => smallInteger v
    | none => indexArgument ((m.field? name).getD (.int 0))
  let year ← field 0 "year"
  let month ← field 1 "month"
  let day ← field 2 "day"
  let hour ← field 3 "hour"
  let minute ← field 4 "minute"
  let second ← field 5 "second"
  let micro ← field 6 "microsecond"
  let bad {α : Type} (s : String) : HostExec α := fail (.other .badValue s)
  if year < 1 || year > 9999 then bad ("year " ++ toString year ++ " is out of range")
  if month < 1 || month > 12 then bad "month must be in 1..12"
  if day < 1 || day > Moment.daysInMonth year.toNat month.toNat then
    bad "day is out of range for month"
  if hour < 0 || hour > 23 then bad "hour must be in 0..23"
  if minute < 0 || minute > 59 then bad "minute must be in 0..59"
  if second < 0 || second > 59 then bad "second must be in 0..59"
  if micro < 0 || micro > 999999 then bad "microsecond must be in 0..999999"
  let universal ← match given 7 "tzinfo" with
    | none => pure m.universal
    | some .none => pure false
    | some v => wrongType ("tzinfo argument must be None or of a tzinfo subclass, not type '" ++
        (← typeName v) ++ "'")
  let seconds : Nat := hour.toNat * 3600 + minute.toNat * 60 + second.toNat
  pure (.moment (Moment.ofDay ⟨year.toNat, month.toNat, day.toNat⟩
    (seconds * 1000000 + micro.toNat) universal))

/-! ### All of them -/

private def bitLength (i : Int) : Nat := if i == 0 then 0 else Nat.log2 i.natAbs + 1

/-- The parameters of an operation of errors, which counts the error among its arguments. -/
private def faultSignature (name : String) (isBound : Bool) : HostExec Signature := do
  let empty ← newDict []
  let param : Param :=
    if name == "format" then ⟨"items", some empty⟩ else ⟨"flag", some (.bool false)⟩
  let receiver : List Param := if isBound then [] else [⟨"self", none⟩]
  pure ⟨"YPSHException." ++ name, receiver ++ [param], isBound⟩

/-- Fills in or protects the texts of an error, which is also the result. -/
private def faultOperation (receiver : Value) (name : String) (given : Value) : HostExec Value := do
  match receiver, ← objOf? receiver with
  | .ref r, some (.fault ..) => if name == "format" then fillFault r given else escapeFault r given
  | _, _ =>
    if name == "format" || (← truth given) then fail (.noAttribute (← typeName receiver) "desc")
  pure receiver

def operation (g : Engine) (receiver : Value) (name : String) (args : List Value)
    (named : Table Value) : Exec Value := do
  match receiver with
  | .text s => textOperation s name args named
  | .int i =>
    noArguments "int.bit_length" args named
    pure (.int (bitLength i))
  | .bool b =>
    noArguments "int.bit_length" args named
    pure (.int (if b then 1 else 0))
  | .float x =>
    noArguments "float.is_integer" args named
    pure (.bool (Number.isWhole x))
  | .moment m => replaceMoment m args named
  | .ref r =>
    match ← obj? r with
    | some (.list items) => listOperation g r items.toList name args named
    | some (.tuple items) => tupleOperation items name args named
    | some (.dict entries) => dictOperation r entries name args named
    | some (.fault ..) =>
      let given ← ofExcept ((← faultSignature name true).bind args named)
      faultOperation receiver name (given.headD .none)
    | _ => throw .exhausted
  | _ => throw .exhausted

def isOfType (v : Value) (t : Builtin) : HostExec Bool := do
  match t, v with
  | .textType, .text _ => pure true
  | .intType, .int _ => pure true
  | .intType, .bool _ => pure true
  | .floatType, .float _ => pure true
  | .listType, _ => return ((← get).store.list? v).isSome
  | .dictType, _ => return ((← get).store.dict? v).isSome
  | _, _ => pure false

private def typeLabel : Builtin → String
  | .textType => "str"
  | .intType => "int"
  | .floatType => "float"
  | .listType => "list"
  | _ => "dict"

def typeOperation (g : Engine) (t : Builtin) (name : String) (args : List Value)
    (named : Table Value) : Exec Value := do
  match t, args with
  | .error, args =>
    let given ← ofExcept ((← faultSignature name false).bind args named)
    faultOperation (given.headD .none) name ((given[1]?).getD .none)
  | _, [] => wrongType ("unbound method " ++ typeLabel t ++ "." ++ name ++ "() needs an argument")
  | _, v :: rest =>
    if ← isOfType v t then operation g v name rest named
    else wrongType ("descriptor '" ++ name ++ "' for '" ++ typeLabel t ++
      "' objects doesn't apply to a '" ++ (← typeName v) ++ "' object")

end Exec

end ScriptLang
