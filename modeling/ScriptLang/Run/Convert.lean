import ScriptLang.Number.Reading
import ScriptLang.Run.Method

/-!
# Types as functions

The built-in types, called as functions, make a value of their type out of another one.
-/

namespace ScriptLang

namespace Exec

private def refuse {α : Type} (s : String) : HostExec α := fail (.other .wrongType s)

def toInteger (v : Value) : HostExec Int := do
  match v with
  | .text s => ofExcept (Number.readInt 10 s (Text.quote s))
  | .float x =>
    match Number.truncate? x with
    | some i => pure i
    | none => fail (if x.isNaN then .nanToInteger else .infiniteToInteger)
  | _ =>
    match v.int? with
    | some i => pure i
    | none => fail (.integerSource (← typeName v))

def toIntegerIn (v base : Value) : HostExec Int := do
  let b ← indexArgument base
  if b != 0 && (b < 2 || b > 36) then
    fail (.other .badValue "int() base must be >= 2 and <= 36, or 0")
  match v with
  | .text s =>
    if b == 0 then ofExcept (Number.readMarkedInt s (Text.quote s))
    else ofExcept (Number.readInt b.toNat s (Text.quote s))
  | _ => fail .baseWithoutText

def toDouble (v : Value) : HostExec Float := do
  match v with
  | .text s => ofExcept (Number.readFloat s (Text.quote s))
  | .float x => pure x
  | _ =>
    match v.int? with
    | some i =>
      match Number.ofInt? i with
      | some x => pure x
      | none => fail .tooLargeForFloat
    | none => fail (.floatSource (← typeName v))

private def checkKnown (label : String) (known : List String) (named : Table Value) :
    HostExec Unit := do
  match named.names.find? fun n => !known.contains n with
  | some n => refuse ("'" ++ n ++ "' is an invalid keyword argument for " ++ label ++ "()")
  | none => pure ()

private def tooMany (label : String) (most : Nat) (args : List Value) (named : Table Value) :
    HostExec Unit := do
  let n := args.length + named.length
  if n > most then
    refuse (label ++ "() takes at most " ++ toString most ++ " arguments (" ++ toString n ++
      " given)")

private def makeText (args : List Value) (named : Table Value) : HostExec Value := do
  tooMany "str" 3 args named
  checkKnown "str" ["object", "encoding", "errors"] named
  for (i, name) in [(1, "encoding"), (2, "errors")] do
    match args[i]? <|> named.get? name with
    | none | some (.text _) => pure ()
    | some v => refuse ("str() argument '" ++ name ++ "' must be str, not " ++ (← givenName v))
  match args[0]? <|> named.get? "object" with
  | none => pure (.text "")
  | some v =>
    if args.length + named.length == 1 then return .text (← text v)
    else match v with
      | .text _ => refuse "decoding str is not supported"
      | _ => refuse ("decoding to str: need a bytes-like object, " ++ (← typeName v) ++ " found")

private def makeInt (args : List Value) (named : Table Value) : HostExec Value := do
  tooMany "int" 2 args named
  checkKnown "int" ["base"] named
  match args[0]?, args[1]? <|> named.get? "base" with
  | none, none => pure (.int 0)
  | none, some _ => refuse "int() missing string argument"
  | some v, none => return .int (← toInteger v)
  | some v, some b => return .int (← toIntegerIn v b)

def construct (t : Builtin) (args : List Value) (named : Table Value) : HostExec Value := do
  match t with
  | .textType => makeText args named
  | .intType => makeInt args named
  | .floatType =>
    countArguments "" "float" 0 1 args named
    match args with
    | v :: _ => return .float (← toDouble v)
    | [] => pure (.float 0.0)
  | .listType =>
    countArguments "" "list" 0 1 args named
    match args with
    | v :: _ => newList (← items v)
    | [] => newList []
  | _ =>
    countArguments "" "dict" 0 1 args []
    let r ← alloc (.dict [])
    mergeInto r args named
    pure (.ref r)

end Exec

end ScriptLang
