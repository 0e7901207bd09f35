import ScriptLang.Node.Describe
import ScriptLang.Notice
import ScriptLang.Store.Basic

/-!
# Values as text

`Store.text` is the text of a value on its own, `Store.quoted` its form inside a list or a message,
where a text stands in quotes. A container met again inside itself is shown by dots. Integers with
too many digits have no text.
-/

namespace ScriptLang

/-- Bytes between quotes, those outside the printable ASCII range as escapes. -/
def quoteBytes (data : List Nat) : String :=
  let cs := data.map Char.ofNat
  let q := Text.quoteFor cs
  let one (c : Char) : List Char :=
    if c == q || c == '\\' then ['\\', c]
    else if c == '\t' then ['\\', 't']
    else if c == '\n' then ['\\', 'n']
    else if c == '\r' then ['\\', 'r']
    else if 32 ≤ c.toNat && c.toNat < 127 then [c]
    else '\\' :: 'x' :: Text.hexDigits 2 c.toNat
  String.ofList ('b' :: q :: (cs.flatMap one ++ [q]))

def Builtin.describe : Builtin → String
  | .minimum => "<built-in function min>"
  | .maximum => "<built-in function max>"
  | .ask => "<built-in function input>"
  | .textType => "<class 'str'>"
  | .intType => "<class 'int'>"
  | .floatType => "<class 'float'>"
  | .listType => "<class 'list'>"
  | .dictType => "<class 'dict'>"
  | f => "<" ++ f.typeName ++ ">"

namespace Store

private def commas (items : List String) : String := Text.join ", " items

private def tupleText : List String → String
  | [s] => "(" ++ s ++ ",)"
  | items => "(" ++ commas items ++ ")"

private def dictText (pairs : List (String × String)) : String :=
  "\x7b" ++ commas (pairs.map fun p => p.1 ++ ": " ++ p.2) ++ "\x7d"

mutual

/-- The text of a value inside another one, for a reader of a language; `seen` are the containers
around it. -/
def quotedWithin (st : Store) (reader : Option String) :
    (fuel : Nat) → (seen : List Ref) → Value → Except Failure String
  | 0, _, _ => .ok "..."
  | fuel + 1, seen, v =>
    match v with
    | .none => .ok "None"
    | .bool b => .ok (if b then "True" else "False")
    | .int i =>
      match Number.intText? i with
      | some s => .ok s
      | none => .error .tooLongToWrite
    | .float x => .ok (Number.floatText x)
    | .text s => .ok (Text.quote s)
    | .range a b c => do
      let ints := if c == 1 then [a, b] else [a, b, c]
      let items ← ints.mapM fun i => quotedWithin st reader fuel seen (.int i)
      .ok ("range(" ++ commas items ++ ")")
    | .moment m => .ok m.quoted
    | .builtin f => .ok f.describe
    | .method _ name => .ok ("<built-in method " ++ name ++ ">")
    | .typeMethod _ name => .ok ("<method '" ++ name ++ "'>")
    | .stream _ => .ok "<stream>"
    | .options => .ok "<options>"
    | .internal (.node _ n) => .ok n.describe
    | .internal (.nodes _ ns) => .ok ("[" ++ commas (ns.map Node.describe) ++ "]")
    | .internal _ => .ok ("<" ++ st.typeName v ++ " object>")
    | .ref r =>
      match st[r]? with
      | some (.list items) =>
        if seen.contains r then .ok "[...]"
        else do
          let ts ← items.toList.mapM (quotedWithin st reader fuel (r :: seen))
          .ok ("[" ++ commas ts ++ "]")
      | some (.tuple items) =>
        if seen.contains r then .ok "(...)"
        else do
          let ts ← items.mapM (quotedWithin st reader fuel (r :: seen))
          .ok (tupleText ts)
      | some (.dict entries) =>
        if seen.contains r then .ok "\x7b...\x7d"
        else do
          let ts ← entries.mapM fun e => do
            let k ← quotedWithin st reader fuel (r :: seen) e.1
            let x ← quotedWithin st reader fuel (r :: seen) e.2
            .ok (k, x)
          .ok (dictText ts)
      | some (.bytes data) => .ok ("bytearray(" ++ quoteBytes data.toList ++ ")")
      | some (.view kind d) =>
        if seen.contains r then .ok "..."
        else do
          let entries := (st.dict? (.ref d)).getD []
          let ts ← entries.mapM fun e =>
            match kind with
            | .keys => quotedWithin st reader fuel (r :: seen) e.1
            | .values => quotedWithin st reader fuel (r :: seen) e.2
            | .items => do
              let k ← quotedWithin st reader fuel (r :: seen) e.1
              let x ← quotedWithin st reader fuel (r :: seen) e.2
              .ok (tupleText [k, x])
          .ok (st.typeName v ++ "([" ++ commas ts ++ "])")
      | some (.fault f _) => do
        let ts ← f.args.mapM (quotedWithin st reader fuel (r :: seen))
        .ok ("YPSHException(" ++ commas ts ++ ")")
      | some (.failure f _) =>
        match f with
        | .keyMissing key => .ok ("KeyError(" ++ key ++ ")")
        | _ => .ok (f.category.label ++ "(" ++ Text.quote f.message ++ ")")
      | _ => .ok ("<" ++ st.typeName v ++ " object>")

def textWithin (st : Store) (reader : Option String) : (fuel : Nat) → Value → Except Failure String
  | 0, _ => .ok "..."
  | fuel + 1, v =>
    match v with
    | .text s => .ok s
    | .moment m => .ok m.text
    | .ref r =>
      match st[r]? with
      | some (.fault f _) => faultWithin st reader fuel f
      | some (.failure f _) => .ok f.message
      | _ => quotedWithin st reader (fuel + 1) [] v
    | _ => quotedWithin st reader (fuel + 1) [] v

def faultTextWithin (st : Store) (reader : Option String) :
    (fuel : Nat) → Fault → Except Failure String
  | 0, _ => .ok "..."
  | fuel + 1, f => do
    let entries := (st.dict? f.texts).getD []
    let tagged ← entries.mapM fun e => do
      let k ← textWithin st reader fuel e.1
      .ok (k, e.2)
    match pickText reader tagged with
    | some v => textWithin st reader fuel v
    | none => .ok "No Description"

def faultWithin (st : Store) (reader : Option String) :
    (fuel : Nat) → Fault → Except Failure String
  | 0, _ => .ok "..."
  | fuel + 1, f => do
    let location ← textWithin st reader fuel f.location
    let level ← textWithin st reader fuel f.level
    let number ← textWithin st reader fuel f.number
    let name ← textWithin st reader fuel f.name
    let text ← faultTextWithin st reader fuel f
    .ok (Notice.headline location level number name text)

end

def quoted (st : Store) (reader : Option String) (v : Value) : Except Failure String :=
  st.quotedWithin reader depthBound [] v

def text (st : Store) (reader : Option String) (v : Value) : Except Failure String :=
  st.textWithin reader depthBound v

def faultLine (st : Store) (reader : Option String) (f : Fault) : Except Failure String :=
  st.faultWithin reader depthBound f

end Store

end ScriptLang
