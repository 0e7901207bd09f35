import ScriptLang.Store.Basic
import ScriptLang.Text.Search

/-!
# Values as JSON

Lists and dictionaries written as JSON in ASCII, with a blank after each comma and colon. A
container inside itself, or a value without a JSON form, is a failure.
-/

namespace ScriptLang

def jsonUnit (n : Nat) : List Char := '\\' :: 'u' :: Text.hexDigits 4 n

def jsonChar (c : Char) : List Char :=
  match c with
  | '"' => ['\\', '"']
  | '\\' => ['\\', '\\']
  | '\n' => ['\\', 'n']
  | '\r' => ['\\', 'r']
  | '\t' => ['\\', 't']
  | '\x0c' => ['\\', 'f']
  | '\x08' => ['\\', 'b']
  | c =>
    let n := c.toNat
    if 32 ≤ n && n < 127 then [c]
    else if n < 0x10000 then jsonUnit n
    else jsonUnit (0xd800 + (n - 0x10000) / 0x400) ++ jsonUnit (0xdc00 + (n - 0x10000) % 0x400)

def jsonText (s : String) : String := "\"" ++ String.ofList (s.toList.flatMap jsonChar) ++ "\""

def jsonFloat (x : Float) : String := (Number.Layout.mk (-4) 15 "Infinity" "NaN").text x

def jsonInt (i : Int) : Except Failure String :=
  match Number.intText? i with
  | some s => .ok s
  | none => .error .tooLongToWrite

namespace Store

def jsonKey (st : Store) : Value → Except Failure String
  | .text s => .ok s
  | .float x => .ok (jsonFloat x)
  | .bool b => .ok (if b then "true" else "false")
  | .none => .ok "null"
  | .int i => jsonInt i
  | v => .error (.jsonKey (st.typeName v))

/-- The JSON form of a value inside the containers `seen`. -/
def jsonWithin (st : Store) : (fuel : Nat) → (seen : List Ref) → Value → Except Failure String
  | 0, _, _ => .error .circular
  | fuel + 1, seen, v =>
    match v with
    | .text s => .ok (jsonText s)
    | .none => .ok "null"
    | .bool b => .ok (if b then "true" else "false")
    | .int i => jsonInt i
    | .float x => .ok (jsonFloat x)
    | .ref r =>
      let enter (f : Unit → Except Failure String) : Except Failure String :=
        if seen.contains r then .error .circular else f ()
      let list (items : List Value) : Except Failure String := enter fun _ => do
        let ts ← items.mapM (jsonWithin st fuel (r :: seen))
        .ok ("[" ++ Text.join ", " ts ++ "]")
      match st[r]? with
      | some (.list items) => list items.toList
      | some (.tuple items) => list items
      | some (.dict entries) => enter fun _ => do
        let ts ← entries.mapM fun e => do
          let k ← st.jsonKey e.1
          let x ← jsonWithin st fuel (r :: seen) e.2
          .ok (jsonText k ++ ": " ++ x)
        .ok ("\x7b" ++ Text.join ", " ts ++ "\x7d")
      | _ => .error (.notSerializable (st.typeName v))
    | _ => .error (.notSerializable (st.typeName v))

def json (st : Store) (v : Value) : Except Failure String := st.jsonWithin (st.size + 2) [] v

end Store

end ScriptLang
