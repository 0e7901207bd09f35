import ScriptLang.Machine

/-!
# Items of collections

Reading and writing what stands under an index or a key. A negative index counts from the end.
-/

namespace ScriptLang

/-- The place that an index means in a sequence of a given length. -/
def place? (length : Nat) (i : Int) : Option Nat :=
  if 0 ≤ i then (if i < length then some i.toNat else none)
  else if 0 ≤ i + length then some (i + length).toNat else none

namespace Store

def faultText (st : Store) (reader : Option String) (f : Fault) : Except Failure Value := do
  let entries := (st.dict? f.texts).getD []
  let tagged ← entries.mapM fun e => do
    let tag ← st.text reader e.1
    .ok (tag, e.2)
  .ok ((pickText reader tagged).getD (.text "No Description"))

def faultItem (st : Store) (reader : Option String) (f : Fault) (key : Value) :
    Except Failure Value :=
  match key with
  | .text "full" => .text <$> st.faultLine reader f
  | .text "location" => .ok f.location
  | .text "level" => .ok f.level
  | .text "ecode" | .text "code" => .ok f.number
  | .text "name" => .ok f.name
  | .text "desc" => st.faultText reader f
  | _ => do
    let shown ← st.quoted reader key
    .error (.keyMissing shown)

/-- What stands under an index or key of a collection, if anything does. -/
def item? (st : Store) (reader : Option String) (v key : Value) : Option Value :=
  let at_ (length : Nat) : Option Nat := key.int?.bind (place? length)
  match v with
  | .text s => do
    let i ← at_ s.length
    let c ← s.toList[i]?
    pure (.text (String.ofList [c]))
  | .range a b c => (at_ (rangeLength a b c)).map fun i => .int (rangeItem a c i)
  | .internal (.nodes place ns) => (at_ ns.length).bind fun i => (Internal.ofNodes place ns)[i]?
  | .ref r =>
    match st[r]? with
    | some (.list items) => (at_ items.size).bind fun i => items[i]?
    | some (.tuple items) => (at_ items.length).bind fun i => items[i]?
    | some (.bytes data) => do
      let i ← at_ data.size
      let n ← data[i]?
      pure (.int n)
    | some (.dict entries) => if st.isHashable key then st.lookup entries key else none
    | some (.fault f _) => (st.faultItem reader f key).toOption
    | _ => none
  | _ => none

/-- The store after a value was put under an index or key of a collection, if that is allowed. -/
def putItem? (st : Store) (v key value : Value) : Option Store :=
  let at_ (length : Nat) : Option Nat := key.int?.bind (place? length)
  match v with
  | .ref r =>
    match st[r]? with
    | some (.list items) => do
      let i ← at_ items.size
      pure (st.setIfInBounds r (.list (items.setIfInBounds i value)))
    | some (.bytes data) => do
      let i ← at_ data.size
      let n ← value.int?
      if 0 ≤ n ∧ n < 256 then pure (st.setIfInBounds r (.bytes (data.setIfInBounds i n.toNat)))
      else none
    | some (.dict entries) =>
      if st.isHashable key then some (st.setIfInBounds r (.dict (st.insert entries key value)))
      else none
    | _ => none
  | _ => none

end Store

namespace Exec

def item? (v key : Value) : HostExec (Option Value) := do
  let m ← get
  pure (m.store.item? m.reader v key)

def putItem (v key value : Value) : HostExec Bool := do
  if v.isNodes then throw .exhausted
  match (← get).store.putItem? v key value with
  | some st =>
    modifyStore fun _ => st
    pure true
  | none => pure false

def length (v : Value) : HostExec Nat := do
  let none_ : HostExec Nat := do fail (.noLength (← typeName v))
  match v with
  | .text s => pure s.length
  | .range a b c => pure (rangeLength a b c)
  | .internal (.nodes _ ns) => pure ns.length
  | .ref r =>
    match ← obj? r with
    | some (.list items) => pure items.size
    | some (.tuple items) => pure items.length
    | some (.bytes data) => pure data.size
    | some (.dict entries) => pure entries.length
    | some (.view _ d) => return (← entriesOf d).length
    | _ => none_
  | _ => none_

def viewItems (kind : ViewKind) (d : Ref) : HostExec (List Value) := do
  let entries ← entriesOf d
  match kind with
  | .keys => pure (entries.map Prod.fst)
  | .values => pure (entries.map Prod.snd)
  | .items => entries.mapM fun e => newTuple [e.1, e.2]

/-- The next line of standard input with the line break that ends it, if there is one. -/
def takeLine? : HostExec (Option Value) := do
  let cs := (← get).world.input
  if cs.isEmpty then pure none
  else
    let n := (cs.takeWhile (· != '\n')).length + 1
    modifyWorld fun w => { w with input := cs.drop n }
    pure (some (.text (String.ofList (cs.take n))))

def takeLines : (most : Nat) → HostExec (List Value)
  | 0 => pure []
  | most + 1 => do
    match ← takeLine? with
    | some v => return v :: (← takeLines most)
    | none => pure []

/-- The items of a collection, if the value is one. An error has parts, but none under a number. -/
def items? (v : Value) : HostExec (Option (List Value)) := do
  match v with
  | .text s => pure (some (s.toList.map fun c => .text (String.ofList [c])))
  | .range a b c =>
    pure (some ((List.range (rangeLength a b c)).map fun i => .int (rangeItem a c i)))
  | .ref r =>
    match ← obj? r with
    | some (.list items) => pure (some items.toList)
    | some (.tuple items) => pure (some items)
    | some (.bytes data) => pure (some (data.toList.map fun (n : Nat) => .int n))
    | some (.dict entries) => pure (some (entries.map Prod.fst))
    | some (.view kind d) => some <$> viewItems kind d
    | some (.fault ..) => failKey (.int 0)
    | _ => pure none
  | .stream .input => some <$> (takeLines (← get).world.input.length)
  | .stream _ => fail (.other .unreadable "not readable")
  | .internal (.nodes place ns) => pure (some (Internal.ofNodes place ns))
  | _ => pure none

def items (v : Value) : HostExec (List Value) := do
  match ← items? v with
  | some vs => pure vs
  | none => fail (.notIterable (← typeName v))

end Exec

end ScriptLang
