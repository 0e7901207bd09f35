import ScriptLang.Run.Item

/-!
# Errors of the language

Making errors, filling in the placeholders of their texts, and showing them according to how grave
they are.
-/

namespace ScriptLang

structure Grade where
  letter : String
  style : String
  /-- The levels at which it is shown. -/
  levels : List String

/-- The grades from the gravest on: at a level, that grade and all graver ones are shown. -/
def Grade.all : List Grade :=
  [⟨"C", "on red", ["C", "E", "W", "I", "D"]⟩,
   ⟨"E", "red", ["E", "W", "I", "D"]⟩,
   ⟨"W", "yellow", ["W", "I", "D"]⟩,
   ⟨"I", "blue", ["I", "D"]⟩,
   ⟨"D", "cyan", ["D"]⟩]

namespace Exec

def defaultTexts : HostExec Value :=
  newDict [(.text "en", .text "Unknown Error"), (.text "ja", .text "不明なエラー")]

/-- A new error; its argument is the line that shows it. -/
def newFault (location level number name texts : Value) : HostExec Value := do
  let texts ← match texts with
    | .none => defaultTexts
    | v => pure v
  let f : Fault := ⟨location, level, number, name, texts, []⟩
  let m ← get
  let line ← ofExcept (m.store.faultLine m.reader f)
  allocValue (.fault { f with args := [.text line] } [])

/-- What goes with a name among the items that fill placeholders; only a dictionary has any. -/
def placeholderItem (items : Value) (name : String) : HostExec Value := do
  match ← item? items (.text name) with
  | some v => pure v
  | none =>
    match items with
    | .text _ => fail (.other .wrongType "string indices must be integers, not 'str'")
    | _ => fail (.other .wrongType
        ((← typeName items) ++ " indices must be integers or slices, not str"))

def fillPlaceholder (old key items : Value) : HostExec Value := do
  match old with
  | .text s =>
    match key with
    | .text k =>
      let t ← text (← placeholderItem items k)
      pure (.text (Text.replace s ("\x7b" ++ k ++ "\x7d") t))
    | _ => fail (.concatenation "str" (← typeName key))
  | _ => fail (.noAttribute (← typeName old) "replace")

def fillLanguage (d : Ref) (lang items key : Value) : HostExec Unit := do
  let st := (← get).store
  let entries := (st.dict? (.ref d)).getD []
  let filled ← fillPlaceholder ((st.lookup entries lang).getD .none) key items
  let st := (← get).store
  setObj d (.dict (st.insert ((st.dict? (.ref d)).getD []) lang filled))

/-- Fills in the placeholders of all texts of an error, one after the other. -/
def fillFault (r : Ref) (items : Value) : HostExec Unit := do
  match ← obj? r with
  | some (.fault f _) =>
    match f.texts, (← get).store.dict? f.texts with
    | .ref d, some texts =>
      for lang in texts.map Prod.fst do
        for key in ← Exec.items items do
          fillLanguage d lang items key
    | _, _ => pure ()
  | _ => pure ()

def escapeFault (r : Ref) (flag : Value) : HostExec Unit := do
  if ← truth flag then
    match ← obj? r with
    | some (.fault f _) =>
      match f.texts, (← get).store.dict? f.texts with
      | .ref d, some texts =>
        for (lang, old) in texts do
          match old with
          | .text s =>
            let st := (← get).store
            setObj d (.dict (st.insert ((st.dict? (.ref d)).getD []) lang
              (.text (Text.escapeMarkup s))))
          | _ => fail (.textNeeded (← typeName old))
      | _, _ => pure ()
    | _ => pure ()

def noticeFault (id : String) (items flag : Value) : HostExec Value := do
  let form := NoticeForm.find id
  let texts ← newDict (form.texts.map fun e => (.text e.1, .text e.2))
  let v ← newFault (.text "YPSH") (.text "C") (.text form.number) (.text form.name) texts
  match v with
  | .ref r =>
    fillFault r items
    escapeFault r flag
  | _ => pure ()
  pure v

/-- The first of the parts of a value, under the number zero. -/
def firstPart (v : Value) : HostExec Value := do
  match ← item? v (.int 0) with
  | some x => pure x
  | none =>
    match v with
    | .text _ => fail (.indexRange "string")
    | .range .. => fail (.indexRange "range object")
    | _ =>
      match ← objOf? v with
      | some (.list _) | some (.tuple _) | some (.bytes _) => fail (.indexRange (← typeName v))
      | some (.dict _) | some (.fault ..) => failKey (.int 0)
      | _ => fail (.other .wrongType ("'" ++ (← typeName v) ++ "' object is not subscriptable"))

def gradeLetter (level : Value) : HostExec String := do
  match ← firstPart level with
  | .text s => pure (Text.upper s)
  | v => fail (.noAttribute (← typeName v) "upper")

/-- Shows an error according to its grade, and ends the program if it is of the gravest one. The
level, unless empty, goes before the one of the error. Without `check` the gravest grade counts as
the next one, which the error then remembers. -/
def handle (error level : Value) (check : Bool) : HostExec Unit := do
  let own ← match ← objOf? error with
    | some (.fault f _) => gradeLetter f.level
    | _ => pure "W"
  let letter ← if ← truth level then gradeLetter level else pure own
  let letter ←
    if letter == "C" && !check then
      match error, ← objOf? error with
      | .ref r, some (.fault f fields) => setObj r (.fault { f with level := .text "E" } fields)
      | _, _ => pure ()
      pure "E"
    else pure letter
  match Grade.all.find? fun g => g.letter == letter with
  | none => pure ()
  | some g =>
    let isShown := match (← get).level with
      | .text l => g.levels.contains l
      | _ => false
    if isShown then
      let line ← text error
      if letter == "C" then throw (.reported line)
      emit (.styled ("[" ++ g.style ++ "]" ++ line ++ "[/]") "\n")

end Exec

end ScriptLang
