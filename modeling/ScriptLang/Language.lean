import ScriptLang.Text.Case
import ScriptLang.Text.Search

/-!
# Languages of messages

A message has a text for each of several languages. The reader's language picks the text of the
same tag, else the first one of the same primary tag, else English, the default text, or the first
text there is.
-/

namespace ScriptLang

def primaryTag (tag : String) : String :=
  Text.lower ((Text.splitOn (Text.replace tag "_" "-") "-").headD "")

def pickText {α : Type} (reader : Option String) (texts : List (String × α)) : Option α :=
  let same := reader.bind fun tag => texts.lookup tag
  let related := reader.bind fun tag =>
    (texts.find? fun entry => primaryTag entry.1 == primaryTag tag).map Prod.snd
  same <|> related <|> texts.lookup "en" <|> texts.lookup "default" <|>
    texts.head?.map Prod.snd

/-- Fills in placeholders, one after the other: each occurrence of a name in braces is replaced by
the text that goes with the name. -/
def fillIn (items : List (String × String)) (text : String) : String :=
  items.foldl (fun text item => Text.replace text ("\x7b" ++ item.1 ++ "\x7d") item.2) text

end ScriptLang
