import ScriptLang.Failure

/-!
# Words of a command line

Blanks divide words. Single quotes keep everything; double quotes keep all but escaped quotes and
backslashes; a backslash outside quotes keeps the next character.
-/

namespace ScriptLang.Shell

private inductive Mode where
  | between
  | word
  | single
  | double
  | escape
  | doubleEscape

private def isGap (c : Char) : Bool := c == ' ' || c == '\t' || c == '\r' || c == '\n'

private def splitFrom : Mode → List Char → List Char → Except Failure (List String)
  | .between, _, [] => .ok []
  | .word, w, [] => .ok [String.ofList w.reverse]
  | .single, _, [] | .double, _, [] => .error .noClosingQuote
  | .escape, _, [] | .doubleEscape, _, [] => .error (.other .badValue "No escaped character")
  | .single, w, c :: cs => if c == '\'' then splitFrom .word w cs else splitFrom .single (c :: w) cs
  | .double, w, c :: cs =>
    if c == '"' then splitFrom .word w cs
    else if c == '\\' then splitFrom .doubleEscape w cs
    else splitFrom .double (c :: w) cs
  | .doubleEscape, w, c :: cs =>
    if c == '"' || c == '\\' then splitFrom .double (c :: w) cs
    else splitFrom .double (c :: '\\' :: w) cs
  | .escape, w, c :: cs => splitFrom .word (c :: w) cs
  | .between, w, c :: cs =>
    if isGap c then splitFrom .between [] cs
    else if c == '\'' then splitFrom .single [] cs
    else if c == '"' then splitFrom .double [] cs
    else if c == '\\' then splitFrom .escape w cs
    else splitFrom .word [c] cs
  | .word, w, c :: cs =>
    if isGap c then (String.ofList w.reverse :: ·) <$> splitFrom .between [] cs
    else if c == '\'' then splitFrom .single w cs
    else if c == '"' then splitFrom .double w cs
    else if c == '\\' then splitFrom .escape w cs
    else splitFrom .word (c :: w) cs

def splitWords (s : String) : Except Failure (List String) := splitFrom .between [] s.toList

end ScriptLang.Shell
