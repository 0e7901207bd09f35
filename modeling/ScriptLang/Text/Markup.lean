/-!
# Markup tags

Console markup puts style tags in square brackets. `escapeMarkup` protects the brackets of a text
that would read as tags: each gets a backslash before it and the backslashes already there are
doubled.
-/

namespace ScriptLang.Text

private def tagStart (c : Char) : Bool :=
  c.isLower || c == '#' || c == '/' || c == '@'

/-- The body of a tag up to its closing bracket, which may hold no opening bracket. -/
private def tagBody : List Char → Option Nat
  | [] => none
  | ']' :: _ => some 1
  | '[' :: _ => none
  | _ :: cs => (tagBody cs).map (· + 1)

def tagLength? : List Char → Option Nat
  | '[' :: c :: cs => if tagStart c then (tagBody cs).map (· + 2) else none
  | _ => none

/-- Walks a text; `keep` characters of a protected tag are still to be copied. -/
private def escapeFrom : Nat → List Char → List Char
  | _, [] => []
  | keep + 1, c :: cs => c :: escapeFrom keep cs
  | 0, c :: cs =>
    let slashes := (c :: cs).takeWhile (· == '\\')
    match tagLength? ((c :: cs).drop slashes.length) with
    | some n =>
      slashes ++ '\\' :: c :: escapeFrom (slashes.length + n - 1) cs
    | none => c :: escapeFrom 0 cs

/-- The text with the brackets of would-be tags protected; a single final backslash is doubled. -/
def escapeMarkup (s : String) : String :=
  let cs := escapeFrom 0 s.toList
  match cs.reverse with
  | '\\' :: rest => String.ofList (if rest.head? == some '\\' then cs else cs ++ ['\\'])
  | _ => String.ofList cs

end ScriptLang.Text
