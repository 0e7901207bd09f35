/-!
# Searching and replacing

Occurrences of one text in another, read from the left and without overlap. An empty text occurs
before every character and at the end.
-/

namespace ScriptLang.Text

/-- Walks a text, replacing occurrences of the non-empty `pat`; `skip` characters of an occurrence
are still to be dropped. -/
def replaceFrom (pat new : List Char) : Nat → List Char → List Char
  | _, [] => []
  | skip + 1, _ :: cs => replaceFrom pat new skip cs
  | 0, c :: cs =>
    if pat.isPrefixOf (c :: cs) then new ++ replaceFrom pat new (pat.length - 1) cs
    else c :: replaceFrom pat new 0 cs

def replaceChars (pat new cs : List Char) : List Char :=
  if pat.isEmpty then new ++ cs.flatMap fun c => c :: new
  else replaceFrom pat new 0 cs

def replace (s pat new : String) : String :=
  String.ofList (replaceChars pat.toList new.toList s.toList)

/-- Cuts a text at a non-empty separator; `piece` is what stands before, backwards, and `skip`
characters of a separator are still to be dropped. -/
def splitFrom (sep : List Char) : Nat → List Char → List Char → List (List Char)
  | _, piece, [] => [piece.reverse]
  | skip + 1, piece, _ :: cs => splitFrom sep skip piece cs
  | 0, piece, c :: cs =>
    if sep.isPrefixOf (c :: cs) then piece.reverse :: splitFrom sep (sep.length - 1) [] cs
    else splitFrom sep 0 (c :: piece) cs

def splitOn (s sep : String) : List String :=
  (splitFrom sep.toList 0 [] s.toList).map String.ofList

private def splitUpToFrom (sep : List Char) : Nat → Nat → List Char → List Char → List (List Char)
  | _, _, piece, [] => [piece.reverse]
  | limit, skip + 1, piece, _ :: cs => splitUpToFrom sep limit skip piece cs
  | 0, 0, piece, c :: cs => splitUpToFrom sep 0 0 (c :: piece) cs
  | limit + 1, 0, piece, c :: cs =>
    if sep.isPrefixOf (c :: cs) then
      piece.reverse :: splitUpToFrom sep limit (sep.length - 1) [] cs
    else splitUpToFrom sep (limit + 1) 0 (c :: piece) cs

def splitUpTo (s sep : String) (limit : Nat) : List String :=
  (splitUpToFrom sep.toList limit 0 [] s.toList).map String.ofList

/-- The position of the first occurrence, where a text starts at a given position. -/
def findFrom (pat : List Char) (at_ : Nat) : List Char → Option Nat
  | [] => if pat.isEmpty then some at_ else none
  | c :: cs => if pat.isPrefixOf (c :: cs) then some at_ else findFrom pat (at_ + 1) cs

def find? (s pat : String) : Option Nat := findFrom pat.toList 0 s.toList

private def countFrom (pat : List Char) : Nat → List Char → Nat
  | _, [] => 0
  | skip + 1, _ :: cs => countFrom pat skip cs
  | 0, c :: cs =>
    if pat.isPrefixOf (c :: cs) then countFrom pat (pat.length - 1) cs + 1
    else countFrom pat 0 cs

/-- The number of occurrences that do not overlap. -/
def count (s pat : String) : Nat :=
  if pat.isEmpty then s.length + 1 else countFrom pat.toList 0 s.toList

def contains (s pat : String) : Bool := (find? s pat).isSome

def startsWith (s pat : String) : Bool := pat.toList.isPrefixOf s.toList

def endsWith (s pat : String) : Bool := pat.toList.isSuffixOf s.toList

def join (sep : String) : List String → String
  | [] => ""
  | [s] => s
  | s :: rest => s ++ sep ++ join sep rest

/-- A text cut at the last occurrence of a character, which is dropped; `none` without one. -/
def cutLast? (c : Char) (s : String) : Option (String × String) :=
  let back := s.toList.reverse
  if back.contains c then
    some (String.ofList (back.dropWhile (· != c)).tail.reverse,
      String.ofList (back.takeWhile (· != c)).reverse)
  else none

def cutFirst (c : Char) (s : String) : String × String :=
  (String.ofList (s.toList.takeWhile (· != c)), String.ofList (s.toList.dropWhile (· != c)).tail)

end ScriptLang.Text
