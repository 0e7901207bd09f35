import ScriptLang.Text.Utf8
import ScriptLang.Text.CharName

/-!
# Escape sequences

The body of a string literal is decoded byte by byte: a backslash starts an escape, and every other
byte stands for the character of its number. The usual letters, up to three octal digits, two, four
or eight hexadecimal digits, and character names are understood; a backslash before anything else
stands for itself. `unescape` gives character numbers, since an escape may name a number that is
no character on its own.
-/

namespace ScriptLang.Text

inductive EscapeFault where
  | endOfText
  | shortHex (letter : Char)
  | beyondUnicode
  | malformedName
  | unknownName
  deriving DecidableEq, Repr

structure EscapeError where
  fault : EscapeFault
  first : Nat
  last : Nat
  deriving DecidableEq, Repr

def EscapeFault.message : EscapeFault → String
  | .endOfText => "\\ at end of string"
  | .shortHex 'x' => "truncated \\xXX escape"
  | .shortHex 'u' => "truncated \\uXXXX escape"
  | .shortHex _ => "truncated \\UXXXXXXXX escape"
  | .beyondUnicode => "illegal Unicode character"
  | .malformedName => "malformed \\N character escape"
  | .unknownName => "unknown Unicode character name"

def EscapeError.message (e : EscapeError) : String :=
  (if e.first == e.last then
    "'unicodeescape' codec can't decode byte 0x5c in position " ++ toString e.first
  else
    "'unicodeescape' codec can't decode bytes in position " ++ toString e.first ++ "-" ++
      toString e.last) ++ ": " ++ e.fault.message

def hexValue? (b : Nat) : Option Nat :=
  if 48 ≤ b && b ≤ 57 then some (b - 48)
  else if 97 ≤ b && b ≤ 102 then some (b - 87)
  else if 65 ≤ b && b ≤ 70 then some (b - 55)
  else none

/-- Reads exactly `count` hexadecimal digits; a failure tells how many were there. -/
def readHex : (count used value : Nat) → List Nat → Except Nat Nat
  | 0, _, value, _ => .ok value
  | _ + 1, used, _, [] => .error used
  | count + 1, used, value, b :: bs =>
    match hexValue? b with
    | some d => readHex count (used + 1) (value * 16 + d) bs
    | none => .error used

/-- The octal digits, at most two, after the first one. -/
private def readOctal : (room value used : Nat) → List Nat → Nat × Nat
  | 0, value, used, _ => (value, used)
  | _ + 1, value, used, [] => (value, used)
  | room + 1, value, used, b :: bs =>
    if 48 ≤ b && b ≤ 55 then readOctal room (value * 8 + (b - 48)) (used + 1) bs
    else (value, used)

private def hexEscape (first : Nat) (letter : Char) (count : Nat) (bs : List Nat) :
    Except EscapeError (List Nat × Nat) :=
  match readHex count 0 0 bs with
  | .error used => .error ⟨.shortHex letter, first, first + 1 + used⟩
  | .ok value =>
    if value > 0x10ffff then .error ⟨.beyondUnicode, first, first + 1 + count⟩
    else .ok ([value], count + 1)

private def namedEscape (first : Nat) : List Nat → Except EscapeError (List Nat × Nat)
  | 0x7b :: bs =>
    let name := bs.takeWhile (· != 0x7d)
    if name.length == bs.length then .error ⟨.malformedName, first, first + 2 + name.length⟩
    else if name.isEmpty then .error ⟨.malformedName, first, first + 2⟩
    else match charNamed? (String.ofList (name.map Char.ofNat)) with
      | some n => .ok ([n], name.length + 3)
      | none => .error ⟨.unknownName, first, first + 3 + name.length⟩
  | _ => .error ⟨.malformedName, first, first + 1⟩

/-- The letters that stand for one control character or for themselves. -/
def simpleEscape? : Nat → Option Nat
  | 0x5c => some 0x5c
  | 0x27 => some 0x27
  | 0x22 => some 0x22
  | 0x62 => some 8
  | 0x66 => some 12
  | 0x74 => some 9
  | 0x6e => some 10
  | 0x72 => some 13
  | 0x76 => some 11
  | 0x61 => some 7
  | _ => none

/-- The characters of the escape whose backslash is byte `first` and is followed by `bs`, and the
number of bytes read after the backslash. -/
def escapeAt (first : Nat) : List Nat → Except EscapeError (List Nat × Nat)
  | [] => .error ⟨.endOfText, first, first⟩
  | b :: bs =>
    if b == 10 then .ok ([], 1)
    else match simpleEscape? b with
      | some n => .ok ([n], 1)
      | none =>
        if 48 ≤ b && b ≤ 55 then
          let (value, used) := readOctal 2 (b - 48) 0 bs
          .ok ([value], used + 1)
        else if b == 0x78 then hexEscape first 'x' 2 bs
        else if b == 0x75 then hexEscape first 'u' 4 bs
        else if b == 0x55 then hexEscape first 'U' 8 bs
        else if b == 0x4e then namedEscape first bs
        else .ok ([0x5c, b], 1)

/-- Decodes from byte `pos` on; `skip` bytes of an escape are still to be passed over. -/
def unescapeFrom (pos : Nat) : Nat → List Nat → Except EscapeError (List Nat)
  | _, [] => .ok []
  | skip + 1, _ :: bs => unescapeFrom (pos + 1) skip bs
  | 0, b :: bs =>
    if b == 0x5c then
      match escapeAt pos bs with
      | .error e => .error e
      | .ok (out, used) => (unescapeFrom (pos + 1) used bs).map (out ++ ·)
    else (unescapeFrom (pos + 1) 0 bs).map (b :: ·)

/-- The character numbers that the body of a string literal stands for. -/
def unescape (s : String) : Except EscapeError (List Nat) := unescapeFrom 0 0 (bytes s)

/-- As `unescape`, for a text whose escapes name characters only. -/
def unescapeText (s : String) : Except EscapeError String :=
  (unescape s).map fun ns => String.ofList (ns.map Char.ofNat)

end ScriptLang.Text
