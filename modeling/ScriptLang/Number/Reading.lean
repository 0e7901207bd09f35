import ScriptLang.Failure
import ScriptLang.Number.Binary64
import ScriptLang.Text.Blank
import ScriptLang.Text.Case
import ScriptLang.Text.Digit

/-!
# Numbers read from texts

Blanks around a number are allowed, digits may be of any script, and single underscores may stand
between digits.
-/

namespace ScriptLang.Number

def digitOf? (base : Nat) (c : Char) : Option Nat :=
  let value :=
    match Text.digitValue? c with
    | some d => some d
    | none =>
      if 'a' ≤ c && c ≤ 'z' then some (c.toNat - 87)
      else if 'A' ≤ c && c ≤ 'Z' then some (c.toNat - 55)
      else none
  value.filter (· < base)

/-- The digits of a run in which single underscores may stand between digits; `fresh` tells that an
underscore may not come next. -/
def digitsFrom? (base : Nat) : (fresh : Bool) → List Char → Option (List Nat)
  | fresh, [] => if fresh then none else some []
  | fresh, c :: cs =>
    if c == '_' then if fresh then none else digitsFrom? base true cs
    else do
      let d ← digitOf? base c
      let ds ← digitsFrom? base false cs
      pure (d :: ds)

def signed : List Char → Bool × List Char
  | '-' :: cs => (true, cs)
  | '+' :: cs => (false, cs)
  | cs => (false, cs)

def baseMark : Nat → List Char
  | 2 => ['b', 'B']
  | 8 => ['o', 'O']
  | 16 => ['x', 'X']
  | _ => []

/-- The digits without the mark of their base; an underscore may follow the mark. -/
def unmarked (base : Nat) : List Char → List Char
  | '0' :: c :: '_' :: cs => if (baseMark base).contains c then cs else '0' :: c :: '_' :: cs
  | '0' :: c :: cs => if (baseMark base).contains c then cs else '0' :: c :: cs
  | cs => cs

def isPowerOfTwo (base : Nat) : Bool := [2, 4, 8, 16, 32].contains base

/-- The integer that a text spells in a base; `shown` is the text as a message quotes it. -/
def readInt (base : Nat) (s shown : String) : Except Failure Int :=
  let (negative, cs) := signed (Text.trimWhere Text.isBlank s.toList)
  match digitsFrom? base true (unmarked base cs) with
  | none => .error (.badInteger base shown)
  | some ds =>
    if ds.length > 4300 && !isPowerOfTwo base then .error (.tooManyDigits ds.length)
    else
      let n : Nat := ds.foldl (fun n d => n * base + d) 0
      .ok (if negative then -(n : Int) else n)

/-- The base that the mark in front of the digits tells; ten without a mark. -/
def markedBase : List Char → Nat
  | '0' :: c :: _ => ([2, 8, 16].find? fun base => (baseMark base).contains c).getD 10
  | _ => 10

/-- The integer that a text spells in the base of its mark. Without a mark, only zero may start with
the digit zero. -/
def readMarkedInt (s shown : String) : Except Failure Int :=
  let (_, cs) := signed (Text.trimWhere Text.isBlank s.toList)
  let base := markedBase cs
  match readInt base s shown with
  | .ok i =>
    if base == 10 && i != 0 && cs.head? == some '0' then .error (.badInteger 0 shown) else .ok i
  | .error (.badInteger ..) => .error (.badInteger 0 shown)
  | .error f => .error f

def named? (s : String) : Option Float :=
  match Text.lower s with
  | "inf" | "infinity" => some (Parts.infinite false).toFloat
  | "nan" => some Parts.nan.toFloat
  | _ => none

private def digitRun (cs : List Char) : List Char × List Char :=
  cs.span fun c => Text.isDecimal c || c == '_'

private def part? (cs : List Char) : Option (List Nat) :=
  if cs.isEmpty then some [] else digitsFrom? 10 true cs

private def exponent? : List Char → Option Int
  | [] => some 0
  | e :: cs =>
    if e == 'e' || e == 'E' then
      let (negative, cs) := signed cs
      (digitsFrom? 10 true cs).map fun ds =>
        let n : Nat := ds.foldl (fun n d => n * 10 + d) 0
        if negative then -(n : Int) else n
    else none

private def unsignedFloat? (negative : Bool) (cs : List Char) : Option Float := do
  let (whole, rest) := digitRun cs
  let (fraction, rest) := match rest with
    | '.' :: rest => digitRun rest
    | rest => ([], rest)
  let w ← part? whole
  let f ← part? fraction
  let e ← exponent? rest
  if w.isEmpty && f.isEmpty then none
  else
    let digits : Nat := (w ++ f).foldl (fun n d => n * 10 + d) 0
    pure (ofDecimal negative digits (e - f.length))

def readFloat (s shown : String) : Except Failure Float :=
  let (negative, cs) := signed (Text.trimWhere Text.isBlank s.toList)
  let value := match named? (String.ofList cs) with
    | some x => some (if negative then -x else x)
    | none => unsignedFloat? negative cs
  match value with
  | some x => .ok x
  | none => .error (.badFloat shown)

end ScriptLang.Number
