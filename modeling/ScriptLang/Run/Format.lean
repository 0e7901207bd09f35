import ScriptLang.Machine

/-!
# Texts with values filled in

A directive in a text starts with a percent sign and tells how the next of some values is written:
flags, a least width, a precision after a point, and a letter for the form. Every value has to be
used, and there has to be one for each directive.
-/

namespace ScriptLang

structure Directive where
  flags : List Char
  width : Nat
  precision : Option Nat
  form : Char
  deriving DecidableEq, Repr

namespace Directive

private def isFlag (c : Char) : Bool := c == '-' || c == '+' || c == ' ' || c == '#' || c == '0'

private def number (cs : List Char) : Nat := cs.foldl (fun n c => n * 10 + (c.toNat - 48)) 0

/-- The directive after a percent sign and the text after it; `none` if the text ends before. -/
def read? (cs : List Char) : Option (Directive × List Char) :=
  let (flags, cs) := cs.span isFlag
  let (width, cs) := cs.span Char.isDigit
  let (precision, cs) := match cs with
    | '.' :: rest =>
      let (digits, rest) := rest.span Char.isDigit
      (some (number digits), rest)
    | cs => (none, cs)
  match cs with
  | [] => none
  | form :: rest => some (⟨flags, number width, precision, form⟩, rest)

def padText (d : Directive) (cs : List Char) : List Char :=
  let blanks := List.replicate (d.width - cs.length) ' '
  if d.flags.contains '-' then cs ++ blanks else blanks ++ cs

/-- The digits of a number after its sign, filled up to the width with zeros if asked to. -/
def padNumber (d : Directive) (isNegative : Bool) (mark digits : List Char) : List Char :=
  let sign := if isNegative then ['-'] else if d.flags.contains '+' then ['+']
    else if d.flags.contains ' ' then [' '] else []
  let front := sign ++ mark
  let zeros := if d.flags.contains '0' && !d.flags.contains '-' then
      List.replicate (d.width - front.length - digits.length) '0' else []
  d.padText (front ++ zeros ++ digits)

def base? (form : Char) : Option (Nat × List Char) :=
  match form with
  | 'd' | 'i' | 'u' => some (10, [])
  | 'o' => some (8, ['0', 'o'])
  | 'x' => some (16, ['0', 'x'])
  | 'X' => some (16, ['0', 'X'])
  | _ => none

def integer (d : Directive) (base : Nat) (mark : List Char) (i : Int) : List Char :=
  let digits := Nat.toDigits base i.natAbs
  let digits := if d.form == 'X' then digits.map Char.toUpper else digits
  let digits := List.replicate (d.precision.getD 0 - digits.length) '0' ++ digits
  d.padNumber (i < 0) (if d.flags.contains '#' then mark else []) digits

/-- A double with a fixed number of places, six unless the precision tells otherwise. -/
def fixed (d : Directive) (x : Float) : List Char :=
  match (Number.parts x).ratio? with
  | some (isNegative, num, den) =>
    let places := d.precision.getD 6
    let digits := Nat.toDigits 10 (Number.roundDiv (num * Nat.pow 10 places) den)
    let digits := List.replicate (places + 1 - digits.length) '0' ++ digits
    let whole := digits.take (digits.length - places)
    let point := if places == 0 && !d.flags.contains '#' then [] else ['.']
    d.padNumber isNegative [] (whole ++ point ++ digits.drop whole.length)
  | none =>
    let name := if x.isNaN then "nan" else "inf"
    let name := if d.form == 'F' then name.toUpper else name
    { d with flags := d.flags.filter (· != '0') }.padNumber (x < 0.0) [] name.toList

end Directive

namespace Exec

private def refuseForm {α : Type} (d : Directive) (needed : String) (v : Value) : HostExec α := do
  fail (.other .wrongType ("%" ++ String.ofList [d.form] ++ " format: " ++ needed ++
    " is required, not " ++ (← typeName v)))

/-- The integer that a form for integers writes; the decimal ones leave out a fraction. -/
private def formInteger (d : Directive) (base : Nat) (v : Value) : HostExec Int := do
  match v.int?, v with
  | some i, _ => pure i
  | none, .float x =>
    if base != 10 then refuseForm d "an integer" v
    else match Number.truncate? x with
      | some i => pure i
      | none => fail (if x.isNaN then .nanToInteger else .infiniteToInteger)
  | none, _ => refuseForm d (if base == 10 then "a real number" else "an integer") v

private def formDouble (v : Value) : HostExec Float := do
  match v with
  | .float x => pure x
  | _ =>
    match v.int?.map Number.ofInt? with
    | some (some x) => pure x
    | some none => fail .tooLargeForFloat
    | none => fail (.other .wrongType ("must be real number, not " ++ (← typeName v)))

/-- Writes a value as a directive says; `index` is the place of the form in the text. -/
private def fillOne (d : Directive) (index : Nat) (v : Value) : HostExec (List Char) := do
  let cut (s : String) : List Char := match d.precision with
    | some n => s.toList.take n
    | none => s.toList
  match Directive.base? d.form, d.form with
  | some (base, mark), _ => do
    let i ← formInteger d base v
    if base == 10 then
      let _ ← text (.int i)
    pure (d.integer base mark i)
  | none, 's' => return d.padText (cut (← text v))
  | none, 'r' => return d.padText (cut (← quoted v))
  | none, 'f' | none, 'F' => return d.fixed (← formDouble v)
  | none, c =>
    let shown := if 31 ≤ c.toNat && c.toNat < 127 then c else '?'
    fail (.other .badValue ("unsupported format character '" ++ String.ofList [shown] ++ "' (0x" ++
      String.ofList (Nat.toDigits 16 c.toNat) ++ ") at index " ++ toString index))

/-- Fills in values, where `size` is the length of the whole text; also gives those left over. -/
private def fillFrom (size : Nat) : (fuel : Nat) → List Value → List Char →
    HostExec (List Char × List Value)
  | 0, vs, cs => pure (cs, vs)
  | fuel + 1, vs, cs => do
    match cs with
    | [] => pure ([], vs)
    | '%' :: rest =>
      match Directive.read? rest with
      | none => fail (.other .badValue "incomplete format")
      | some (d, rest) =>
        if d.form == '%' then
          let (done, vs) ← fillFrom size fuel vs rest
          pure ('%' :: done, vs)
        else
          match vs with
          | [] => fail (.other .wrongType "not enough arguments for format string")
          | v :: vs =>
            let s ← fillOne d (size - rest.length - 1) v
            let (done, vs) ← fillFrom size fuel vs rest
            pure (s ++ done, vs)
    | c :: rest =>
      let (done, vs) ← fillFrom size fuel vs rest
      pure (c :: done, vs)

/-- Values that a text may look into by name, so that it need not use them. -/
private def isMapping (v : Value) : HostExec Bool := do
  match v with
  | .range .. => pure true
  | _ =>
    match ← objOf? v with
    | some (.list _) | some (.dict _) | some (.bytes _) | some (.fault ..) => pure true
    | _ => pure false

def fillText (s : String) (v : Value) : HostExec Value := do
  let cs := s.toList
  let values ← match ← objOf? v with
    | some (.tuple items) => pure items
    | _ => pure [v]
  let (done, rest) ← fillFrom cs.length (cs.length + 1) values cs
  if rest.isEmpty || (← isMapping v) then pure (.text (String.ofList done)) else fail .formatting

end Exec

end ScriptLang
