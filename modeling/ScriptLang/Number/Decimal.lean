import ScriptLang.Number.Binary64

/-!
# Decimal text of numbers

A double is written with the fewest digits that read back as the same double, the nearest such
decimal being taken, and of two equally near ones the even one. Integers are written and read up to a
fixed number of digits.
-/

namespace ScriptLang.Number

/-- Whether `d · 10^e` rounds to the double `m · 2^q`: it lies between the midpoints to the
neighbours, the midpoints themselves belonging to an even mantissa. -/
def readsBack (m : Nat) (q : Int) (d : Nat) (e : Int) : Bool :=
  let low := if m == Nat.pow 2 52 && q > -1074 then 4 * m - 1 else 4 * m - 2
  let high := 4 * m + 2
  -- compare d·10^e with low·2^(q-2) and high·2^(q-2), cleared of denominators
  let s := q - 2
  let left := d * Nat.pow 10 e.toNat * Nat.pow 2 (-s).toNat
  let scale := Nat.pow 10 (-e).toNat * Nat.pow 2 s.toNat
  if m % 2 == 0 then low * scale ≤ left && left ≤ high * scale
  else low * scale < left && left < high * scale

/-- The lower one of the two neighbours of `m · 2^q` among the multiples of `10^e`, and whether it
is preferred to the upper one: it is nearer, or it is even and as near. -/
def neighbours (m : Nat) (q : Int) (e : Int) : Nat × Bool :=
  let num := m * Nat.pow 2 q.toNat * Nat.pow 10 (-e).toNat
  let den := Nat.pow 2 (-q).toNat * Nat.pow 10 e.toNat
  let lower := num / den
  let twice := 2 * (num % den)
  (lower, twice < den || (twice == den && lower % 2 == 0))

def leadExponent (m : Nat) (q : Int) : Int :=
  let num := m * Nat.pow 2 q.toNat
  let den := Nat.pow 2 (-q).toNat
  if den ≤ num then (((Nat.toDigits 10 (num / den)).length : Int) - 1)
  else
    -- num / den < 1: the least k with num·10^k ≥ den
    let k := (Nat.toDigits 10 (den / num)).length
    if den ≤ num * Nat.pow 10 (k - 1) then -((k : Int) - 1) else -(k : Int)

/-- The fewest digits `d` and the exponent `e` with `d · 10^e` reading back, tried from `digits`
digits on. -/
def shortestFrom (m : Nat) (q lead : Int) : (tries digits : Nat) → Nat × Int
  | 0, digits => ((neighbours m q (lead - digits)).1, lead - digits)
  | tries + 1, digits =>
    let e := lead - digits
    let (d, isPreferred) := neighbours m q e
    let lower := d > 0 && readsBack m q d e
    let upper := readsBack m q (d + 1) e
    if lower && (isPreferred || !upper) then (d, e)
    else if upper then (d + 1, e)
    else shortestFrom m q lead tries (digits + 1)

def shortest (m : Nat) (q : Int) : Nat × Int :=
  shortestFrom m q (leadExponent m q) 17 0

private def dropZeros : Nat → Nat → Int → Nat × Int
  | 0, d, e => (d, e)
  | fuel + 1, d, e => if d % 10 == 0 && d > 0 then dropZeros fuel (d / 10) (e + 1) else (d, e)

/-- How doubles are laid out: numbers whose leading digit has an exponent from `least` up to
`most` are written without an exponent. -/
structure Layout where
  least : Int
  most : Int
  infinity : String
  notANumber : String

def Layout.standard : Layout := ⟨-4, 15, "inf", "nan"⟩

private def zeros (n : Nat) : String := String.ofList (List.replicate n '0')

def Layout.positive (l : Layout) (digits : String) (lead : Int) : String :=
  if l.least ≤ lead && lead ≤ l.most then
    if lead < 0 then "0." ++ zeros ((-lead).toNat - 1) ++ digits
    else
      let whole := lead.toNat + 1
      if digits.length ≤ whole then digits ++ zeros (whole - digits.length) ++ ".0"
      else String.ofList (digits.toList.take whole) ++ "." ++
        String.ofList (digits.toList.drop whole)
  else
    let body := match digits.toList with
      | [] => ""
      | [c] => String.ofList [c]
      | c :: cs => String.ofList (c :: '.' :: cs)
    let e := toString lead.natAbs
    body ++ (if lead < 0 then "e-" else "e+") ++ (if e.length < 2 then "0" ++ e else e)

def Layout.text (l : Layout) (x : Float) : String :=
  match parts x with
  | .nan => l.notANumber
  | .infinite negative => if negative then "-" ++ l.infinity else l.infinity
  | .finite negative m q =>
    let sign := if negative then "-" else ""
    if m == 0 then sign ++ "0.0"
    else
      let (d, e) := shortest m q
      let (d, e) := dropZeros 20 d e
      let digits := toString d
      sign ++ l.positive digits (e + (digits.length : Int) - 1)

def floatText (x : Float) : String := Layout.standard.text x

/-- Integers with more decimal digits than this are neither written nor read. -/
def digitLimit : Nat := 4300

def intText? (i : Int) : Option String :=
  if i.natAbs < Nat.pow 10 digitLimit then some (toString i) else none

end ScriptLang.Number
