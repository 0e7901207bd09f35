/-!
# Double-precision numbers

A finite double is `± m · 2^q` with `m < 2^53` and `q ≥ -1074`. Exact ratios are rounded to the
nearest double, a tie going to the even mantissa; all conversions between integers, decimals and
doubles go through that one rounding.
-/

namespace ScriptLang.Number

inductive Parts where
  | finite (negative : Bool) (mantissa : Nat) (exponent : Int)
  | infinite (negative : Bool)
  | nan
  deriving DecidableEq, Repr

def Parts.ofBits (bits : Nat) : Parts :=
  let negative := bits / Nat.pow 2 63 % 2 == 1
  let exponent : Nat := bits / Nat.pow 2 52 % 2048
  let fraction : Nat := bits % Nat.pow 2 52
  if exponent == 2047 then
    if fraction == 0 then .infinite negative else .nan
  else if exponent == 0 then .finite negative fraction (-1074)
  else .finite negative (Nat.pow 2 52 + fraction) ((exponent : Int) - 1075)

/-- The bit pattern of parts whose mantissa is below `2^53` and whose exponent is in range. -/
def Parts.bits : Parts → Nat
  | .nan => 2047 * Nat.pow 2 52 + Nat.pow 2 51
  | .infinite negative => (if negative then Nat.pow 2 63 else 0) + 2047 * Nat.pow 2 52
  | .finite negative mantissa exponent =>
    (if negative then Nat.pow 2 63 else 0) +
      if mantissa < Nat.pow 2 52 then mantissa
      else (exponent + 1075).toNat * Nat.pow 2 52 + (mantissa - Nat.pow 2 52)

def parts (x : Float) : Parts := Parts.ofBits x.toBits.toNat

def Parts.toFloat (p : Parts) : Float := Float.ofBits p.bits.toUInt64

/-- The quotient of two naturals rounded to nearest, ties to even. -/
def roundDiv (num den : Nat) : Nat :=
  let q := num / den
  let r := num % den
  if 2 * r < den then q
  else if den < 2 * r then q + 1
  else q + q % 2

/-- `num / den` scaled by `2^(-q)`, as a quotient of naturals. -/
def scaled (num den : Nat) (q : Int) : Nat × Nat :=
  if 0 ≤ q then (num, den * Nat.pow 2 q.toNat) else (num * Nat.pow 2 (-q).toNat, den)

/-- The exponent at which the mantissa of `num / den` has 53 digits, not below the least one. -/
def exponentOf (num den : Nat) : Int :=
  let guess : Int := (Nat.log2 num : Int) - (Nat.log2 den : Int) - 53
  let (n, d) := scaled num den guess
  let q := if n / d < Nat.pow 2 53 then guess else guess + 1
  max q (-1074)

/-- The double nearest to `± num / den`; too large a ratio is infinite. -/
def nearest (negative : Bool) (num den : Nat) : Parts :=
  if num == 0 then .finite negative 0 (-1074)
  else
    let q := exponentOf num den
    let (n, d) := scaled num den q
    let m := roundDiv n d
    let (m, q) := if m == Nat.pow 2 53 then (Nat.pow 2 52, q + 1) else (m, q)
    if q > 971 then .infinite negative else .finite negative m q

def Parts.ratio? : Parts → Option (Bool × Nat × Nat)
  | .finite negative m q =>
    some (if 0 ≤ q then (negative, m * Nat.pow 2 q.toNat, 1)
      else (negative, m, Nat.pow 2 (-q).toNat))
  | _ => none

def ofInt? (i : Int) : Option Float :=
  match nearest (i < 0) i.natAbs 1 with
  | .infinite _ => none
  | p => some p.toFloat

def divInt? (a b : Int) : Option Float :=
  match nearest (decide (a < 0) != decide (b < 0)) a.natAbs b.natAbs with
  | .infinite _ => none
  | p => some p.toFloat

def truncate? (x : Float) : Option Int :=
  (parts x).ratio?.map fun (negative, num, den) =>
    if negative then -((num / den : Nat) : Int) else ((num / den : Nat) : Int)

def isWhole (x : Float) : Bool :=
  match (parts x).ratio? with
  | some (_, num, den) => num % den == 0
  | none => false

/-- The order of an integer and a double, by exact values; `none` against a NaN. -/
def compareInt (i : Int) (x : Float) : Option Ordering :=
  match parts x with
  | .nan => none
  | .infinite negative => some (if negative then .gt else .lt)
  | .finite negative m q =>
    match (Parts.finite negative m q).ratio? with
    | some (_, num, den) =>
      let right : Int := if negative then -(num : Int) else num
      some (compare (i * den) right)
    | none => none

/-- The remainder of a division that rounds the quotient down; the divisor is not zero. -/
def floorMod (x y : Float) : Float :=
  match parts x, parts y with
  | .finite nx mx qx, .finite ny my qy =>
    let q := min qx qy
    let a := mx * Nat.pow 2 (qx - q).toNat
    let b := my * Nat.pow 2 (qy - q).toNat
    let r := a % b
    if r == 0 then (Parts.finite ny 0 (-1074)).toFloat
    else
      let rest := (nearest nx
        (if 0 ≤ q then r * Nat.pow 2 q.toNat else r)
        (if 0 ≤ q then 1 else Nat.pow 2 (-q).toNat)).toFloat
      if nx == ny then rest else rest + y
  | .finite nx mx _, .infinite ny =>
    if mx == 0 then (Parts.finite ny 0 (-1074)).toFloat
    else if nx == ny then x else y
  | _, _ => Parts.nan.toFloat

def ofDecimal (negative : Bool) (digits : Nat) (exponent : Int) : Float :=
  let size : Int := (Nat.log2 digits : Int)
  if digits == 0 then (Parts.finite negative 0 (-1074)).toFloat
  else if exponent > 400 then (Parts.infinite negative).toFloat
  else if exponent * 3 + size < -1200 then (Parts.finite negative 0 (-1074)).toFloat
  else if 0 ≤ exponent then (nearest negative (digits * Nat.pow 10 exponent.toNat) 1).toFloat
  else (nearest negative digits (Nat.pow 10 (-exponent).toNat)).toFloat

end ScriptLang.Number
