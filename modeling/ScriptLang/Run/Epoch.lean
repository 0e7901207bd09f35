import ScriptLang.Run.Convert

/-!
# Epochs

A moment is encoded as the binary digits of its milliseconds since the start of the year 2000 in
universal time, and decoded from them.
-/

namespace ScriptLang

namespace Moment

def epochBase : Nat := dayNumber ⟨2000, 1, 1⟩ * dayMicros

/-- The milliseconds since the epoch: seconds as a double, times a thousand in doubles, without the
fraction. -/
def epochMillis (m : Moment) : Int :=
  let micros : Int := (m.micros : Int) - (epochBase : Int)
  let seconds := (Number.nearest (micros < 0) micros.natAbs 1000000).ratio?
  let product := seconds.bind fun (negative, num, den) =>
    (Number.nearest negative (num * 1000) den).ratio?
  match product with
  | some (negative, num, den) =>
    if negative then -((num / den : Nat) : Int) else ((num / den : Nat) : Int)
  | none => 0

/-- An integer in binary, filled up with zeros to a width that includes its sign. -/
def binaryText (width : Nat) (i : Int) : String :=
  let sign := if i < 0 then ['-'] else []
  let digits := Nat.toDigits 2 i.natAbs
  String.ofList (sign ++ List.replicate (width - sign.length - digits.length) '0' ++ digits)

def ofEpochMillis (n : Int) : Except Failure Moment :=
  let micros := n * 1000
  let days := Int.fdiv micros dayMicros
  if days ≥ Nat.pow 2 31 || days < -(Nat.pow 2 31 : Int) then .error .tooLargeForDate
  else if days.natAbs > 999999999 then
    .error (.other .overflow ("days=" ++ toString days ++ "; must have magnitude <= 999999999"))
  else
    let total := (epochBase : Int) + micros
    if total < 0 || total ≥ limit then .error .dateRange
    else .ok ⟨total.toNat, true⟩

end Moment

namespace Exec

def encodeEpoch (width : Nat) (v : Value) : HostExec Value := do
  match v with
  | .moment m => pure (.text (Moment.binaryText width m.epochMillis))
  | _ => fail (.noAttribute (← typeName v) "tzinfo")

def decodeEpoch (v : Value) : HostExec Value := do
  let n ← toIntegerIn v (.int 2)
  Value.moment <$> ofExcept (Moment.ofEpochMillis n)

end Exec

end ScriptLang
