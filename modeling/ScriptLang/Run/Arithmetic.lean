import ScriptLang.Run.Format

/-!
# Arithmetic

Operators on values. Integers are exact; an operation with a double rounds the integer operand to a
double first. Texts, lists and tuples can be joined and repeated.
-/

namespace ScriptLang

/-- A number, a truth value counting as an integer. -/
inductive Num where
  | int (i : Int)
  | float (x : Float)
  deriving Repr

def Value.number? : Value → Option Num
  | .float x => some (.float x)
  | v => v.int?.map Num.int

namespace Num

def toFloat : Num → Except Failure Float
  | int i =>
    match Number.ofInt? i with
    | some x => .ok x
    | none => .error .tooLargeForFloat
  | float x => .ok x

/-- An operator with an exact form for integers and a rounded one for doubles. -/
def combine (exact : Int → Int → Int) (rounded : Float → Float → Float) :
    Num → Num → Except Failure Value
  | int a, int b => .ok (.int (exact a b))
  | a, b => do
    let x ← a.toFloat
    let y ← b.toFloat
    .ok (.float (rounded x y))

def add : Num → Num → Except Failure Value := combine (· + ·) (· + ·)

def sub : Num → Num → Except Failure Value := combine (· - ·) (· - ·)

def mul : Num → Num → Except Failure Value := combine (· * ·) (· * ·)

def div : Num → Num → Except Failure Value
  | int a, int b =>
    if b == 0 then .error .divisionByZero
    else match Number.divInt? a b with
      | some x => .ok (.float x)
      | none => .error .quotientTooLarge
  | a, b => do
    let x ← a.toFloat
    let y ← b.toFloat
    if y == 0.0 then .error .floatDivisionByZero else .ok (.float (x / y))

def mod : Num → Num → Except Failure Value
  | int a, int b =>
    if b == 0 then .error .integerModuloByZero else .ok (.int (Int.fmod a b))
  | a, b => do
    let x ← a.toFloat
    let y ← b.toFloat
    if y == 0.0 then .error .floatModuloByZero else .ok (.float (Number.floorMod x y))

end Num

namespace Exec

def operandsFail (op : String) (v w : Value) : HostExec Value := do
  fail (.operands op (← typeName v) (← typeName w))

def numeric? (f : Num → Num → Except Failure Value) (v w : Value) :
    Option (Except Failure Value) :=
  v.number?.bind fun a => w.number?.map fun b => f a b

def concatFail (kind : String) (w : Value) : HostExec Value := do
  fail (.concatenation kind (← typeName w))

def add (v w : Value) : HostExec Value := do
  match numeric? Num.add v w with
  | some r => ofExcept r
  | none =>
    match v with
    | .text a =>
      match w with
      | .text b => pure (.text (a ++ b))
      | _ => concatFail "str" w
    | _ =>
      match ← objOf? v, ← objOf? w with
      | some (.list a), some (.list b) => newList (a.toList ++ b.toList)
      | some (.list _), _ => concatFail "list" w
      | some (.tuple a), some (.tuple b) => newTuple (a ++ b)
      | some (.tuple _), _ => concatFail "tuple" w
      | some (.bytes a), some (.bytes b) => allocValue (.bytes (a ++ b))
      | some (.bytes _), _ =>
        fail (.other .wrongType ("can't concat " ++ (← typeName w) ++ " to bytearray"))
      | _, _ => operandsFail "+" v w

def sub (v w : Value) : HostExec Value :=
  match numeric? Num.sub v w with
  | some r => ofExcept r
  | none => operandsFail "-" v w

def repeated? (v : Value) (times : Nat) : HostExec (Option Value) := do
  match v with
  | .text s => pure (some (.text (String.ofList (List.replicate times s.toList).flatten)))
  | _ =>
    match ← objOf? v with
    | some (.list a) => some <$> newList (List.replicate times a.toList).flatten
    | some (.tuple a) => some <$> newTuple (List.replicate times a).flatten
    | some (.bytes a) =>
      some <$> allocValue (.bytes (List.replicate times a.toList).flatten.toArray)
    | _ => pure none

def isSequence (v : Value) : HostExec Bool := do
  match v with
  | .text _ => pure true
  | _ =>
    match ← objOf? v with
    | some (.list _) | some (.tuple _) | some (.bytes _) => pure true
    | _ => pure false

def repeatBy (v w : Value) : HostExec Value := do
  match w.int? with
  | some i =>
    if i ≥ Nat.pow 2 63 || i < -(Nat.pow 2 63 : Int) then
      fail (.other .overflow "cannot fit 'int' into an index-sized integer")
    match ← repeated? v i.toNat with
    | some r => pure r
    | none => pure .none
  | none => fail (.repeatCount (← typeName w))

def mul (v w : Value) : HostExec Value := do
  match numeric? Num.mul v w with
  | some r => ofExcept r
  | none =>
    if ← isSequence v then repeatBy v w
    else if ← isSequence w then repeatBy w v
    else operandsFail "*" v w

def div (v w : Value) : HostExec Value :=
  match numeric? Num.div v w with
  | some r => ofExcept r
  | none => operandsFail "/" v w

/-- The remainder of a division, or a text with an argument filled in. -/
def mod (v w : Value) : HostExec Value := do
  match numeric? Num.mod v w with
  | some r => ofExcept r
  | none =>
    match v with
    | .text s => fillText s w
    | _ => operandsFail "%" v w

def negate (v : Value) : HostExec Value := do
  match v with
  | .float x => pure (.float (-x))
  | _ =>
    match v.int? with
    | some i => pure (.int (-i))
    | none => fail (.unaryOperand "-" (← typeName v))

def identity (v : Value) : HostExec Value := do
  match v with
  | .float x => pure (.float x)
  | _ =>
    match v.int? with
    | some i => pure (.int i)
    | none => fail (.unaryOperand "+" (← typeName v))

def compareBy (op : String) (v w : Value) : HostExec Value := do
  Value.bool <$> ofExcept ((← get).store.ordered op v w)

end Exec

end ScriptLang
