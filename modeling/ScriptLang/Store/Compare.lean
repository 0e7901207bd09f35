import ScriptLang.Number.Binary64
import ScriptLang.Store.Basic

/-!
# Equality and order of values

Numbers of all kinds are compared by value, and truth values count as zero and one. Lists compare
item by item. Objects without a value of their own are equal only to themselves.
-/

namespace ScriptLang

namespace Value

def int? : Value → Option Int
  | int i => some i
  | bool b => some (if b then 1 else 0)
  | _ => Option.none

def same : Value → Value → Bool
  | none, none => true
  | bool a, bool b => a == b
  | int a, int b => a == b
  | float a, float b => a == b
  | text a, text b => a == b
  | range a b c, range a' b' c' => a == a' && b == b' && c == c'
  | moment a, moment b => a == b
  | builtin a, builtin b => a == b
  | method a n, method b m => n == m && same a b
  | typeMethod a n, typeMethod b m => n == m && a == b
  | stream a, stream b => a == b
  | options, options => true
  | internal a, internal b => a.same b
  | ref a, ref b => a == b
  | _, _ => false

end Value

inductive Standing where
  | less | equal | greater
  /-- Neither is less, and they are not equal. -/
  | unrelated
  /-- The two cannot be ordered; `left` and `right` are the types at fault. -/
  | unordered (left right : String)
  deriving DecidableEq, Repr

def Standing.ofOrdering : Ordering → Standing
  | .lt => .less
  | .eq => .equal
  | .gt => .greater

namespace Store

private def sameRange (a b c a' b' c' : Int) : Bool :=
  let n := rangeLength a b c
  n == rangeLength a' b' c' &&
    (n == 0 || a == a' && (n == 1 || c == c'))

/-- Whether two numbers are equal; `none` if one is no number. -/
def numbersEqual? : Value → Value → Option Bool
  | .float a, .float b => some (a == b)
  | .float a, v => v.int?.map fun i => Number.compareInt i a == some .eq
  | v, .float b => v.int?.map fun i => Number.compareInt i b == some .eq
  | v, w => v.int?.bind fun i => w.int?.map fun j => i == j

/-- Whether two values are equal, looking at most `fuel` levels deep. -/
def equalWithin (st : Store) : (fuel : Nat) → Value → Value → Bool
  | 0, _, _ => false
  | fuel + 1, v, w =>
    match numbersEqual? v w with
    | some b => b
    | none =>
      match v, w with
      | .text a, .text b => a == b
      | .range a b c, .range a' b' c' => sameRange a b c a' b' c'
      | .ref r, .ref s =>
        if r == s then true
        else
          let item (a b : Value) : Bool := Value.same a b || equalWithin st fuel a b
          match st[r]?, st[s]? with
          | some (.list a), some (.list b) =>
            a.size == b.size && (a.toList.zip b.toList).all fun p => item p.1 p.2
          | some (.tuple a), some (.tuple b) =>
            a.length == b.length && (a.zip b).all fun p => item p.1 p.2
          | some (.dict a), some (.dict b) =>
            a.length == b.length && a.all fun e =>
              match b.find? fun x => item x.1 e.1 with
              | some x => item e.2 x.2
              | none => false
          | some (.bytes a), some (.bytes b) => a == b
          | some (.view .keys a), some (.view .keys b) =>
            match st[a]?, st[b]? with
            | some (.dict x), some (.dict y) =>
              x.length == y.length && x.all fun e => y.any fun g => item e.1 g.1
            | _, _ => false
          | _, _ => false
      | _, _ => Value.same v w

def equal (st : Store) (v w : Value) : Bool := st.equalWithin depthBound v w

/-- Equality inside containers, where a value is always equal to itself. -/
def equalItem (st : Store) (v w : Value) : Bool := Value.same v w || st.equal v w

def numberStanding? : Value → Value → Option Standing
  | .float a, .float b =>
    some (if a < b then .less else if b < a then .greater else if a == b then .equal
      else .unrelated)
  | .float a, v => v.int?.map fun i =>
      match Number.compareInt i a with
      | some o => Standing.ofOrdering o.swap
      | none => .unrelated
  | v, .float b => v.int?.map fun i =>
      match Number.compareInt i b with
      | some o => Standing.ofOrdering o
      | none => .unrelated
  | v, w => v.int?.bind fun i => w.int?.map fun j => Standing.ofOrdering (compare i j)

private def textStanding (a b : String) : Standing :=
  if a < b then .less else if a == b then .equal else .greater

/-- The standing of two sequences: that of the first items that differ, else of the lengths. -/
def itemsStanding (eq : Value → Value → Bool) (order : Value → Value → Standing) :
    List Value → List Value → Standing
  | [], [] => .equal
  | [], _ :: _ => .less
  | _ :: _, [] => .greater
  | a :: as, b :: bs => if eq a b then itemsStanding eq order as bs else order a b

def standingWithin (st : Store) : (fuel : Nat) → Value → Value → Standing
  | 0, v, w => .unordered (st.typeName v) (st.typeName w)
  | fuel + 1, v, w =>
    match numberStanding? v w with
    | some s => s
    | none =>
      match v, w with
      | .text a, .text b => textStanding a b
      | .moment a, .moment b => Standing.ofOrdering (compare a.micros b.micros)
      | .ref r, .ref s =>
        match st[r]?, st[s]? with
        | some (.list a), some (.list b) =>
          itemsStanding st.equalItem (standingWithin st fuel) a.toList b.toList
        | some (.tuple a), some (.tuple b) =>
          itemsStanding st.equalItem (standingWithin st fuel) a b
        | some (.bytes a), some (.bytes b) =>
          itemsStanding st.equalItem (standingWithin st fuel)
            (a.toList.map fun (n : Nat) => .int n) (b.toList.map fun (n : Nat) => .int n)
        | _, _ => .unordered (st.typeName v) (st.typeName w)
      | _, _ => .unordered (st.typeName v) (st.typeName w)

def standing (st : Store) (v w : Value) : Standing := st.standingWithin depthBound v w

/-- Whether `v < w`, `v > w` and so on; values that have no order are a failure. -/
def ordered (st : Store) (op : String) (v w : Value) : Except Failure Bool :=
  match st.standing v w with
  | .less => .ok (op == "<" || op == "<=")
  | .greater => .ok (op == ">" || op == ">=")
  | .equal => .ok (op == "<=" || op == ">=")
  | .unrelated => .ok false
  | .unordered left right => .error (.notOrdered op left right)

def isHashable (st : Store) (v : Value) : Bool :=
  match st.ofValue? v with
  | some (.list _) | some (.dict _) | some (.bytes _) | some (.view ..) => false
  | _ => true

def lookup (st : Store) (entries : List (Value × Value)) (key : Value) : Option Value :=
  (entries.find? fun e => st.equalItem e.1 key).map Prod.snd

/-- Entries with a value under a key; a key that is there keeps its place and its first form. -/
def insert (st : Store) (entries : List (Value × Value)) (key value : Value) :
    List (Value × Value) :=
  match entries with
  | [] => [(key, value)]
  | e :: rest =>
    if st.equalItem e.1 key then (e.1, value) :: rest else e :: insert st rest key value

def remove (st : Store) (entries : List (Value × Value)) (key : Value) :
    List (Value × Value) := entries.filter fun e => !st.equalItem e.1 key

end Store

end ScriptLang
