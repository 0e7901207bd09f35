/-!
# Sorting with an order that can fail

Insertion by bisection: the run at the front that is already in order, or strictly in the opposite
order, is kept, and the other items are put in one by one. If a comparison fails, sorting stops and
the items stay in the order reached so far.
-/

namespace ScriptLang

variable {α ε : Type}

/-- Items in the order reached, and the failure that stopped the sorting, if any. -/
abbrev Sorted (α ε : Type) := List α × Option ε

/-- The length of the run after an item whose neighbours all compare as `wanted`. -/
private def runFrom (less : α → α → Except ε Bool) (wanted : Bool) : α → List α → Except ε Nat
  | _, [] => .ok 0
  | prev, x :: xs => do
    if (← less x prev) == wanted then return (← runFrom less wanted x xs) + 1 else return 0

/-- The length of the run at the front of a list and whether it descends. -/
def frontRun (less : α → α → Except ε Bool) : List α → Except ε (Nat × Bool)
  | [] => .ok (0, false)
  | [_] => .ok (1, false)
  | x :: y :: rest => do
    let descends ← less y x
    let n ← runFrom less descends y rest
    return (n + 2, descends)

/-- The place of an item among sorted ones, after those equal to it. -/
private def placeOf (less : α → α → Except ε Bool) (items : Array α) (x : α) :
    (fuel low high : Nat) → Except ε Nat
  | 0, low, _ => .ok low
  | fuel + 1, low, high =>
    if low < high then
      let mid := low + (high - low) / 2
      match items[mid]? with
      | some y => do
        if ← less x y then placeOf less items x fuel low mid
        else placeOf less items x fuel (mid + 1) high
      | none => .ok low
    else .ok low

private def insertAll (less : α → α → Except ε Bool) : List α → List α → Sorted α ε
  | done, [] => (done, none)
  | done, x :: xs =>
    match placeOf less done.toArray x done.length 0 done.length with
    | .ok i => insertAll less (done.take i ++ x :: done.drop i) xs
    | .error e => (done ++ x :: xs, some e)

/-- Sorts a list; equal items keep their order. -/
def sortBy (less : α → α → Except ε Bool) (xs : List α) : Sorted α ε :=
  match frontRun less xs with
  | .error e => (xs, some e)
  | .ok (n, descends) =>
    let front := xs.take n
    insertAll less (if descends then front.reverse else front) (xs.drop n)

end ScriptLang
