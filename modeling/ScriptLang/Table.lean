/-!
# Tables

Names bound to things, in the order in which they were first bound. Binding a name again keeps its
place; a name that was erased goes to the end when it is bound anew.
-/

namespace ScriptLang

abbrev Table (α : Type) := List (String × α)

namespace Table

variable {α : Type}

def get? (t : Table α) (name : String) : Option α :=
  match t with
  | [] => none
  | (n, a) :: rest => if n = name then some a else get? rest name

def set (t : Table α) (name : String) (a : α) : Table α :=
  match t with
  | [] => [(name, a)]
  | (n, b) :: rest => if n = name then (n, a) :: rest else (n, b) :: set rest name a

def erase (t : Table α) (name : String) : Table α := t.filter fun entry => entry.1 != name

def has (t : Table α) (name : String) : Bool := (get? t name).isSome

def names (t : Table α) : List String := t.map Prod.fst

/-- A name that was set has the value, and the others have theirs. -/
theorem get?_set (t : Table α) (name other : String) (a : α) :
    (t.set name a).get? other = if name = other then some a else t.get? other := by
  fun_induction set t name a with
  | case1 => simp [get?]
  | case2 b rest => by_cases h : name = other <;> simp [get?, h]
  | case3 n b rest hn ih =>
    by_cases h : n = other
    · have hname : name ≠ other := fun hname => hn (h.trans hname.symm)
      simp [get?, h, hname]
    · simp [get?, h, ih]

end Table

end ScriptLang
