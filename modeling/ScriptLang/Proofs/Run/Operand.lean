import Mathlib.Algebra.Group.Nat.Defs
import ScriptLang.Proofs.Run.Pure

/-!
# Operands

A strict operator evaluates its left operand and then its right one, and is applied to the two
values. A subscript does this too, but it evaluates both operands a second time first, so that what
they do is done twice, and subscripts inside subscripts multiply it: `n` of them around an operand
evaluate it `2 ^ n` times. Operands without calls do not show the difference.
-/

namespace ScriptLang

namespace Machine

variable {m : Machine}

theorem Closed.inScope (hm : m.Closed) (e : ScopeId) : Closed { m with current := e } :=
  ⟨hm.store, hm.scopes, hm.options⟩

/-- Both runs end alike, with machines that differ at most in the numbers of the objects that are
new since the machine `m`. -/
def SameSince (m : Machine) (a b : Except Signal Value × Machine) : Prop :=
  a = b ∨ ∃ k, Related (Signal.rename (shiftFrom m.store.size k))
    (Value.Renamed (shiftFrom m.store.size k)) a.1 b.1 ∧
    Machine.Renames (shiftFrom m.store.size k) m.world m.world a.2 b.2

end Machine

namespace Exec

/-- A computation that adds to the machine and gives a result may be put before one that does the
same on renamed machines, if where evaluation last went on does not matter to the latter. -/
theorem sameSince_bind {α : Type} {m : Machine} (hm : m.Closed) {x : Exec α} {y : Exec Value}
    (hx : m.Adds (failure? (x.run m).1) (x.run m).2) (hy : ∀ ρ, Twins ρ (Value.Renamed ρ) y y)
    (hfail : ∀ s m₁, x.run m = (.error s, m₁) → y.run m = (.error s, m₁))
    (hcurrent : ∀ a m₁, x.run m = (.ok a, m₁) →
      y.run { m₁ with current := m.current } = y.run m₁) :
    m.SameSince (y.run m) ((x >>= fun _ => y).run m) := by
  rw [run_bind]
  rcases hrun : x.run m with ⟨s | a, m₁⟩
  · exact .inl (hfail s m₁ hrun)
  rw [hrun] at hx
  obtain ⟨fresh, hfresh⟩ := hx.grown.store
  have hrenames := hm.renames_grown hx.grown hfresh
  rw [hx.silent fun _ => nofun] at hrenames
  obtain ⟨-, hmachines, hrelated⟩ := hy _ (i := (m.world, m.world)) hrenames
  rw [hcurrent a m₁ hrun] at hmachines hrelated
  exact .inr ⟨fresh.size, hrelated, hmachines⟩

variable {g : Engine} {e : ScopeId} {left right : Node} {ρ : Ref → Ref}

def operands (g : Engine) (e : ScopeId) (left right : Node) : Exec (Value × Value) := do
  let v ← g.evaluate left e
  let w ← g.evaluate right e
  pure (v, w)

def applyOnce (g : Engine) (e : ScopeId) (left : Node) (op : BinaryOp) (right : Node) :
    Exec Value := do
  let p ← operands g e left right
  strictBinary op p.1 p.2

/-- A subscript evaluates its operands once for nothing, and then as any operator does. -/
theorem evaluateBinary_eq {op : BinaryOp} (hand : op ≠ .and) (hor : op ≠ .or) :
    evaluateBinary g e left op right =
      if op = .index then (do let _ ← operands g e left right; applyOnce g e left .index right)
      else applyOnce g e left op right := by
  cases op with
  | and => exact absurd rfl hand
  | or => exact absurd rfl hor
  | _ => simp [evaluateBinary, applyOnce, operands, strictBinary]

/-! ### Operands without calls -/

/-- Operands that are evaluated alike have the same values up to new numbers. -/
theorem alike_operands (hleft : Steady ρ g e left) (hright : Steady ρ g e right) :
    Alike ρ (fun p p' => p' = (p.1.rename ρ, p.2.rename ρ)) (operands g e left right)
      (operands g e left right) := by
  refine hleft.bind fun v v' hv => hright.bind fun w w' hw => .pure ?_
  rw [hv, hw]

theorem alike_applyOnce (op : BinaryOp) (hleft : Steady ρ g e left) (hright : Steady ρ g e right) :
    Alike ρ (Value.Renamed ρ) (applyOnce g e left op right) (applyOnce g e left op right) := by
  refine (alike_operands hleft hright).bind fun p p' hp => ?_
  cases hp
  exact Alike.host (alike_strictBinary op p.1 p.2)

/-- A strict operator evaluates each operand once, but for the subscript, which does all of it after
both operands have been evaluated before. So a subscript does what evaluating its operands once does
exactly if they fail at first, or do the same again. Without calls in its operands it does so up to
the numbers of new objects. -/
theorem evaluate_binary_once_iff (depth : Nat) (left right : Node) {op : BinaryOp}
    (hand : op ≠ .and) (hor : op ≠ .or) (e : ScopeId) (m : Machine) :
    let g := Engine.ofDepth depth
    let x := ((Engine.ofDepth (depth + 1)).evaluate (.binary left op right) e).run m
    let m₀ := { m with current := e }
    let once := (applyOnce g e left op right).run m₀
    (x = if op = .index then (operands g e left right >>= fun _ =>
        applyOnce g e left .index right).run m₀ else once) ∧
    (x = once ↔ (op = .index → ∀ p m₁, (operands g e left right).run m₀ = (.ok p, m₁) →
      (applyOnce g e left op right).run m₁ = once)) ∧
    (left.Inert → right.Inert → m.Closed → m.SameSince once x) := by
  intro g x m₀ once
  have hx : x = (evaluateBinary g e left op right).run m₀ := rfl
  rw [evaluateBinary_eq hand hor] at hx
  by_cases hop : op = .index
  · subst hop
    rw [if_pos rfl] at hx
    have hfail (s : Signal) (m₁ : Machine)
        (hrun : (operands g e left right).run m₀ = (.error s, m₁)) : once = (.error s, m₁) := by
      simp only [once, applyOnce, run_bind, hrun]
    refine ⟨by rw [if_pos rfl]; exact hx, ⟨fun honce _ p m₁ hrun => ?_, fun hagain => ?_⟩,
      fun hleft hright hm => ?_⟩
    · rw [← honce, hx, run_bind, hrun]
    · rw [hx, run_bind]
      rcases hrun : (operands g e left right).run m₀ with ⟨s | p, m₁⟩
      · exact (hfail s m₁ hrun).symm
      · exact hagain rfl p m₁ hrun
    · have hoperands := alike_operands (alike_evaluate id depth hleft e)
        (alike_evaluate id depth hright e)
      rw [hx]
      refine sameSince_bind (hm.inScope e) (Alike.adds hoperands m₀)
        (fun ρ => (alike_applyOnce .index (alike_evaluate ρ depth hleft e)
          (alike_evaluate ρ depth hright e)).twins) hfail fun p m₁ hrun => ?_
      -- Without a step left the operands would have failed.
      cases depth with
      | zero => cases hrun
      | succ depth => rfl
  · rw [if_neg hop] at hx ⊢
    exact ⟨hx, ⟨fun _ h => absurd h hop, fun _ => hx⟩, fun _ _ _ => .inl hx.symm⟩

/-- The call in `[print("f")][0]` is made twice. -/
theorem evaluate_binary_once_iff_print :
    let left : Node := .list [.call (.name "print") [.text "f"]]
    let right : Node := .number (.int 0)
    let m : Machine := { scopes := #[{ vars := [("print", .builtin .print)] }] }
    let x := ((Engine.ofDepth 5).evaluate (.binary left .index right) 0).run m
    let once := (applyOnce (.ofDepth 4) 0 left .index right).run m
    x.2.world.events = [.out "f\nf\n"] ∧ once.2.world.events = [.out "f\n"] ∧ x ≠ once := by
  intro left right m x once
  have hx := (@evaluate_binary_once_iff 4 left right .index nofun nofun 0 m).1
  have htwice : x.2.world.events = [.out "f\nf\n"] := by
    rw [show x = _ from hx]
    rfl
  have honce : once.2.world.events = [.out "f\n"] := by rfl
  refine ⟨htwice, honce, fun h => ?_⟩
  rw [h, honce] at htwice
  exact absurd htwice (by decide)

/-! ### Subscripts inside subscripts -/

/-- From every machine with the property `P` the computation gives the value, keeps the property and
adds the amount to what is counted. -/
def Charges {α : Type} (P : Machine → Prop) (count : Machine → Nat) (amount : Nat) (a : α)
    (x : Exec α) : Prop :=
  ∀ m, P m → ∃ m', x.run m = (.ok a, m') ∧ P m' ∧ count m' = count m + amount

section Charges

variable {α β : Type} {P : Machine → Prop} {count : Machine → Nat} {n amount amount' : Nat}

/-- Amounts add up in a sequence. -/
theorem Charges.bind {a : α} {b : β} {x : Exec α} {f : α → Exec β}
    (hx : Charges P count amount a x) (hf : Charges P count amount' b (f a)) :
    Charges P count (amount + amount') b (x >>= f) := by
  intro m hm
  obtain ⟨m₁, hrun, hm₁, hcount⟩ := hx m hm
  obtain ⟨m₂, hrun', hm₂, hcount'⟩ := hf m₁ hm₁
  exact ⟨m₂, run_bind_eq_ok.2 ⟨a, m₁, hrun, hrun'⟩, hm₂, by omega⟩

/-- A subscript costs its first operand twice. -/
theorem charges_evaluateBinary_index {v key item : Value}
    (hleft : Charges P count amount v (g.evaluate left e))
    (hright : Charges P count 0 key (g.evaluate right e))
    (hitem : Charges P count 0 item (liftM (indexed v key) : Exec Value)) :
    Charges P count (2 * amount) item (evaluateBinary g e left .index right) := by
  have hsum : 2 * amount = amount + (0 + (amount + (0 + 0))) := by omega
  rw [hsum]
  exact hleft.bind (hright.bind (hleft.bind (hright.bind hitem)))

def subscripted (node key : Node) : (n : Nat) → Node
  | 0 => node
  | n + 1 => .binary (subscripted node key n) .index key

/-- With `n` subscripts around it an expression is evaluated `2 ^ n` times. -/
theorem charges_subscripted {depth : Nat} {node key : Node} {k : Value} {v : Nat → Value}
    (hscope : ∀ m, P m → P { m with current := e } ∧ count { m with current := e } = count m)
    (hnode : Charges P count amount (v 0) ((Engine.ofDepth depth).evaluate node e))
    (hkey : ∀ d ≥ depth, Charges P count 0 k ((Engine.ofDepth d).evaluate key e))
    (hitem : ∀ i < n, Charges P count 0 (v (i + 1)) (liftM (indexed (v i) k) : Exec Value)) :
    Charges P count (2 ^ n * amount) (v n)
      ((Engine.ofDepth (depth + n)).evaluate (subscripted node key n) e) := by
  induction n with
  | zero => simpa [subscripted] using hnode
  | succ n ih =>
    have hinner := ih fun i hi => hitem i (Nat.lt_succ_of_lt hi)
    have hscope' : Charges P count 0 () (inScope e) := fun m hm =>
      ⟨{ m with current := e }, rfl, (hscope m hm).1, (hscope m hm).2⟩
    have hsum : 2 ^ (n + 1) * amount = 0 + 2 * (2 ^ n * amount) := by
      rw [pow_succ, Nat.zero_add, Nat.mul_comm (2 ^ n) 2, Nat.mul_assoc]
    rw [hsum]
    exact hscope'.bind (charges_evaluateBinary_index hinner (hkey _ (Nat.le_add_right depth n))
      (hitem n (Nat.lt_succ_self n)))

end Charges

end Exec

end ScriptLang
