import ScriptLang.Proofs.Run.Block
import ScriptLang.Proofs.Run.Compound
import ScriptLang.Proofs.Scope.Forest
import ScriptLang.Proofs.Scope.Nested

/-!
# Compound assignments that fail

A compound assignment to a name reads the name, evaluates its expression, applies the operator and
assigns the result. Whichever of these steps fails, the scopes stay as the evaluation has left them.
But a name that is not bound is bound to zero before the expression is evaluated, and a failure does
not take this back.
-/

namespace ScriptLang

/-- The name is bound in the same scopes to the same values. -/
def Scopes.SameValues {α : Type} (x : String) (ss ss' : Scopes α) : Prop :=
  ∀ i, (ss'.scope i).vars.get? x = (ss.scope i).vars.get? x

/-- Whether a compound assignment finds a value for its name. A lone underscore needs none. -/
def Scopes.IsReady {α : Type} (ss : Scopes α) (e : ScopeId) (x : String) : Prop :=
  x = "_" ∨ (ss.holder? e x).isSome = true

instance {α : Type} (ss : Scopes α) (e : ScopeId) (x : String) : Decidable (ss.IsReady e x) :=
  inferInstanceAs (Decidable (_ ∨ _))

/-- The machine in which a compound assignment evaluates its expression: a name without a value has
got zero. -/
def Machine.readied (m : Machine) (e : ScopeId) (x : String) : Machine :=
  if m.scopes.IsReady e x then m else { m with scopes := m.scopes.assign e x (.int 0) }

namespace Exec

variable {α : Type} {g : Engine} {e : ScopeId} {x : String} {m m' : Machine} {s : Signal}

/-! ### The steps -/

/-- Reading the name fails in no case. -/
theorem run_currentOrZero (hx : x ≠ "_") :
    ∃ v, (currentOrZero e x).run m = (.ok v, m.readied e x) := by
  by_cases hready : m.scopes.IsReady e x
  · have hheld : (m.scopes.holder? e x).isNone = false := by
      simpa [← Option.isSome_iff_ne_none] using hready.resolve_left hx
    rw [Machine.readied, if_pos hready, currentOrZero, run_bind, run_get]
    simp only [hheld, Bool.false_eq_true, if_false]
    exact ⟨_, rfl⟩
  · have hnone : m.scopes.holder? e x = none := by
      simpa using fun h => hready (.inr h)
    have hwritable : m.scopes.isReadOnly e x = false := by
      rw [Scopes.isReadOnly, hnone]
    rw [Machine.readied, if_neg hready, currentOrZero, run_bind, run_get]
    simp only [hnone, Option.isNone_none, if_true]
    rw [run_bind, run_assignName hwritable]
    exact ⟨_, rfl⟩

theorem scopes_of_host {y : HostExec α} {r : Except Signal α}
    (h : (liftM y : Exec α).run m = (r, m')) : m'.scopes = m.scopes := by
  rw [run_host] at h
  cases h
  rfl

/-- An assignment that fails has written nothing. -/
theorem scopes_of_assignName_error {v : Value}
    (h : (assignName e x v).run m = (.error s, m')) : m'.scopes = m.scopes := by
  rw [assignName, run_bind, run_get] at h
  dsimp only at h
  split at h
  · obtain hreport | ⟨_, _, -, hassign⟩ := run_bind_eq_error.1 h
    · exact scopes_of_host hreport
    · cases hassign
  · cases h

/-- After a failure the scopes are as the evaluation of the expression has left them. -/
theorem scopes_of_executeAugAssign_error {op : AssignOp} {expr : Node}
    (h : (executeAugAssign g e (some x) op expr .absent).run m = (.error s, m')) :
    m'.scopes = ((g.evaluate expr e).run (m.readied e x)).2.scopes := by
  by_cases hx : x = "_"
  · have hready : m.readied e x = m := if_pos (.inl hx)
    have hskip : (some x == some "_" && Node.absent.isAbsent) = true := by simp [hx, Node.isAbsent]
    rw [executeAugAssign, if_pos hskip] at h
    obtain hevaluate | ⟨_, _, -, hpure⟩ := run_bind_eq_error.1 h
    · rw [hready, hevaluate]
    · cases hpure
  · have hskip : ¬ (some x == some "_" && Node.absent.isAbsent) = true := by simp [hx]
    obtain ⟨current, hcurrent⟩ := run_currentOrZero (e := e) (m := m) hx
    rw [executeAugAssign, if_neg hskip, if_pos (by rfl), Option.getD_some, run_bind, hcurrent] at h
    obtain hevaluate | ⟨v, m₁, hevaluate, h⟩ := run_bind_eq_error.1 h
    · rw [hevaluate]
    rw [hevaluate]
    obtain hop | ⟨u, m₂, hop, hassign⟩ := run_bind_eq_error.1 h
    · exact scopes_of_host hop
    · exact (scopes_of_assignName_error hassign).trans (scopes_of_host hop)

end Exec

namespace Scopes

variable {α : Type} {ss : Scopes α} {e : ScopeId} {x : String}

/-- A name that is not found gets its value where it is meant to be, and had none there. -/
theorem get?_assign_home (hnone : ss.holder? e x = none)
    (hchain : ∀ i ∈ ss.chain e, i < ss.size) (v : α) :
    ((ss.assign e x v).scope (ss.home e x)).vars.get? x = some v ∧
      (ss.scope (ss.home e x)).vars.get? x = none := by
  have hhome := ss.home_mem_chain e x
  have hwritten : ss.written e x = ss.home e x := by rw [written, hnone, Option.getD_none]
  refine ⟨?_, ?_⟩
  · rw [← Scope.map_fst_binding?, binding?_assign (hwritten ▸ hchain _ hhome), hwritten,
      if_pos ⟨rfl, rfl⟩, Option.map_some]
  · simpa [Table.has] using List.find?_eq_none.1 hnone _ hhome

end Scopes

open Exec Scopes in
/-- What a failed compound assignment leaves. If its name was bound, all scopes are as evaluating
the expression alone leaves them, whichever step has failed. If not, they are as the evaluation
leaves them after the name was bound to zero where it is meant to be; so the name is then bound
there, unless the evaluation has dropped it. For an expression without calls it follows that the
name is left alone exactly if it was bound before; otherwise the zero is what has changed. -/
theorem failed_augAssign_iff {depth : Nat} {x : String} {op : AssignOp} {expr : Node} {e : ScopeId}
    {m m' : Machine} {s : Signal} (hchain : ∀ i ∈ m.scopes.chain e, i < m.scopes.size)
    (hfail : ((Engine.ofDepth (depth + 1)).execute (.augAssign (some x) op expr .absent) e).run m =
      (.error s, m')) :
    let evaluated (m : Machine) := (((Engine.ofDepth depth).evaluate expr e).run m).2.scopes
    let start := { m with current := e }
    let zeroed := m.scopes.assign e x (.int 0)
    (m.scopes.IsReady e x → m'.scopes = evaluated start) ∧
    (¬ m.scopes.IsReady e x → m'.scopes = evaluated { start with scopes := zeroed } ∧
      ∃ since, Accounted (m.scopes.home e x) zeroed since m'.scopes) ∧
    (expr.Inert →
      (SameValues x (evaluated start) m'.scopes ↔ m.scopes.IsReady e x) ∧
      (¬ m.scopes.IsReady e x → m'.scopes = zeroed)) := by
  intro evaluated start zeroed
  have hscopes : m'.scopes = evaluated (start.readied e x) := by
    obtain hfail | ⟨_, _, -, hpure⟩ := run_bind_eq_error.1
      ((run_executeAugAssign depth (some x) op expr .absent e m).symm.trans hfail)
    · exact scopes_of_executeAugAssign_error hfail
    · cases hpure
  have hunready (h : ¬ m.scopes.IsReady e x) :
      m'.scopes = evaluated { start with scopes := zeroed } := by
    have hreadied : start.readied e x = { start with scopes := zeroed } := if_neg h
    rw [hscopes, hreadied]
  have hready (h : m.scopes.IsReady e x) : m'.scopes = evaluated start := by
    have hreadied : start.readied e x = start := if_pos h
    rw [hscopes, hreadied]
  refine ⟨hready, fun h => ⟨hunready h, ?_⟩, fun hinert => ?_⟩
  · have hlt : m.scopes.home e x < zeroed.size := by
      obtain ⟨f, -, hassign⟩ := m.scopes.exists_assign_eq_update e x (.int 0)
      simpa only [zeroed, hassign, size_update] using hchain _ (m.scopes.home_mem_chain e x)
    rw [hunready h]
    exact ((Engine.evolving_ofDepth depth).evaluate expr e
      { start with scopes := zeroed }).exists_accounted hlt
  have hkept (m : Machine) : evaluated m = m.scopes := scopes_evaluate_of_inert depth hinert e m
  refine ⟨⟨fun hsame => by_contra fun h => ?_, fun h i => by rw [hready h]⟩, fun h => ?_⟩
  · have hnone : m.scopes.holder? e x = none := by simpa using fun hsome => h (.inr hsome)
    obtain ⟨hnew, hold⟩ := get?_assign_home hnone hchain (.int 0)
    have hhome := hsame (m.scopes.home e x)
    rw [hunready h, hkept, hkept, hnew, hold] at hhome
    cases hhome
  · rw [hunready h, hkept]

open Scopes in
/-- With `total` not bound, `total += 1 / 0` fails and leaves `total` bound to zero. -/
theorem failed_augAssign_iff_unbound :
    let m : Machine := { scopes := #[{}] }
    let expr : Node := .binary (.number (.int 1)) .div (.number (.int 0))
    let failed := ((Engine.ofDepth 3).execute (.augAssign (some "total") .add expr .absent) 0).run m
    let alone := (((Engine.ofDepth 2).evaluate expr 0).run m).2.scopes
    failed.1 = .error (.raised (.ref 0)) ∧ (failed.2.scopes.scope 0).vars = [("total", .int 0)] ∧
      ¬ SameValues "total" alone failed.2.scopes := by
  intro m expr failed alone
  have hfail : failed = (.error (.raised (.ref 0)), failed.2) := rfl
  have hunready : ¬ m.scopes.IsReady 0 "total" := by decide
  have hinert : expr.Inert := .binary .div (.number _) (.number _)
  obtain ⟨hsame, hzero⟩ := (failed_augAssign_iff (by decide) hfail).2.2 hinert
  refine ⟨rfl, ?_, fun h => hunready (hsame.1 h)⟩
  rw [hzero hunready]
  rfl

end ScriptLang
