import ScriptLang.Proofs.Run.Arguments

/-!
# Declared types of results

A function may declare the type of its results. The type is checked where the body returns a value.
A body may also run off its end, and then the value of its last statement is the result of the call,
which nothing checks. So the declared type holds for all calls exactly if it holds for the values
with which the body runs off its end; in particular if it never does, because it returns on every
path.
-/

namespace ScriptLang

variable {α β : Type}

mutual

/-- Whether a statement never comes to its end: on every path it returns or leaves a loop. -/
def Node.leaves : Node → Bool
  | .returnStmt _ | .breakStmt | .continueStmt => true
  | .block statements => leavesAny statements
  | .ifStmt _ thenBlock elseBlock => leaves thenBlock && leaves elseBlock
  | .tryCatch tryBlock _ catchBlock => leaves tryBlock && leaves catchBlock
  | _ => false

def Node.leavesAny : List Node → Bool
  | [] => false
  | n :: rest => n.leaves || leavesAny rest

end

theorem Store.hasType_auto (st : Store) (v : Value) : st.hasType v "auto" = true := rfl

namespace Exec

variable {g : Engine} {e : ScopeId} {m m' : Machine} {v : Value}

/-! ### Statements that never come to their end -/

def HasNoResult (x : Exec α) : Prop := ∀ m a m', x.run m ≠ (.ok a, m')

namespace HasNoResult

theorem throw (s : Signal) : HasNoResult (throw s : Exec α) := by
  intro m a m' hrun
  cases hrun

theorem bind {x : Exec α} (h : HasNoResult x) (f : α → Exec β) : HasNoResult (x >>= f) := by
  intro m b m' hrun
  obtain ⟨a, m₁, hx, -⟩ := run_bind_eq_ok.1 hrun
  exact h m a m₁ hx

theorem after (x : Exec α) {f : α → Exec β} (h : ∀ a, HasNoResult (f a)) :
    HasNoResult (x >>= f) := by
  intro m b m' hrun
  obtain ⟨a, m₁, -, hf⟩ := run_bind_eq_ok.1 hrun
  exact h a m₁ b m' hf

theorem inBlock (e : ScopeId) {x : Exec α} (h : HasNoResult x) : HasNoResult (inBlock e x) := by
  intro m a m' hrun
  have hresult : (x.run { m with scopes := m.scopes.pushBlock e }).1 = .ok a :=
    congrArg Prod.fst ((run_inBlock e x m).symm.trans hrun)
  exact h _ a _ (Prod.ext hresult rfl)

/-- A guarded computation has no result if neither part has one. -/
theorem tryCatch {x : Exec α} {f : Signal → Exec α} (hx : HasNoResult x)
    (hf : ∀ s, HasNoResult (f s)) : HasNoResult (tryCatch x f : Exec α) := by
  intro m a m' hrun
  rw [run_tryCatch] at hrun
  rcases h : x.run m with ⟨s | b, m₁⟩ <;> rw [h] at hrun
  · exact hf s m₁ a m' hrun
  · exact hx m b m₁ h

/-- A sequence of statements has no result if it comes to one that has none. -/
theorem executeAll (hg : ∀ n : Node, n.leaves = true → HasNoResult (g.execute n e))
    {nodes : List Node} (h : Node.leavesAny nodes = true) :
    HasNoResult (g.executeAll e nodes) := by
  induction nodes with
  | nil => cases h
  | cons n rest ih =>
    rw [Node.leavesAny, Bool.or_eq_true] at h
    cases rest with
    | nil => exact hg n (h.resolve_right nofun)
    | cons n' rest =>
      rcases h with h | h
      · exact (hg n h).bind _
      · exact .after _ fun _ => ih h

end HasNoResult

/-- Statements that return or leave on every path do so at every depth. -/
theorem hasNoResult_of_leaves (depth : Nat) {n : Node} (h : n.leaves = true) (e : ScopeId) :
    HasNoResult ((Engine.ofDepth depth).execute n e) := by
  induction depth generalizing n e with
  | zero => exact .throw _
  | succ depth ih =>
    refine .after (inScope e) fun _ => ?_
    unfold Node.leaves at h
    split at h
    · exact .after _ fun v => .throw _
    · exact .throw _
    · exact .throw _
    · exact .inBlock e (.executeAll (fun n hn => ih hn e) h)
    · next condition thenBlock elseBlock =>
        rw [Bool.and_eq_true] at h
        -- without a second branch the statement would come to its end where the condition fails
        have hpresent : elseBlock.isAbsent = false := by
          cases elseBlock <;> first | rfl | cases h.2
        refine .after _ fun v => .after _ fun b => ?_
        simp only [hpresent, Bool.false_eq_true, if_false]
        split
        · exact ih h.1 e
        · exact ih h.2 e
    · next tryBlock binder catchBlock =>
        rw [Bool.and_eq_true] at h
        refine .tryCatch (.inBlock e (ih h.1 e)) fun s => ?_
        cases s with
        | raised v => exact .inBlock e (.after _ fun _ => ih h.2 e)
        | _ => exact .throw _
    · cases h

/-! ### Results of calls -/

variable {c : Closure} {x : Exec Value}

/-- A returned value that is not of the declared type is reported. -/
theorem run_returning_of_returned (hx : x.run m = (.error (.returned v), m')) :
    (returning c x).run m =
      if m'.store.hasType v c.returns = true ∨ m'.isQuiet = true then (.ok v, m')
      else (.error (.exit (.int 1)), { m' with
        world := m'.world.emit
          ((Notice.returnType c.name c.returns (m'.store.typeName v)).event m'.reader) }) := by
  have htypeName : (liftM (typeName v) : Exec String).run m' =
      (.ok (m'.store.typeName v), m') := rfl
  rw [returning, run_tryCatch, hx]
  dsimp only
  rw [run_bind, run_get]
  cases htype : m'.store.hasType v c.returns with
  | true =>
    rw [if_pos (.inl rfl)]
    simp only [htype, Bool.not_true, Bool.and_false, Bool.false_eq_true, if_false]
    rfl
  | false =>
    have hdeclared : (c.returns != "auto") = true := by
      refine bne_iff_ne.2 fun hauto => ?_
      rw [hauto, Store.hasType_auto] at htype
      cases htype
    simp only [htype, hdeclared, Bool.not_false, Bool.and_true, if_true, Bool.false_eq_true,
      false_or]
    rw [run_bind, htypeName]
    dsimp only
    rw [run_bind, run_host]
    cases hquiet : m'.isQuiet with
    | true =>
      rw [run_report_silenced hquiet, if_pos rfl]
      rfl
    | false =>
      rw [run_report_shown hquiet, if_neg Bool.false_ne_true]
      rfl

/-- A body that comes to its end gives its value, which is not checked. -/
theorem run_returning_of_ok (hx : x.run m = (.ok v, m')) :
    (returning c x).run m = (.ok v, m') := by
  rw [returning, run_tryCatch, hx]

/-- A call has the result that its body comes to its end with, or one that the body returns and that
is of the declared type, unless notices are silenced. -/
theorem run_returning_eq_ok (h : (returning c x).run m = (.ok v, m')) :
    x.run m = (.ok v, m') ∨
      x.run m = (.error (.returned v), m') ∧
        (m'.store.hasType v c.returns = true ∨ m'.isQuiet = true) := by
  rcases hx : x.run m with ⟨s | w, m₁⟩
  · cases s with
    | returned w =>
      rw [run_returning_of_returned hx] at h
      split at h
      · next hchecked =>
          cases h
          exact .inr ⟨rfl, hchecked⟩
      · cases h
    | _ =>
      rw [returning, run_tryCatch, hx] at h
      cases h
  · rw [run_returning_of_ok hx] at h
    exact .inl h

/-- The value of a call that has bound its parameters and come to the end of its body. -/
def RunsOff (g : Engine) (c : Closure) (v : Value) (m' : Machine) : Prop :=
  ∃ pos named m e m₁, (matchArguments g c pos named).run m = (.ok e, m₁) ∧
    (g.executeAll e c.body).run m₁ = (.ok v, m')

/-- Every call that gives a result gives one of the declared type, if notices are shown. -/
def DeclaredTypeHolds (g : Engine) (c : Closure) : Prop :=
  ∀ pos named m v m', (callFunction g c pos named).run m = (.ok v, m') → m'.isQuiet = false →
    m'.store.hasType v c.returns = true

end Exec

open Exec in
/-- When declared types hold. A value that a body returns is checked: if it is not of the declared
type, the program ends with a notice. A value with which a body runs off its end becomes the result
as it is. So the declared type holds for all calls of a function if and only if it holds for the
values with which its body runs off its end, and it does if the body returns on every path. -/
theorem declared_type_iff (g : Engine) (c : Closure) :
    (DeclaredTypeHolds g c ↔
      ∀ v m', RunsOff g c v m' → m'.isQuiet = false → m'.store.hasType v c.returns = true) ∧
    (∀ pos named m e m₁, (matchArguments g c pos named).run m = (.ok e, m₁) → ∀ v m',
      ((g.executeAll e c.body).run m₁ = (.ok v, m') →
        (callFunction g c pos named).run m = (.ok v, m')) ∧
      ((g.executeAll e c.body).run m₁ = (.error (.returned v), m') → m'.isQuiet = false →
        (callFunction g c pos named).run m =
          if m'.store.hasType v c.returns = true then (.ok v, m')
          else (.error (.exit (.int 1)), { m' with
            world := m'.world.emit
              ((Notice.returnType c.name c.returns (m'.store.typeName v)).event m'.reader) }))) ∧
    (Node.leavesAny c.body = true → ∀ depth, DeclaredTypeHolds (.ofDepth depth) c) := by
  have hcall {g : Engine} {pos : List Value} {named : Table Value} {m m₁ : Machine} {e : ScopeId}
      (hentered : (matchArguments g c pos named).run m = (.ok e, m₁)) :
      (callFunction g c pos named).run m = (returning c (g.executeAll e c.body)).run m₁ := by
    rw [callFunction_eq, run_bind, hentered]
  -- what was not returned has run off the end
  have hholds {g : Engine}
      (hoff : ∀ v m', RunsOff g c v m' → m'.isQuiet = false → m'.store.hasType v c.returns = true) :
      DeclaredTypeHolds g c := by
    intro pos named m v m' hresult hshown
    rw [callFunction_eq] at hresult
    obtain ⟨e, m₁, hentered, hreturning⟩ := run_bind_eq_ok.1 hresult
    rcases run_returning_eq_ok hreturning with hbody | ⟨-, htype | hquiet⟩
    · exact hoff v m' ⟨pos, named, m, e, m₁, hentered, hbody⟩ hshown
    · exact htype
    · cases hshown.symm.trans hquiet
  refine ⟨⟨fun h v m' hoff hshown => ?_, hholds⟩, fun pos named m e m₁ hentered v m' =>
    ⟨fun hbody => ?_, fun hbody hshown => ?_⟩, fun hleaves depth => hholds ?_⟩
  · obtain ⟨pos, named, m, e, m₁, hentered, hbody⟩ := hoff
    exact h pos named m v m' ((hcall hentered).trans (run_returning_of_ok hbody)) hshown
  · exact (hcall hentered).trans (run_returning_of_ok hbody)
  · rw [hcall hentered, run_returning_of_returned hbody]
    simp only [hshown, Bool.false_eq_true, or_false]
  · rintro v m' ⟨pos, named, m, e, m₁, -, hbody⟩
    have hend := HasNoResult.executeAll (fun n hn => hasNoResult_of_leaves depth hn e) hleaves
    exact absurd hbody (hend m₁ v m')

open Exec in
/-- A function that is declared to give integers and has only a text in its body gives that text.
One that returns in both branches of a choice keeps its word. -/
theorem declared_type_iff_text :
    let c (body : List Node) : Closure :=
      { name := "f", returns := "int", params := [], body, scope := 0 }
    ¬ DeclaredTypeHolds (.ofDepth 2) (c [.exprStmt (.text "abc")]) ∧
      DeclaredTypeHolds (.ofDepth 9) (c [.ifStmt (.name "b") (.block [.returnStmt (.name "x")])
        (.block [.exprStmt (.name "y"), .returnStmt (.text "abc")])]) := by
  intro c
  refine ⟨fun h => ?_, (declared_type_iff (.ofDepth 9) _).2.2 (by decide) 9⟩
  have hoff : RunsOff (.ofDepth 2) (c [.exprStmt (.text "abc")]) (.text "abc")
      { scopes := #[{}, { ancestors := [0] }], current := 1 } :=
    ⟨[], [], { scopes := #[{}] }, 1, { scopes := #[{}, { ancestors := [0] }] }, rfl, rfl⟩
  cases (declared_type_iff _ _).1.1 h _ _ hoff rfl

end ScriptLang
