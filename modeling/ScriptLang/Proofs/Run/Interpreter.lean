import ScriptLang.Proofs.Run.Call
import ScriptLang.Proofs.Run.Evolution

/-!
# The interpreter and the scopes

Every step of execution, evaluation and calling has a discipline if the computations that it is
built on have it. So all that programs do has it, by induction on the depth of the engine, and in
particular all that the engine of the language does is evolving.
-/

namespace ScriptLang

variable {call call' : Engine → Value → List Value → Table Value → Exec Value}

/-- Whether calling a value opens or ends a block of a scope, apart from any statement. -/
def Value.changesBlocks : Value → Bool
  | .method (.internal (.scope _)) _ => true
  | _ => false

namespace FreeDiscipline

variable {D : FreeDiscipline}

/-- Two ways to call values give related calls on related engines. -/
def GovernsCalls (D : FreeDiscipline)
    (call call' : Engine → Value → List Value → Table Value → Exec Value) : Prop :=
  ∀ g g' : Engine, D.GovernsAll g g' → ∀ f pos named,
    D.Rel (call g f pos named) (call' g' f pos named)

/-- Engines are related if their calls are. -/
theorem GovernsCalls.governsAll (h : D.GovernsCalls call call') (depth : Nat) :
    D.GovernsAll (.tied call depth) (.tied call' depth) := by
  induction depth with
  | zero =>
    have hend : D.Holds (throw .exhausted : Exec Value) := D.throw (D.allowed rfl)
    exact ⟨fun _ _ => hend, fun _ _ => hend, fun _ _ _ => hend, rfl⟩
  | succ depth ih =>
    exact ⟨Exec.rel_executeStep ih, Exec.rel_evaluateStep ih.governs, h _ _ ih, rfl⟩

/-- A call is related if all that the engines do is, and the end of the program if it is called. -/
theorem rel_applyValue {g g' : Engine} (hg : D.GovernsAll g g') {f : Value}
    (hexit : f = .builtin .exit → ∀ code, D.Allowed (.exit code)) (pos : List Value)
    (named : Table Value) :
    D.Rel (Exec.applyValue g f pos named) (Exec.applyValue g' f pos named) :=
  Exec.rel_applyValue hg.governs (fun _ _ _ _ => Exec.rel_interpretAll fun s _ => hg.execute s)
    hexit pos named

/-- The same for all calls, where programs may end. -/
theorem governsCalls_applyValue (hexit : ∀ code, D.Allowed (.exit code)) :
    D.GovernsCalls Exec.applyValue Exec.applyValue :=
  fun _ _ hg _ => rel_applyValue hg fun _ => hexit

/-- Besides what the values of the language do, opening and ending blocks has to be related. -/
theorem rel_applyFull {g g' : Engine} (hg : D.GovernsAll g g') {f : Value}
    (hexit : f = .builtin .exit → ∀ code, D.Allowed (.exit code))
    (hblocks : f.changesBlocks = true → ∀ e,
      D.Holds (Exec.modifyScopes fun ss => ss.pushBlock e) ∧
      D.Holds (Exec.modifyScopes fun ss => ss.popBlock e)) (pos : List Value)
    (named : Table Value) :
    D.Rel (Exec.applyFull g f pos named) (Exec.applyFull g' f pos named) := by
  unfold Exec.applyFull
  split
  · unfold Exec.applyInternal
    split
    · exact D.bind (hblocks rfl _).1 fun _ => D.pure _
    · exact D.bind (hblocks rfl _).2 fun _ => D.pure _
    · exact hg.execute _ _
    · exact hg.evaluate _ _
    · exact D.throw (D.allowed rfl)
  · exact rel_applyValue hg hexit pos named

/-- Calls that are not followed are related, so only the others count. -/
theorem governsCalls_barring {barred : Value → Bool} (h : ∀ {g g' : Engine}, D.GovernsAll g g' →
      ∀ f, barred f = false → ∀ pos named, D.Rel (call g f pos named) (call' g' f pos named)) :
    D.GovernsCalls (Exec.barring barred call) (Exec.barring barred call') := by
  intro g g' hg f pos named
  unfold Exec.barring
  split
  · exact D.throw (D.allowed rfl)
  · next hf => exact h hg f (Bool.eq_false_of_not_eq_true hf) pos named

end FreeDiscipline

/-- All that the engine of the language does to the scopes is of the kind that `Scopes.Evolves`
lists. -/
theorem Engine.evolving_ofDepth (depth : Nat) : (Engine.ofDepth depth).Evolving :=
  have hcalls := FreeDiscipline.governsCalls_applyValue (D := .evolving) fun _ => trivial
  have h := hcalls.governsAll depth
  ⟨h.execute, h.evaluate, h.apply⟩

end ScriptLang
