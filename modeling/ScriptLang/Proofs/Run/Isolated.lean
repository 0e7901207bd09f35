import ScriptLang.Proofs.Run.Interpreter

/-!
# Programs without some calls

Some provided functions run other programs: a text that a program has made up, or a library. In an
isolated engine the call of such a function has no end. A run that does end there is the same run in
the engine with all functions: it is one in which no other program is run. Other calls are ruled out
of a run in the same way, among them all those by which a program works on its interpreter: this
gives the engine of the language.
-/

namespace ScriptLang

variable {α β : Type}

/-- Wherever the first computation does not reach its bound, the second one does the same. -/
def Exec.Approximates (x y : Exec α) : Prop :=
  ∀ m, (x.run m).1 = .error .exhausted ∨ x.run m = y.run m

namespace Exec.Approximates

theorem refl (x : Exec α) : Approximates x x := fun _ => .inr rfl

/-- A run that does not reach its bound is the run of the other computation. -/
theorem run_eq {x y : Exec α} (h : Approximates x y) {m : Machine}
    (hends : (x.run m).1 ≠ .error .exhausted) : y.run m = x.run m :=
  ((h m).resolve_left hends).symm

theorem exhausted (y : Exec α) : Approximates (throw .exhausted) y := fun _ => .inl rfl

theorem bind {x y : Exec α} {f k : α → Exec β} (h : Approximates x y)
    (hf : ∀ a, Approximates (f a) (k a)) : Approximates (x >>= f) (y >>= k) := by
  intro m
  rw [run_bind, run_bind]
  obtain hend | heq := h m
  · rcases hx : x.run m with ⟨s | a, m'⟩ <;> rw [hx] at hend <;> cases hend
    exact .inl rfl
  · rw [heq]
    rcases y.run m with ⟨s | a, m'⟩
    · exact .inr rfl
    · exact hf a m'

/-- A handler must hand the end of a computation on. -/
theorem tryCatch {x y : Exec α} {f k : Signal → Exec α} (h : Approximates x y)
    (hf : ∀ s, Approximates (f s) (k s)) (hend : HandsOn f) :
    Approximates (tryCatch x f : Exec α) (tryCatch y k) := by
  intro m
  rw [run_tryCatch, run_tryCatch]
  obtain hexhausted | heq := h m
  · rcases hx : x.run m with ⟨s | a, m'⟩ <;> rw [hx] at hexhausted <;> cases hexhausted
    exact .inl (congrArg Prod.fst (hend.exhausted m'))
  · rw [heq]
    rcases y.run m with ⟨s | a, m'⟩
    · exact hf s m'
    · exact .inr rfl

theorem inBlock (e : ScopeId) {x y : Exec α} (h : Approximates x y) :
    Approximates (inBlock e x) (inBlock e y) := by
  intro m
  rw [run_inBlock, run_inBlock]
  obtain hend | heq := h { m with scopes := m.scopes.pushBlock e }
  · exact .inl hend
  · rw [heq]
    exact .inr rfl

end Exec.Approximates

def FreeDiscipline.approximating : FreeDiscipline where
  Rel := Exec.Approximates
  pure _ := .refl _
  get := .refl _
  host _ := .refl _
  bind := .bind
  assignName _ _ _ := .refl _
  Allowed _ := True
  allowed _ := trivial
  throw _ := .refl _
  tryCatch h hf := .tryCatch h fun s => hf s trivial
  modifyScopes _ := .refl _
  newScope _ := .refl _
  inScope _ := .refl _
  inBlock e _ _ := .inBlock e
  setRoot _ := .refl _
  passTyped := .refl _
  allows _ := trivial
  newCode _ := .refl _

namespace Engine

variable {call : Engine → Value → List Value → Table Value → Exec Value}

/-- A run that ends although some calls are not followed is a run in which all calls are. -/
theorem governsAll_tied_barring (h : FreeDiscipline.approximating.GovernsCalls call call)
    (barred : Value → Bool) (depth : Nat) :
    FreeDiscipline.approximating.GovernsAll (.tied (Exec.barring barred call) depth)
      (.tied call depth) := by
  refine FreeDiscipline.GovernsCalls.governsAll (fun g g' hg f pos named => ?_) depth
  unfold Exec.barring
  split
  · exact Exec.Approximates.exhausted _
  · exact h g g' hg f pos named

/-- The engine of the language in which the calls of some values have no end. -/
def without (barred : Value → Bool) (depth : Nat) : Engine :=
  .tied (Exec.barring barred Exec.applyValue) depth

/-- With calls barred the engine of the language does less, and nothing else. -/
theorem governsAll_without (barred : Value → Bool) (depth : Nat) :
    FreeDiscipline.approximating.GovernsAll (.without barred depth) (.ofDepth depth) :=
  governsAll_tied_barring (FreeDiscipline.governsCalls_applyValue fun _ => trivial) barred depth

/-- The full engine in which the calls of some values have no end. -/
def barring (barred : Value → Bool) (depth : Nat) : Engine :=
  .tied (Exec.barring barred Exec.applyFull) depth

/-- With calls barred the full engine does less, and nothing else. -/
theorem governsAll_barring (barred : Value → Bool) (depth : Nat) :
    FreeDiscipline.approximating.GovernsAll (.barring barred depth) (.full depth) := by
  have hfull : FreeDiscipline.approximating.GovernsCalls Exec.applyFull Exec.applyFull :=
    fun _ _ hg _ => FreeDiscipline.rel_applyFull hg (fun _ _ => trivial)
      fun _ _ => ⟨.refl _, .refl _⟩
  exact governsAll_tied_barring hfull barred depth

/-- A run of the engine of the language that ends is a run of the full engine. -/
theorem governsAll_ofDepth (depth : Nat) :
    FreeDiscipline.approximating.GovernsAll (.ofDepth depth) (.full depth) := by
  refine FreeDiscipline.GovernsCalls.governsAll (fun g g' hg f pos named => ?_) depth
  have hlanguage : Exec.Approximates (Exec.applyValue g f pos named)
      (Exec.applyValue g' f pos named) :=
    FreeDiscipline.rel_applyValue hg (fun _ _ => trivial) pos named
  unfold Exec.applyFull
  split
  · exact Exec.Approximates.exhausted _
  · exact hlanguage

end Engine

/-- Whether calling a value runs statements that are not those of a function: another program, or
statements that are taken out of the place in which they stand. -/
def Value.runsPrograms : Value → Bool
  | .builtin b => b.runsPrograms
  | .method (.internal .interpreter) name => name == "execute"
  | _ => false

/-- The full engine in which the call of a function that runs other statements has no end. -/
def Engine.isolated (depth : Nat) : Engine := .barring Value.runsPrograms depth

end ScriptLang
