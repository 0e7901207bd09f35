import ScriptLang.Proofs.Run.Isolated

/-!
# Failures that handlers catch

What goes wrong in a guarded block reaches its handler as a signal. An error is raised and can be
caught. A notice ends the program instead, and so does an error that is raised by name: its line is
shown, and the code of the exit is one. No handler takes up an exit, so such a failure is lost to
it.

That there is no third way is an invariant of all computations: whatever ends the program, short of
the call that is made to end it, has just shown a line. A handler must not break it, and none does,
for each hands the exit on as it came.
-/

namespace ScriptLang

variable {α β : Type}

/-- The code of an exit is that of a failure, and the line of the failure was shown last. -/
def Machine.Announced (m : Machine) (code : Value) : Prop :=
  code = .int 1 ∧ ∃ line, m.world.events.head? = some (.alarm line)

namespace Exec

/-- Whenever the computation ends the program, it has announced this. -/
def Announces (x : Exec α) : Prop :=
  ∀ ⦃m m' : Machine⦄ ⦃code : Value⦄, x.run m = (.error (.exit code), m') → m'.Announced code

namespace Announces

theorem throw {s : Signal} (hs : ∀ code, s ≠ .exit code) : Announces (throw s : Exec α) := by
  intro m m' code hrun
  cases hrun
  exact absurd rfl (hs code)

theorem modify (f : Machine → Machine) : Announces (modify f : Exec PUnit) := by
  intro m m' code hrun
  cases hrun

/-- A computation on the host ends the program only with a line, which is then shown. -/
theorem host (x : HostExec α) : Announces (liftM x : Exec α) := by
  intro m m' code hrun
  rw [run_host] at hrun
  rcases hx : x.run m.toHost with ⟨halt | a, host⟩ <;> rw [hx] at hrun
  · cases halt with
    | reported line =>
      cases hrun
      exact ⟨rfl, line, rfl⟩
    | _ => cases hrun
  · cases hrun

theorem bind {x : Exec α} {f : α → Exec β} (hx : Announces x) (hf : ∀ a, Announces (f a)) :
    Announces (x >>= f) := by
  intro m m' code hrun
  rw [run_bind] at hrun
  rcases h : x.run m with ⟨s | a, m₁⟩ <;> rw [h] at hrun
  · cases hrun
    exact hx h
  · exact hf a hrun

/-- An exit passes through a handler that hands it on; any other signal is up to the handler. -/
theorem tryCatch {x : Exec α} {f : Signal → Exec α} (hx : Announces x)
    (hf : ∀ s, (∀ code, s ≠ .exit code) → Announces (f s)) (hends : HandsOn f) :
    Announces (tryCatch x f : Exec α) := by
  intro m m' code hrun
  rw [run_tryCatch] at hrun
  rcases h : x.run m with ⟨s | a, m₁⟩ <;> rw [h] at hrun
  · cases s with
    | exit code₁ =>
      have hpassed := (hends.exit code₁ m₁).symm.trans hrun
      cases hpassed
      exact hx h
    | _ => exact hf _ (by intro _; exact nofun) hrun
  · cases hrun

theorem inBlock (e : ScopeId) {x : Exec α} (hx : Announces x) : Announces (inBlock e x) := by
  intro m m' code hrun
  rw [run_inBlock] at hrun
  rcases h : x.run { m with scopes := m.scopes.pushBlock e } with ⟨r, m₁⟩
  rw [h] at hrun
  cases hrun
  have hannounced : m₁.Announced code := hx h
  exact hannounced

theorem assignName (e : ScopeId) (name : String) (v : Value) :
    Announces (assignName e name v) := by
  have hassign : Announces (modifyScopes fun ss => ss.assign e name v) := .modify _
  refine .bind (fun _ _ _ => nofun) fun m => ?_
  dsimp only
  split
  · exact .bind (.host _) fun _ => hassign
  · exact hassign

end Announces

end Exec

def FreeDiscipline.announcing : FreeDiscipline where
  Rel x _ := Exec.Announces x
  pure _ _ _ _ := nofun
  get _ _ _ := nofun
  host := .host
  bind := .bind
  assignName := .assignName
  Allowed s := ∀ code, s ≠ .exit code
  allowed h code hs := by
    subst hs
    cases h
  throw := .throw
  tryCatch := .tryCatch
  modifyScopes _ := .modify _
  newScope _ _ _ _ := nofun
  inScope _ := .modify _
  inBlock e _ _ := .inBlock e
  setRoot _ := .modify _
  passTyped := .modify _
  allows h code hs := by
    subst hs
    cases h
  newCode _ _ _ _ := nofun

def Value.endsProgram : Value → Bool
  | .builtin .exit => true
  | _ => false

/-- Without that call, a program ends only with an announced failure. -/
theorem Engine.announces_without_exit (depth : Nat) :
    FreeDiscipline.announcing.GovernsAll (.without Value.endsProgram depth)
      (.without Value.endsProgram depth) := by
  have hcalls : FreeDiscipline.announcing.GovernsCalls
      (Exec.barring Value.endsProgram Exec.applyValue)
      (Exec.barring Value.endsProgram Exec.applyValue) := by
    refine FreeDiscipline.governsCalls_barring fun hg f hf => ?_
    refine FreeDiscipline.rel_applyValue hg fun hexit => ?_
    subst hexit
    cases hf
  exact hcalls.governsAll depth

/-! ### Guarded blocks -/

def Machine.catching (m : Machine) (e : ScopeId) (binder : String) (v : Value) : Machine :=
  { m with scopes := (m.scopes.pushBlock e).declare e binder v false false true }

/-- The block that catches an error finds it under its name. -/
theorem Machine.get?_catching {m : Machine} {e : ScopeId} (he : e < m.scopes.size)
    (binder : String) (v : Value) : (m.catching e binder v).scopes.get? e binder = some v := by
  have hscope : ((m.catching e binder v).scopes.scope e).vars.get? binder = some v := by
    simp [catching, Scopes.declare, Scopes.scope_update, he, Scope.bind_eq, Table.get?_set]
  rw [Scopes.get?, Scopes.chain, List.findSome?_cons, hscope]

namespace Exec

variable {g : Engine} {e : ScopeId} {tryBlock : Node} {m m₁ : Machine}

/-- An error runs the handler, with the name bound to the error. -/
theorem run_executeTry_of_raised {v : Value}
    (h : (inBlock e (g.execute tryBlock e)).run m = (.error (.raised v), m₁)) (binder : String)
    (catchBlock : Node) {r : Except Signal Value} {m₂ : Machine}
    (hcatch : (g.execute catchBlock e).run (m₁.catching e binder v) = (r, m₂)) :
    (executeTry g e tryBlock binder catchBlock).run m =
      (r, { m₂ with scopes := m₂.scopes.popBlock e }) := by
  have hbody : (do
      modifyScopes fun ss => ss.declare e binder v false false true
      g.execute catchBlock e : Exec Value).run { m₁ with scopes := m₁.scopes.pushBlock e } =
        (r, m₂) := by
    rw [run_bind, run_modifyScopes]
    exact hcatch
  rw [executeTry, run_tryCatch, h]
  dsimp only
  rw [run_inBlock, hbody]

/-- An exit does not. -/
theorem run_executeTry_of_exit {code : Value}
    (h : (inBlock e (g.execute tryBlock e)).run m = (.error (.exit code), m₁)) (binder : String)
    (catchBlock : Node) :
    (executeTry g e tryBlock binder catchBlock).run m = (.error (.exit code), m₁) := by
  rw [executeTry, run_tryCatch, h]
  rfl

end Exec

/-- A handler gets the failures that are raised, and no others. Let a guarded block fail in a run
that does not call the function that ends the program: not by leaving a loop or a function, not by
an interruption, and not at the bound on the run. Then either an error was raised, and the handler
runs with its name bound to the error and decides how the whole statement ends. Or the line of the
failure was shown, and the whole statement ends the program with the code one, without a run of the
handler. -/
theorem Engine.failure_caught_or_announced {depth : Nat} {tryBlock : Node} {e : ScopeId}
    {m m₁ : Machine} {s : Signal} (he : e < m.scopes.size)
    (hrun : (Exec.inBlock e ((Engine.without Value.endsProgram depth).execute tryBlock e)).run
      { m with current := e } = (.error s, m₁))
    (hcontrol : s.isControl = false) (hinterrupted : s ≠ .interrupted)
    (hexhausted : s ≠ .exhausted) (binder : String) (catchBlock : Node) :
    let whole :=
      ((Engine.ofDepth (depth + 1)).execute (.tryCatch tryBlock binder catchBlock) e).run m
    (∃ v, s = .raised v ∧
      (m₁.catching e binder v).scopes.get? e binder = some v ∧
      ∀ r m₂, ((Engine.ofDepth depth).execute catchBlock e).run (m₁.catching e binder v) = (r, m₂) →
        whole = (r, { m₂ with scopes := m₂.scopes.popBlock e })) ∨
    (s = .exit (.int 1) ∧ (∃ line, m₁.world.events.head? = some (.alarm line)) ∧
      whole = (.error s, m₁)) := by
  intro whole
  have hwhole : whole = (Exec.executeTry (.ofDepth depth) e tryBlock binder catchBlock).run
      { m with current := e } := rfl
  -- the run without the call is a run of the engine with all calls
  have hsame : (Exec.inBlock e ((Engine.ofDepth depth).execute tryBlock e)).run
      { m with current := e } = (.error s, m₁) := by
    have happrox :=
      ((Engine.governsAll_without Value.endsProgram depth).execute tryBlock e).inBlock e
    obtain hend | heq := happrox { m with current := e }
    · rw [hrun] at hend
      exact absurd (Except.error.inj hend) hexhausted
    · rw [← heq, hrun]
  cases s with
  | raised v =>
    have hsize : e < m₁.scopes.size := by
      have hevolves := Exec.evolving_inBlock e
        ((Engine.evolving_ofDepth depth).execute tryBlock e) { m with current := e }
      rw [hsame] at hevolves
      exact Nat.lt_of_lt_of_le he hevolves.blocksKept.1
    refine .inl ⟨v, rfl, Machine.get?_catching hsize binder v, fun r m₂ hcatch => ?_⟩
    rw [hwhole]
    exact Exec.run_executeTry_of_raised hsame binder catchBlock hcatch
  | exit code =>
    have hannounces : Exec.Announces
        (Exec.inBlock e ((Engine.without Value.endsProgram depth).execute tryBlock e)) :=
      .inBlock e ((Engine.announces_without_exit depth).execute tryBlock e)
    obtain ⟨rfl, hline⟩ := hannounces hrun
    refine .inr ⟨rfl, hline, ?_⟩
    rw [hwhole]
    exact Exec.run_executeTry_of_exit hsame binder catchBlock
  | returned | broke | continued => cases hcontrol
  | interrupted => exact absurd rfl hinterrupted
  | exhausted => exact absurd rfl hexhausted

/-- A division by zero is caught; a name that is not bound ends the program. -/
theorem Engine.failure_caught_or_announced_both :
    let m : Machine := { scopes := #[{}] }
    let guarded (body : Node) : Node := .tryCatch (.block [.exprStmt body]) "problem" (.block [])
    let quotient : Node := .binary (.number (.int 1)) .div (.number (.int 0))
    let whole (body : Node) := ((Engine.ofDepth 5).execute (guarded body) 0).run m
    (whole quotient).1 = .ok .none ∧
    (whole (.name "total")).1 = .error (.exit (.int 1)) ∧
    ∃ line, (whole (.name "total")).2.world.events.head? = some (.alarm line) := by
  intro m guarded quotient whole
  let block (body : Node) := (Exec.inBlock 0 ((Engine.without Value.endsProgram 4).execute
    (.block [.exprStmt body]) 0)).run { m with current := 0 }
  have hraised : block quotient = (.error (.raised (.ref 0)), (block quotient).2) := rfl
  have hexit : block (.name "total") = (.error (.exit (.int 1)), (block (.name "total")).2) := rfl
  constructor
  · obtain ⟨v, hv, -, hcaught⟩ | ⟨hexit, -⟩ := failure_caught_or_announced (by decide) hraised rfl
      nofun nofun "problem" (.block [])
    · cases hv
      have hends : whole quotient = _ := hcaught _ _ rfl
      rw [hends]
    · cases hexit
  · obtain ⟨v, hv, -⟩ | ⟨-, hline, hends⟩ := failure_caught_or_announced (by decide) hexit rfl
      nofun nofun "problem" (.block [])
    · cases hv
    · change whole (.name "total") = _ at hends
      rw [hends]
      exact ⟨rfl, hline⟩

end ScriptLang
