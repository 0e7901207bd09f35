import ScriptLang.Proofs.Run.Declare
import ScriptLang.Proofs.Run.Isolated
import ScriptLang.Proofs.Scope.Record

/-!
# What blocks leave behind

A statement ends every block that it opens, whatever its outcome is, and nothing else opens or ends
one, unless a program calls these operations of a scope itself.

A block has no scope of its own: the names that are declared in it are bound in the scope around it,
and erased there when it ends. So no name leaks out of a block, except one that was routed to the
outermost scope. But a name that the block declares is erased even if the scope had bound it before
the block: the outer variable is not restored.
-/

namespace ScriptLang

open Scopes (Evolves)

variable {α : Type}

/-! ### The discipline of blocks -/

/-- The full engine in which a call that opens or ends a block has no end. -/
def Engine.balanced (depth : Nat) : Engine := .barring Value.changesBlocks depth

/-- The calls that would open or end blocks are barred, and all others evolve. -/
theorem Engine.evolving_balanced (depth : Nat) : (Engine.balanced depth).Evolving := by
  have hcalls : FreeDiscipline.evolving.GovernsCalls
      (Exec.barring Value.changesBlocks Exec.applyFull)
      (Exec.barring Value.changesBlocks Exec.applyFull) := by
    refine FreeDiscipline.governsCalls_barring fun hg f hf => ?_
    refine FreeDiscipline.rel_applyFull hg (fun _ _ => trivial) fun hblocks => ?_
    exact absurd (hf.symm.trans hblocks) Bool.false_ne_true
  have h := hcalls.governsAll depth
  exact ⟨h.execute, h.evaluate, h.apply⟩

/-- Without such calls a run of the balanced engine is one of the full engine. -/
theorem Engine.governsAll_balanced (depth : Nat) :
    FreeDiscipline.approximating.GovernsAll (.balanced depth) (.full depth) :=
  governsAll_barring Value.changesBlocks depth

/-- A function without parameters and statements, and a call of an operation of its scope. -/
def emptyFunction : Node := .func "f" [] "auto" []

def scopeCall (name : String) : Node :=
  .exprStmt (.call (.member (.member (.name "f") "env") name) [])

namespace Scopes

variable {e : ScopeId} {x : String} {ss ss' : Scopes α}

/-- The innermost open block of scope `e` holds the name. -/
def Noted (e : ScopeId) (x : String) (ss : Scopes α) : Prop := x ∈ (ss.scope e).blocks.headD []

theorem BlocksKept.noted (h : BlocksKept ss ss') (hx : Noted e x ss) : Noted e x ss' := by
  obtain ⟨names, hblocks⟩ := h.2 e
  unfold Noted at hx ⊢
  rw [hblocks]
  cases hopen : (ss.scope e).blocks with
  | nil => simp [hopen] at hx
  | cons block rest =>
    rw [hopen] at hx
    exact List.mem_append_left names hx

/-- Binding a name in a scope with an open block has the block hold it. -/
theorem noted_bind (he : e < ss.size) (hopen : (ss.scope e).blocks ≠ []) (value : α)
    (readOnly : Bool) : Noted e x (ss.update e fun s => s.bind x value readOnly true) := by
  obtain ⟨block, rest, hblocks⟩ := List.exists_cons_of_ne_nil hopen
  simp [Noted, scope_update, he, Scope.bind_eq, hblocks]

/-- What a block holds is not bound once the block has ended. -/
theorem has_popBlock_of_noted (hx : Noted e x ss) :
    ((ss.popBlock e).scope e).vars.has x = false := by
  have he : e < ss.size := by
    by_contra hlt
    rw [Noted, scope_of_size_le (Nat.le_of_not_lt hlt)] at hx
    simp at hx
  unfold Noted at hx
  rw [popBlock, scope_update, if_pos ⟨rfl, he⟩, ← Scope.isSome_binding?, Scope.binding?_popBlock,
    if_pos hx]
  rfl

theorem blocks_pushBlock_ne_nil (he : e < ss.size) : ((ss.pushBlock e).scope e).blocks ≠ [] := by
  simp [pushBlock, scope_update, he, Scope.pushBlock]

end Scopes

namespace Exec

open Scopes (Sealed Noted)

variable {g : Engine} {e : ScopeId} {x : String} {m : Machine}

/-- The scopes are the same after a round as after its block. -/
theorem run_loopRound (e : ScopeId) (body : Exec Unit) (m : Machine) :
    ((loopRound e body).run m).2.scopes = ((inBlock e body).run m).2.scopes := by
  rw [loopRound, run_tryCatch, run_bind]
  rcases (inBlock e body).run m with ⟨s | _, m'⟩
  · cases s <;> rfl
  · rfl

/-- What evolves inside of a block is sealed by its end. -/
theorem sealed_inBlock {body : Exec α} (hbody : Evolving body) (he : e < m.scopes.size) :
    ∃ since, Sealed e m.scopes since ((inBlock e body).run m).2.scopes := by
  have hopen : e < (m.scopes.pushBlock e).size := Scopes.lt_size_pushBlock he
  have hevolves := hbody { m with scopes := m.scopes.pushBlock e }
  obtain ⟨since, h⟩ := hevolves.exists_accounted hopen
  exact ⟨since, h.sealed he (Nat.lt_of_lt_of_le hopen hevolves.blocksKept.1)⟩

/-- A round of a loop is sealed as its block is. -/
theorem sealed_loopRound {body : Exec Unit} (hbody : Evolving body) (he : e < m.scopes.size) :
    ∃ since, Sealed e m.scopes since ((loopRound e body).run m).2.scopes := by
  rw [run_loopRound]
  exact sealed_inBlock hbody he

/-- Wherever the first computation does not reach its bound, the second one does the same; and all
that the first one does to scope `e` is sealed. -/
def Seals (e : ScopeId) (m : Machine) (x y : Exec α) : Prop :=
  ((x.run m).1 ≠ .error .exhausted → y.run m = x.run m) ∧
    ∃ since, Sealed e m.scopes since (x.run m).2.scopes

/-! ### Names that blocks erase -/

/-- Whatever its outcome is, the computation leaves the name unbound in scope `e`. -/
def Unbinds (e : ScopeId) (x : String) (y : Exec α) (m : Machine) : Prop :=
  ((y.run m).2.scopes.scope e).vars.has x = false

/-- What the block of a computation holds at its end is not bound afterwards. -/
theorem unbinds_inBlock {body : Exec α}
    (h : Noted e x (body.run { m with scopes := m.scopes.pushBlock e }).2.scopes) :
    Unbinds e x (inBlock e body) m :=
  Scopes.has_popBlock_of_noted h

theorem unbinds_loopRound {body : Exec Unit} (h : Unbinds e x (inBlock e body) m) :
    Unbinds e x (loopRound e body) m := by
  rwa [Unbinds, run_loopRound]

/-- A block that begins with a declaration leaves the name unbound, whatever else happens in it. -/
theorem unbinds_inBlock_declare {y : Exec α} (hy : Evolving y) (he : e < m.scopes.size)
    (x : String) (v : Value) :
    Unbinds e x (inBlock e do
      modifyScopes fun ss => ss.declare e x v false false true
      y) m := by
  refine unbinds_inBlock ?_
  rw [run_bind, run_modifyScopes]
  refine (hy _).blocksKept.noted ?_
  exact Scopes.noted_bind (Scopes.lt_size_pushBlock he)
    (Scopes.blocks_pushBlock_ne_nil he) v false

/-- A round declares the variable of its loop first, so that the block erases it. -/
theorem unbinds_forRound (hg : g.Evolving) (he : e < m.scopes.size) {binder : String}
    (hbinder : binder ≠ "_") (body : Node) (v : Value) :
    Unbinds e binder (forRound g e binder body v) m := by
  refine unbinds_loopRound ?_
  rw [if_pos (by simpa using hbinder)]
  exact unbinds_inBlock_declare (by grind -funext) he binder v

/-- After a round of a loop its variable is not bound, and it stays so if the rest keeps it so. -/
theorem unbinds_forRound_bind (hg : g.Evolving) (he : e < m.scopes.size) {binder : String}
    (hbinder : binder ≠ "_") {body : Node} (v : Value) {rest : Exec Unit}
    (hrest : ∀ m : Machine, e < m.scopes.size → (m.scopes.scope e).vars.has binder = false →
      Unbinds e binder rest m) :
    Unbinds e binder (do
      let goesOn ← forRound g e binder body v
      if goesOn then rest) m := by
  have hround := unbinds_forRound hg he hbinder body v
  have hsize := (evolving_forRound hg e binder body v m).blocksKept.1
  unfold Unbinds at hround ⊢
  rw [run_bind]
  rcases hrun : (forRound g e binder body v).run m with ⟨s | goesOn, m₁⟩ <;>
    rw [hrun] at hround hsize
  · exact hround
  · cases goesOn with
    | false => exact hround
    | true => exact hrest m₁ (Nat.lt_of_lt_of_le he hsize) hround

/-- A loop whose variable is not bound leaves it so. -/
theorem unbinds_forLoop (hg : g.Evolving) {binder : String} (hbinder : binder ≠ "_") (body : Node)
    (rounds : Nat) (s : Series) (m : Machine) (he : e < m.scopes.size)
    (hm : (m.scopes.scope e).vars.has binder = false) :
    Unbinds e binder (forLoop g e binder body rounds s) m := by
  induction rounds generalizing s m with
  | zero => exact hm
  | succ rounds ih =>
    have hhost : m.scopes = ((liftM (nextOf s) : Exec (Option (Value × Series))).run m).2.scopes :=
      Respects.host (R := Eq) (nextOf s) m
    rw [Unbinds, forLoop, run_bind]
    rcases hrun : (liftM (nextOf s) : Exec (Option (Value × Series))).run m with ⟨_ | next, m₁⟩ <;>
      rw [hrun] at hhost
    · exact hhost ▸ hm
    · cases next with
      | none => exact hhost ▸ hm
      | some next => exact unbinds_forRound_bind hg (hhost ▸ he) hbinder next.1 (ih next.2)

/-- A loop that has a value to go through leaves its variable unbound. -/
theorem unbinds_forLoop_of_next (hg : g.Evolving) (he : e < m.scopes.size) {binder : String}
    (hbinder : binder ≠ "_") (body : Node) (rounds : Nat) {s rest : Series} {v : Value}
    {host : Host} (hnext : (nextOf s).run m.toHost = (.ok (some (v, rest)), host)) :
    Unbinds e binder (forLoop g e binder body (rounds + 1) s) m := by
  rw [Unbinds, forLoop, run_bind, run_host_of_ok hnext]
  exact unbinds_forRound_bind (m := { m with toHost := host }) hg he hbinder v
    (unbinds_forLoop hg hbinder body rounds rest)

/-- A statement that catches an error leaves the name of the error unbound. -/
theorem unbinds_executeTry (hg : g.Evolving) (he : e < m.scopes.size) {tryBlock : Node}
    {v : Value} {m₁ : Machine}
    (hraised : (inBlock e (g.execute tryBlock e)).run m = (.error (.raised v), m₁))
    (binder : String) (catchBlock : Node) :
    Unbinds e binder (executeTry g e tryBlock binder catchBlock) m := by
  have hsize := (evolving_inBlock e (hg.execute tryBlock e) m).blocksKept.1
  rw [hraised] at hsize
  rw [Unbinds, executeTry, run_tryCatch, hraised]
  exact unbinds_inBlock_declare (hg.execute catchBlock e) (Nat.lt_of_lt_of_le he hsize) binder v

/-! ### Declarations in blocks -/

/-- Once a statement among others is complete, the scopes evolve from there. -/
theorem evolves_executeAll_append (hg : g.Evolving) {before after : List Node} {s : Node}
    {m m₁ m₂ : Machine} {r₁ r₂ : Value} (hbefore : (g.executeAll e before).run m = (.ok r₁, m₁))
    (hs : (g.execute s e).run m₁ = (.ok r₂, m₂)) :
    Evolves m₂.scopes ((g.executeAll e (before ++ s :: after)).run m).2.scopes := by
  have hfirst (m : Machine) (hs : (g.execute s e).run m = (.ok r₂, m₂)) :
      Evolves m₂.scopes ((g.executeAll e (s :: after)).run m).2.scopes := by
    cases after with
    | nil =>
      rw [Engine.executeAll, hs]
      exact .refl _
    | cons t after =>
      rw [Engine.executeAll, run_bind, hs]
      · exact evolving_executeAll hg e _ m₂
      · exact nofun
  induction before generalizing m r₁ with
  | nil =>
    cases hbefore
    exact hfirst _ hs
  | cons t before ih =>
    cases before with
    | nil =>
      rw [Engine.executeAll] at hbefore
      rw [List.cons_append, List.nil_append, Engine.executeAll, run_bind, hbefore]
      · exact hfirst m₁ hs
      · exact nofun
    | cons u before =>
      rw [Engine.executeAll] at hbefore
      · obtain ⟨_, m₀, ht, hrest⟩ := run_bind_eq_ok.1 hbefore
        rw [List.cons_append, Engine.executeAll, run_bind, ht]
        · exact ih hrest
        · exact nofun
      · exact nofun

/-- A local declaration that completes inside a block of its scope is noted. -/
theorem noted_declaration (depth : Nat) {expr : Node} {b : Binding} {m m' : Machine} {r : Value}
    (he : e < m.scopes.size) (hopen : (m.scopes.scope e).blocks ≠ [])
    (hrun : ((Engine.ofDepth depth).execute (.assign (some x) expr .absent b) e).run m =
      (.ok r, m'))
    (hdeclare : b.declare = true) (hforce : b.forceGlobal = false)
    (hlocal : b.forceLocal = true ∨ m'.scopes.intent? e x ≠ some "global") (hx : x ≠ "_") :
    Noted e x m'.scopes := by
  cases depth with
  | zero => cases hrun
  | succ depth =>
    obtain ⟨v, m₁, hvalue, -, hbind⟩ := run_declaration_cases hdeclare hrun
    have hredeclare := hbind hx
    have hkept : Scopes.BlocksKept m.scopes (m₁.scopes.dropNearest e x) := by
      have hvalue' := (Engine.evolving_ofDepth depth).evaluate expr e { m with current := e }
      rw [hvalue] at hvalue'
      exact hvalue'.blocksKept.trans (m₁.scopes.evolves_dropNearest e x).blocksKept
    have hlocal' : b.forceLocal = true ∨ m₁.scopes.intent? e x ≠ some "global" := by
      rwa [intent?_of_redeclare hredeclare] at hlocal
    rw [run_redeclare m₁ v hforce hlocal'] at hredeclare
    cases hredeclare
    exact Scopes.noted_bind (Nat.lt_of_lt_of_le he hkept.1) (hkept.ne_nil hopen) v b.readOnly

/-- Run in scope `e`, the statements complete a declaration of `x` that is meant for `e`. -/
inductive Declares (g : Engine) (e : ScopeId) (x : String) (m : Machine) : List Node → Prop where
  | intro {before after : List Node} {expr : Node} {b : Binding} {r₁ r₂ : Value} {m₁ m₂ : Machine}
      (hbefore : (g.executeAll e before).run m = (.ok r₁, m₁))
      (hdeclared : (g.execute (.assign (some x) expr .absent b) e).run m₁ = (.ok r₂, m₂))
      (hdeclare : b.declare = true) (hforce : b.forceGlobal = false)
      (hlocal : b.forceLocal = true ∨ m₂.scopes.intent? e x ≠ some "global") (hx : x ≠ "_") :
      Declares g e x m (before ++ .assign (some x) expr .absent b :: after)

/-- What statements declare while a block of the scope is open is noted at their end. -/
theorem Declares.noted {depth : Nat} {statements : List Node} (he : e < m.scopes.size)
    (hopen : (m.scopes.scope e).blocks ≠ [])
    (h : Declares (.ofDepth depth) e x m statements) :
    Noted e x (((Engine.ofDepth depth).executeAll e statements).run m).2.scopes := by
  obtain @⟨before, after, expr, b, r₁, r₂, m₁, m₂, hbefore, hdeclared, hdeclare, hforce, hlocal,
    hx⟩ := h
  have hg := Engine.evolving_ofDepth depth
  have hkept := (evolving_executeAll hg e before m).blocksKept
  rw [hbefore] at hkept
  have hnoted : Noted e x m₂.scopes := noted_declaration depth (Nat.lt_of_lt_of_le he hkept.1)
    (hkept.ne_nil hopen) hdeclared hdeclare hforce hlocal hx
  exact (evolves_executeAll_append hg hbefore hdeclared).blocksKept.noted hnoted

theorem Declares.unbinds_inBlock {depth : Nat} {statements : List Node} (he : e < m.scopes.size)
    (h : Declares (.ofDepth depth) e x { m with scopes := m.scopes.pushBlock e } statements) :
    Unbinds e x (inBlock e ((Engine.ofDepth depth).executeAll e statements)) m :=
  Exec.unbinds_inBlock
    (h.noted (Scopes.lt_size_pushBlock he) (Scopes.blocks_pushBlock_ne_nil he))

theorem Declares.unbinds_whileRound {depth : Nat} {statements : List Node} (he : e < m.scopes.size)
    (h : Declares (.ofDepth depth) e x { m with scopes := m.scopes.pushBlock e } statements) :
    Unbinds e x (whileRound (.ofDepth depth) e (.block statements)) m := by
  refine unbinds_loopRound (Exec.unbinds_inBlock ?_)
  have hnoted := h.noted (Scopes.lt_size_pushBlock he) (Scopes.blocks_pushBlock_ne_nil he)
  have hbody (m : Machine) : (liftM (bodyStatements (.block statements)) : Exec (List Node)).run m =
      (.ok statements, m) := rfl
  simp only [run_bind, hbody]
  rcases hrun : ((Engine.ofDepth depth).executeAll e statements).run
    { m with scopes := m.scopes.pushBlock e } with ⟨_ | _, m'⟩ <;> rw [hrun] at hnoted
  · exact hnoted
  · exact hnoted

end Exec

/-- Blocks erase what they declare. A variable of a scope that a statement in it does not touch is
kept, and one that it does not drop is still bound. But a name that is declared inside a block of
the scope is not bound in the scope once the block has ended, even if it was bound before: the outer
variable is not restored. The same holds for the variable of a loop and for the name under which an
error is caught. -/
theorem Engine.blocks_erase_declared (depth : Nat) (e : ScopeId) (m : Machine)
    (he : e < m.scopes.size) :
    (∀ node, ∃ since, Scopes.Accounted e m.scopes since
      (((Engine.ofDepth depth).execute node e).run m).2.scopes) ∧
    (∀ statements x, Exec.Declares (.ofDepth depth) e x
        { m with scopes := m.scopes.pushBlock e, current := e } statements →
      Exec.Unbinds e x ((Engine.ofDepth (depth + 1)).execute (.block statements) e) m) ∧
    (∀ statements x, Exec.Declares (.ofDepth depth) e x
        { m with scopes := m.scopes.pushBlock e } statements →
      Exec.Unbinds e x (Exec.whileRound (.ofDepth depth) e (.block statements)) m) ∧
    (∀ binder body rounds s v rest host, binder ≠ "_" →
        (Exec.nextOf s).run m.toHost = (.ok (some (v, rest)), host) →
      Exec.Unbinds e binder (Exec.forLoop (.ofDepth depth) e binder body (rounds + 1) s) m) ∧
    (∀ tryBlock binder catchBlock v m₁,
        (Exec.inBlock e ((Engine.ofDepth depth).execute tryBlock e)).run m =
          (.error (.raised v), m₁) →
      Exec.Unbinds e binder (Exec.executeTry (.ofDepth depth) e tryBlock binder catchBlock) m) := by
  have hg := Engine.evolving_ofDepth depth
  refine ⟨fun node => ?_, fun statements x h => ?_, fun statements x h => ?_,
    fun binder body rounds s v rest host hbinder hnext => ?_,
    fun tryBlock binder catchBlock v m₁ hraised => ?_⟩
  · exact (hg.execute node e m).exists_accounted he
  · exact Exec.Declares.unbinds_inBlock (m := { m with current := e }) he h
  · exact h.unbinds_whileRound he
  · exact Exec.unbinds_forLoop_of_next hg he hbinder body rounds hnext
  · exact Exec.unbinds_executeTry hg he hraised binder catchBlock

/-- A loop over one value, whose variable has the name of a bound one: it is not bound any more. -/
theorem Engine.blocks_erase_declared_loop :
    let m : Machine := { scopes := #[{ vars := [("x", .int 1)], flags := [("x", false)] }] }
    let m' := ((Exec.forLoop (.ofDepth 1) 0 "x" (.block []) 2 (.items [.int 7])).run m).2
    (m.scopes.scope 0).binding? "x" = some (.int 1, false) ∧
      (m'.scopes.scope 0).vars.has "x" = false := by
  intro m m'
  exact ⟨rfl, (Engine.blocks_erase_declared 1 0 m (by decide)).2.2.2.1 "x" (.block []) 1
    (.items [.int 7]) (.int 7) (.items []) m.toHost (by decide) rfl⟩

end ScriptLang
