import ScriptLang.Proofs.Run.Evaluate
import ScriptLang.Proofs.Scope.Evolution

/-!
# Where declarations bind

An expression without calls leaves the scopes alone, so all that the declaration `var x = e` does to
them is its own doing. It removes the nearest binding of the name before it binds the name in its
own scope. So it changes nothing else exactly if that binding is its own or there is none; otherwise
the name is lost in an enclosing scope.
-/

namespace ScriptLang

variable {α : Type}

namespace Scopes

/-- The two differ at most in what scope `e` binds `name` to, which its innermost block notes. -/
structure OnlyBinds (e : ScopeId) (name : String) (ss ss' : Scopes α) : Prop where
  size : ss'.size = ss.size
  others : ∀ i ≠ e, ss'.scope i = ss.scope i
  own : ∀ other ≠ name, (ss'.scope e).binding? other = (ss.scope e).binding? other
  intents : (ss'.scope e).intents = (ss.scope e).intents
  ancestors : (ss'.scope e).ancestors = (ss.scope e).ancestors
  blocks : (ss'.scope e).blocks = (ss.scope e).blocks.modifyHead (· ++ [name])

def dropNearest (ss : Scopes α) (e : ScopeId) (name : String) : Scopes α :=
  match ss.holder? e name with
  | some h => ss.unset h name
  | none => ss

variable {ss ss' : Scopes α} {e h : ScopeId} {name : String}

theorem evolves_dropNearest (ss : Scopes α) (e : ScopeId) (name : String) :
    Evolves ss (ss.dropNearest e name) := by
  rw [dropNearest]
  split
  · exact .unset ..
  · exact .refl _

/-- Binding a name in a scope changes nothing else. -/
theorem onlyBinds_bind (he : e < ss.size) (value : α) (readOnly : Bool) :
    OnlyBinds e name ss (ss.update e fun s => s.bind name value readOnly true) where
  size := size_update ..
  others i hi := by rw [scope_update, if_neg fun h => hi h.1]
  own other hother := by simp [scope_update, he, hother.symm]
  intents := by simp [scope_update, he, Scope.bind_eq]
  ancestors := by simp [scope_update, he, Scope.bind_eq]
  blocks := by simp [scope_update, he, Scope.bind_eq]

/-- Removing the scope's own binding of the name first makes no difference. -/
theorem OnlyBinds.of_unset (h : OnlyBinds e name (ss.unset e name) ss') :
    OnlyBinds e name ss ss' := by
  have hown : (ss.unset e name).scope e =
      if e < ss.size then (ss.scope e).unset name else ss.scope e := by
    simp [unset, scope_update]
  refine ⟨h.size.trans (size_update ..), fun i hi => ?_, fun other hother => ?_, ?_, ?_, ?_⟩
  · rw [h.others i hi, unset, scope_update, if_neg fun h => hi h.1]
  · rw [h.own other hother, hown]
    split <;> simp [hother.symm]
  · rw [h.intents, hown]
    split <;> rfl
  · rw [h.ancestors, hown]
    split <;> rfl
  · rw [h.blocks, hown]
    split <;> rfl

/-- If what is removed first is the binding of another scope, more than the scope's own binding
changes. -/
theorem OnlyBinds.not_of_unset (hhas : (ss.scope h).vars.has name = true) (hne : h ≠ e)
    (hbinds : OnlyBinds e name (ss.unset h name) ss') : ¬ OnlyBinds e name ss ss' := by
  intro honly
  have hlost : ((ss.unset h name).scope h).binding? name = none := by
    simp [unset, scope_update, lt_size_of_has hhas]
  rw [← hbinds.others h hne, honly.others h hne] at hlost
  simp [← Scope.isSome_binding?, hlost] at hhas

/-- Declaring a name in a scope, after the nearest binding of it was removed, changes only what the
scope binds it to exactly if that binding was its own. -/
theorem onlyBinds_iff_of_dropNearest (h : OnlyBinds e name (ss.dropNearest e name) ss') :
    OnlyBinds e name ss ss' ↔ ∀ h, ss.holder? e name = some h → h = e := by
  rw [dropNearest] at h
  cases hholder : ss.holder? e name with
  | none =>
    rw [hholder] at h
    exact ⟨fun _ _ hnone => (nomatch hnone), fun _ => h⟩
  | some i =>
    rw [hholder] at h
    refine ⟨fun honly j hj => ?_, fun howns => ?_⟩
    · by_contra hne
      cases hj
      exact h.not_of_unset (has_of_holder? hholder) hne honly
    · rw [howns i rfl] at h
      exact h.of_unset

theorem intent?_dropNearest (ss : Scopes α) (e : ScopeId) (name : String) :
    (ss.dropNearest e name).intent? e name = ss.intent? e name := by
  rw [dropNearest]
  cases ss.holder? e name with
  | none => rfl
  | some h =>
    exact intent?_update (f := fun s => s.unset name) ss h (fun _ => rfl) (fun _ => rfl) e name

end Scopes

namespace Exec

open Scopes (OnlyBinds)

variable {e : ScopeId} {name : String} {b : Binding}

/-- A declaration that is meant for no other scope binds the name in its own scope, once the nearest
binding of the name is gone. -/
theorem run_redeclare (m : Machine) (v : Value) (hforce : b.forceGlobal = false)
    (hlocal : b.forceLocal = true ∨ m.scopes.intent? e name ≠ some "global") :
    (redeclare e name v b).run m = (.ok (), { m with
      scopes := (m.scopes.dropNearest e name).update e fun s =>
        s.bind name v b.readOnly true }) := by
  have htoRoot : (b.forceGlobal || (!b.forceLocal && m.scopes.intent? e name == some "global")) =
      false := by
    rcases hlocal with hlocal | hintent
    · simp [hforce, hlocal]
    · simp [hforce, hintent]
  have hdeclared :
      (m.scopes.dropNearest e name).declare e name v b.readOnly false
          (b.forceLocal || m.scopes.intent? e name == some "local") =
        (m.scopes.dropNearest e name).update e fun s => s.bind name v b.readOnly true := by
    rcases hlocal with hlocal | hintent
    · simp [Scopes.declare, hlocal]
    · rw [← Scopes.intent?_dropNearest] at hintent
      simp [Scopes.declare, Scopes.bindHome, Scopes.home, hintent]
  rw [redeclare, run_modifyScopes]
  simp only [htoRoot, Bool.false_eq_true, if_false]
  rw [← hdeclared]
  rfl

theorem intent?_of_redeclare {m m' : Machine} {v : Value} {u : Unit}
    (h : (redeclare e name v b).run m = (.ok u, m')) (i : ScopeId) (other : String) :
    m'.scopes.intent? i other = m.scopes.intent? i other := by
  rw [redeclare, run_modifyScopes] at h
  cases h
  dsimp only
  rw [Scopes.intent?_declare]
  split
  · exact Scopes.intent?_update (f := fun s => s.unset name) _ _ (fun _ => rfl) (fun _ => rfl) i
      other
  · rfl

/-- A value that is not of the declared type is reported. -/
theorem run_checkType (name type : String) (v : Value) (host : Host) :
    (checkType name type v).run host =
      if type != "auto" && !host.store.hasType v type then
        (report (.variableType name type (host.store.typeName v))).run host
      else (.ok (), host) := by
  have hget (f : Host → HostExec Unit) : (get >>= f).run host = (f host).run host := rfl
  have hname (f : String → HostExec Unit) :
      (typeName v >>= f).run host = (f (host.store.typeName v)).run host := rfl
  rw [checkType, hget]
  split
  · rw [hname]
  · rfl

theorem run_checkType_eq_ok {type : String} {v : Value} {host host' : Host} {u : Unit}
    (h : (checkType name type v).run host = (.ok u, host')) : host' = host := by
  rw [run_checkType] at h
  split at h
  · exact run_report_eq_ok h
  · cases h
    rfl

/-- A declaration that completes evaluates its expression and then declares the name; the name `_`
is not declared. -/
theorem run_declaration_cases {depth : Nat} {expr : Node} {m m' : Machine} {r : Value}
    (hdeclare : b.declare = true)
    (hrun : ((Engine.ofDepth (depth + 1)).execute (.assign (some name) expr .absent b) e).run m =
      (.ok r, m')) :
    ∃ v m₁, ((Engine.ofDepth depth).evaluate expr e).run { m with current := e } = (.ok v, m₁) ∧
      (name = "_" → m' = m₁) ∧
      (name ≠ "_" → (redeclare e name v b).run m₁ = (.ok (), m')) := by
  change (executeStep (.ofDepth depth) (.assign (some name) expr .absent b) e).run m = _ at hrun
  obtain ⟨_, _, hscope, hrun⟩ := run_bind_eq_ok.1 hrun
  cases hscope
  obtain ⟨_, _, h, hresult⟩ := run_bind_eq_ok.1 hrun
  cases hresult
  rw [executeAssign] at h
  obtain ⟨v, m₁, hvalue, h⟩ := run_bind_eq_ok.1 h
  refine ⟨v, m₁, hvalue, fun hname => ?_, fun hname => ?_⟩
  · rw [if_neg (by simp [hname, Node.isAbsent])] at h
    cases h
    rfl
  · rw [if_pos (by simp [hname]), if_pos hdeclare] at h
    obtain ⟨_, m₂, hcheck, h⟩ := run_bind_eq_ok.1 h
    rw [if_neg (by simp [Node.isAbsent]), if_pos hdeclare] at h
    obtain ⟨host, hhost, rfl⟩ := exists_run_host_eq_ok hcheck
    cases run_checkType_eq_ok hhost
    exact h

/-- A declaration without calls touches only its own scope exactly if its name is bound nowhere
around it. Let `var x = e` or `let x = e` complete in a scope where `x` is not meant to be global.
Then the scope binds `x` to the value of `e`, and apart from this binding the scopes are those
without the nearest binding of `x`. So nothing else has changed if and only if that binding was the
scope's own or there was none; the binding of an enclosing scope is lost. -/
theorem declaration_local_iff (depth : Nat) (name : String) (expr : Node) (b : Binding)
    (e : ScopeId) (m m' : Machine) (r : Value) (hdeclare : b.declare = true)
    (hforce : b.forceGlobal = false) (hintent : m.scopes.intent? e name ≠ some "global")
    (hexpr : expr.CallFree) (he : e < m.scopes.size)
    (hrun : ((Engine.ofDepth (depth + 1)).execute (.assign (some name) expr .absent b) e).run m =
      (.ok r, m')) :
    ∃ v m₁, ((Engine.ofDepth depth).evaluate expr e).run { m with current := e } = (.ok v, m₁) ∧
      (name = "_" → m'.scopes = m.scopes) ∧
      (name ≠ "_" →
        (m'.scopes.scope e).binding? name = some (v, b.readOnly) ∧
        OnlyBinds e name (m.scopes.dropNearest e name) m'.scopes ∧
        (OnlyBinds e name m.scopes m'.scopes ↔ ∀ h, m.scopes.holder? e name = some h → h = e)) := by
  obtain ⟨v, m₁, hvalue, hskip, hbind⟩ := run_declaration_cases hdeclare hrun
  have hm₁ : m₁.scopes = m.scopes := by
    have hkept : Respects Eq ((Engine.ofDepth depth).evaluate expr e) :=
      respects_evaluate_of_callFree depth hexpr e
    have := hkept { m with current := e }
    rw [hvalue] at this
    exact this.symm
  refine ⟨v, m₁, hvalue, fun hname => ?_, fun hname => ?_⟩
  · rw [hskip hname, hm₁]
  · have hredeclare := hbind hname
    rw [run_redeclare m₁ v hforce (.inr (hm₁ ▸ hintent)), hm₁] at hredeclare
    cases hredeclare
    have hsize : e < (m.scopes.dropNearest e name).size :=
      Nat.lt_of_lt_of_le he (m.scopes.evolves_dropNearest e name).blocksKept.1
    have hbinds : OnlyBinds e name _ _ := Scopes.onlyBinds_bind hsize v b.readOnly
    refine ⟨?_, hbinds, Scopes.onlyBinds_iff_of_dropNearest hbinds⟩
    simp [Scopes.scope_update, hsize]

/-- A function declares a variable that has the name of a global: the global is gone. -/
theorem declaration_local_iff_shadowing :
    let m : Machine := { scopes := #[{ vars := [("x", .int 1)], flags := [("x", false)] },
                                     { ancestors := [0] }] }
    let declaration : Node := .assign (some "x") (.number (.int 2)) .absent { declare := true }
    let m' := (((Engine.ofDepth 2).execute declaration 1).run m).2
    ¬ OnlyBinds 1 "x" m.scopes m'.scopes ∧ (m'.scopes.scope 0).binding? "x" = none := by
  intro m declaration m'
  have hrun : ((Engine.ofDepth 2).execute declaration 1).run m = (.ok .none, m') := rfl
  obtain ⟨v, m₁, -, -, hlocal⟩ := declaration_local_iff 1 "x" (.number (.int 2)) { declare := true }
    1 m m' .none rfl rfl (by decide) (.number _) (by decide) hrun
  obtain ⟨-, hbinds, hiff⟩ := hlocal (by decide)
  refine ⟨fun honly => absurd (hiff.1 honly 0 (by decide)) (by decide), ?_⟩
  rw [hbinds.others 0 (by decide)]
  rfl

end Exec

end ScriptLang
