import Mathlib.Order.Defs.Unbundled
import ScriptLang.Machine

/-!
# Running computations

What the ways of putting computations together do to a machine, as equations between runs. A
computation respects a relation between scopes if it relates the scopes before and after every run,
whatever the outcome. The ways of putting computations together keep this if the relation is a
preorder, and a computation on the host has it, for it cannot reach the scopes.
-/

namespace ScriptLang

variable {α β : Type}

def Grows (xs ys : Array α) : Prop := ∀ (i : Nat) (a : α), xs[i]? = some a → ys[i]? = some a

namespace Grows

theorem refl (xs : Array α) : Grows xs xs := fun _ _ h => h

theorem trans {xs ys zs : Array α} (h : Grows xs ys) (h' : Grows ys zs) : Grows xs zs :=
  fun i a ha => h' i a (h i a ha)

theorem push (xs : Array α) (a : α) : Grows xs (xs.push a) := by
  intro i b hb
  obtain ⟨hi, -⟩ := Array.getElem?_eq_some_iff.1 hb
  rw [Array.getElem?_push_lt hi, ← hb, Array.getElem?_eq_getElem hi]

end Grows

/-- In a sequence the second computation runs if the first one gives a result, on the state that it
leaves. -/
theorem run_bind_state {ε σ : Type} (x : ExceptT ε (StateM σ) α) (f : α → ExceptT ε (StateM σ) β)
    (s : σ) : (x >>= f).run s = match x.run s with
      | (.ok a, s') => (f a).run s'
      | (.error e, s') => (.error e, s') := by
  change (ExceptT.bindCont f (x.run s).1).run (x.run s).2 = _
  rcases x.run s with ⟨_ | _, _⟩ <;> rfl

namespace Exec

theorem run_get (m : Machine) : (get : Exec Machine).run m = (.ok m, m) := rfl

/-- A sequence: what the first part ends with, or the second one from there. -/
theorem run_bind (x : Exec α) (f : α → Exec β) (m : Machine) :
    (x >>= f).run m = match x.run m with
      | (.ok a, m') => (f a).run m'
      | (.error s, m') => (.error s, m') := by
  rw [run_bind_state]
  rcases x.run m with ⟨_ | _, _⟩ <;> rfl

/-- A sequence of two computations gives a result if both do. -/
theorem run_bind_eq_ok {x : Exec α} {f : α → Exec β} {m m' : Machine} {b : β} :
    (x >>= f).run m = (.ok b, m') ↔
      ∃ a m₁, x.run m = (.ok a, m₁) ∧ (f a).run m₁ = (.ok b, m') := by
  rw [run_bind]
  rcases x.run m with ⟨s | a, m₁⟩
  · exact ⟨fun h => (by cases h), fun ⟨_, _, h, _⟩ => (by cases h)⟩
  · exact ⟨fun h => ⟨a, m₁, rfl, h⟩, fun ⟨_, _, h, hf⟩ => (by cases h; exact hf)⟩

/-- A sequence of two computations fails if the first does, or the second after the first. -/
theorem run_bind_eq_error {x : Exec α} {f : α → Exec β} {m m' : Machine} {s : Signal} :
    (x >>= f).run m = (.error s, m') ↔
      x.run m = (.error s, m') ∨ ∃ a m₁, x.run m = (.ok a, m₁) ∧ (f a).run m₁ = (.error s, m') := by
  rw [run_bind]
  rcases x.run m with ⟨s' | a, m₁⟩
  · refine ⟨fun h => .inl (by cases h; rfl), ?_⟩
    rintro (h | ⟨_, _, h, _⟩) <;> cases h
    rfl
  · refine ⟨fun h => .inr ⟨a, m₁, rfl, h⟩, ?_⟩
    rintro (h | ⟨_, _, h, hf⟩) <;> cases h
    exact hf

/-- A sequence on the host gives a result only if both computations do. -/
theorem run_hostBind_eq_ok {x : HostExec α} {f : α → HostExec β} {host host' : Host} {b : β}
    (h : (x >>= f).run host = (.ok b, host')) :
    ∃ a host₁, x.run host = (.ok a, host₁) ∧ (f a).run host₁ = (.ok b, host') := by
  change (ExceptT.bindCont f (x.run host).1).run (x.run host).2 = _ at h
  rcases hx : x.run host with ⟨s | a, host₁⟩ <;> rw [hx] at h
  · cases h
  · exact ⟨a, host₁, rfl, h⟩

/-- A computation on the host runs on the host of the machine, and shows the line that it ends
with. -/
theorem run_host (x : HostExec α) (m : Machine) :
    (liftM x : Exec α).run m = ((x.run m.toHost).1.mapError Halt.signal,
      { m with toHost := (x.run m.toHost).2.showing (x.run m.toHost).1 }) := rfl

/-- A result on the machine is a result on its host. -/
theorem run_host_eq_ok {x : HostExec α} {m m' : Machine} {a : α}
    (h : (liftM x : Exec α).run m = (.ok a, m')) :
    x.run m.toHost = (.ok a, m'.toHost) ∧ m'.scopes = m.scopes := by
  rw [run_host] at h
  rcases hx : x.run m.toHost with ⟨_ | _, host⟩ <;> rw [hx] at h <;> cases h
  exact ⟨rfl, rfl⟩

theorem run_host_of_ok {x : HostExec α} {m : Machine} {host : Host} {a : α}
    (h : x.run m.toHost = (.ok a, host)) :
    (liftM x : Exec α).run m = (.ok a, { m with toHost := host }) := by
  rw [run_host, h]
  rfl

/-- A computation on the host changes nothing else about the machine. -/
theorem exists_run_host_eq_ok {x : HostExec α} {m m' : Machine} {a : α}
    (h : (liftM x : Exec α).run m = (.ok a, m')) :
    ∃ host, x.run m.toHost = (.ok a, host) ∧ m' = { m with toHost := host } := by
  rw [run_host] at h
  rcases hx : x.run m.toHost with ⟨_ | _, host⟩ <;> rw [hx] at h <;> cases h
  exact ⟨host, rfl, rfl⟩

/-- Sequences run alike if their parts do where they are run. -/
theorem run_bind_congr {x y : Exec α} {f k : α → Exec β} {m : Machine} (hx : x.run m = y.run m)
    (hf : ∀ a m', y.run m = (.ok a, m') → (f a).run m' = (k a).run m') :
    (x >>= f).run m = (y >>= k).run m := by
  rw [run_bind, run_bind, hx]
  rcases h : y.run m with ⟨_ | a, m'⟩
  · rfl
  · exact hf a m' h

theorem run_tryCatch (x : Exec α) (f : Signal → Exec α) (m : Machine) :
    (tryCatch x f : Exec α).run m = match x.run m with
      | (.ok a, m') => (.ok a, m')
      | (.error s, m') => (f s).run m' := by
  change (ExceptT.tryCatch x f).run m = _
  rcases h : x.run m with ⟨_ | _, _⟩
  · simp_all [ExceptT.tryCatch, ExceptT.run, ExceptT.mk, bind, StateT.bind]
  · simp_all [ExceptT.tryCatch, ExceptT.run, ExceptT.mk, bind, StateT.bind]
    rfl

theorem run_modifyScopes (f : Scopes Value → Scopes Value) (m : Machine) :
    (modifyScopes f).run m = (.ok (), { m with scopes := f m.scopes }) := rfl

theorem run_newScope (parent : Option ScopeId) (m : Machine) :
    (newScope parent).run m =
      (.ok m.scopes.size, { m with scopes := (m.scopes.new parent).2 }) := rfl

theorem run_assignName {e : ScopeId} {name : String} {v : Value} {m : Machine}
    (h : m.scopes.isReadOnly e name = false) :
    (assignName e name v).run m = (.ok (), { m with scopes := m.scopes.assign e name v }) := by
  rw [assignName, run_bind, run_get]
  simp only [h, Bool.false_eq_true, if_false]
  rfl

/-- A notice after which the computation goes on has changed nothing. -/
theorem run_report_eq_ok {n : Notice} {host host' : Host} {u : Unit}
    (h : (report n).run host = (.ok u, host')) : host' = host := by
  change (if !host.isQuiet then throw _ else pure _ : HostExec Unit).run host = _ at h
  split at h <;> cases h
  rfl

/-- A name that was assigned has the value, read-only or not. -/
theorem run_assignName_eq_ok {e : ScopeId} {name : String} {v : Value} {m m' : Machine} {u : Unit}
    (h : (assignName e name v).run m = (.ok u, m')) :
    m' = { m with scopes := m.scopes.assign e name v } := by
  rw [assignName, run_bind, run_get] at h
  dsimp only at h
  split at h
  · obtain ⟨_, m₁, hreport, h⟩ := run_bind_eq_ok.1 h
    obtain ⟨host, hhost, rfl⟩ := exists_run_host_eq_ok hreport
    cases run_report_eq_ok hhost
    cases h
    rfl
  · cases h
    rfl

/-- A block is opened before the computation and ended after it, whatever the outcome is. -/
theorem run_inBlock (e : ScopeId) (x : Exec α) (m : Machine) :
    (inBlock e x).run m =
      ((x.run { m with scopes := m.scopes.pushBlock e }).1,
        { (x.run { m with scopes := m.scopes.pushBlock e }).2 with
          scopes := (x.run { m with scopes := m.scopes.pushBlock e }).2.scopes.popBlock e }) := rfl

/-! ### What happens to the scopes -/

/-- Whatever the outcome, the scopes before and after are related. -/
def Respects (R : Scopes Value → Scopes Value → Prop) (x : Exec α) : Prop :=
  ∀ m, R m.scopes (x.run m).2.scopes

variable {R : Scopes Value → Scopes Value → Prop} [IsPreorder (Scopes Value) R]

namespace Respects

@[grind .]
theorem pure (a : α) : Respects R (pure a : Exec α) := fun m => refl m.scopes

@[grind .]
theorem throw (s : Signal) : Respects R (throw s : Exec α) := fun m => refl m.scopes

@[grind .]
theorem get : Respects R (get : Exec Machine) := fun m => refl m.scopes

@[grind .]
theorem host (x : HostExec α) : Respects R (liftM x : Exec α) := fun m => refl m.scopes

omit [IsPreorder (Scopes Value) R] in
theorem modify {f : Machine → Machine} (hf : ∀ m, R m.scopes (f m).scopes) :
    Respects R (modify f : Exec PUnit) := hf

@[grind .]
theorem bind {x : Exec α} {f : α → Exec β} (hx : Respects R x) (hf : ∀ a, Respects R (f a)) :
    Respects R (x >>= f) := by
  intro m
  rw [run_bind]
  have h := hx m
  rcases hrun : x.run m with ⟨s | a, m'⟩ <;> rw [hrun] at h
  · exact h
  · exact IsTrans.trans _ _ _ h (hf a m')

@[grind .]
theorem map (f : α → β) {x : Exec α} (hx : Respects R x) : Respects R (f <$> x) := by
  rw [map_eq_pure_bind]
  exact hx.bind fun a => pure (f a)

@[grind .]
theorem tryCatch {x : Exec α} {f : Signal → Exec α} (hx : Respects R x)
    (hf : ∀ s, Respects R (f s)) : Respects R (tryCatch x f : Exec α) := by
  intro m
  rw [run_tryCatch]
  have h := hx m
  revert h
  rcases x.run m with ⟨s | a, m'⟩ <;> intro h
  · exact IsTrans.trans _ _ _ h (hf s m')
  · exact h

end Respects

omit [IsPreorder (Scopes Value) R] in
@[grind .]
theorem respects_modifyScopes {f : Scopes Value → Scopes Value} (hf : ∀ ss, R ss (f ss)) :
    Respects R (modifyScopes f) := fun m => hf m.scopes

theorem respects_assignName {e : ScopeId} {name : String} {v : Value}
    (h : ∀ ss : Scopes Value, R ss (ss.assign e name v)) : Respects R (assignName e name v) := by
  refine .bind .get fun m => ?_
  dsimp only
  split
  · exact .bind (.host _) fun _ => respects_modifyScopes h
  · exact respects_modifyScopes h

end Exec

end ScriptLang
