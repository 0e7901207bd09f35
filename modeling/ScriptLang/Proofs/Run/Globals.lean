import ScriptLang.Proofs.Run.Discipline
import ScriptLang.Proofs.Scope.Confined
import ScriptLang.Run.Session

/-!
# The globals of a new interpreter

An interpreter starts with an empty outermost scope, in which its modules are then defined. These
only assign to names, so none of the globals is read-only.
-/

namespace ScriptLang

variable {α β : Type}

/-- The globals are in an outermost scope, and none of them is read-only. -/
structure Machine.GlobalsOpen (m : Machine) : Prop where
  outermost : m.scopes.Outermost m.root
  writable : ∀ x, (m.scopes.scope m.root).isReadOnly x = false

namespace Machine

def global? (m : Machine) (x : String) : Option Value := (m.scopes.scope m.root).vars.get? x

def globalNames (m : Machine) : List String := (m.scopes.scope m.root).vars.names

/-- A change of one scope that makes no name read-only keeps the globals open. -/
theorem GlobalsOpen.update {m : Machine} (hm : m.GlobalsOpen) (e : ScopeId)
    {f : Scope Value → Scope Value} (hancestors : ∀ s, (f s).ancestors = s.ancestors)
    (hflags : ∀ s x, s.isReadOnly x = false → (f s).isReadOnly x = false) :
    GlobalsOpen { m with scopes := m.scopes.update e f } := by
  refine ⟨⟨by simpa using hm.outermost.lt_size, ?_⟩, fun x => ?_⟩ <;>
    rw [Scopes.scope_update] <;> split
  · rw [hancestors, hm.outermost.ancestors]
  · exact hm.outermost.ancestors
  · exact hflags _ x (hm.writable x)
  · exact hm.writable x

/-- An assignment keeps the globals open. -/
theorem GlobalsOpen.assign {m : Machine} (hm : m.GlobalsOpen) (e : ScopeId) (x : String)
    (v : Value) : GlobalsOpen { m with scopes := m.scopes.assign e x v } := by
  unfold Scopes.assign
  split
  · exact hm.update _ (fun _ => rfl) fun _ _ h => h
  · refine hm.update _ (fun s => by rw [Scope.bind_eq]) fun s y hy => ?_
    rw [Scope.bind_eq, Scope.isReadOnly, Table.get?_set]
    split
    · rfl
    · exact hy

end Machine

namespace Exec

/-- Whatever the outcome, the globals are open afterwards if they were before. -/
def KeepsOpen (x : Exec α) : Prop := ∀ m : Machine, m.GlobalsOpen → (x.run m).2.GlobalsOpen

theorem KeepsOpen.host (x : HostExec α) : KeepsOpen (liftM x : Exec α) :=
  fun _ hm => ⟨hm.outermost, hm.writable⟩

theorem KeepsOpen.bind {x : Exec α} {f : α → Exec β} (hx : KeepsOpen x)
    (hf : ∀ a, KeepsOpen (f a)) : KeepsOpen (x >>= f) := by
  intro m hm
  have hm' := hx m hm
  rw [run_bind]
  revert hm'
  rcases x.run m with ⟨_ | a, m'⟩ <;> intro hm'
  · exact hm'
  · exact hf a m' hm'

theorem keepsOpen_assignName (e : ScopeId) (x : String) (v : Value) :
    KeepsOpen (assignName e x v) := by
  have hassign : KeepsOpen (modifyScopes fun ss => ss.assign e x v) := fun _ hm => hm.assign e x v
  refine .bind (fun _ hm => hm) fun m => ?_
  dsimp only
  split
  · exact .bind (.host _) fun _ => hassign
  · exact hassign

end Exec

def Discipline.keepingOpen : Discipline where
  Rel x _ := Exec.KeepsOpen x
  pure _ _ hm := hm
  get _ hm := hm
  host := .host
  bind := .bind
  assignName := Exec.keepsOpen_assignName

/-- The globals of an interpreter that has just been started are open. -/
theorem Exec.globalsOpen_startInterpreter (m : Machine) :
    (startInterpreter.run m).2.GlobalsOpen := by
  have hnew : Machine.GlobalsOpen
      { m with scopes := (m.scopes.new none).2, root := m.scopes.size } := by
    refine ⟨⟨by simp, ?_⟩, fun x => ?_⟩ <;> rw [Scopes.scope_new, if_pos rfl] <;> rfl
  have hset (r : ScopeId) (m : Machine) :
      (modify fun m => { m with root := r } : Exec PUnit).run m = (.ok ⟨⟩, { m with root := r }) :=
    rfl
  have hrestart : ((restart .default).run m).2.GlobalsOpen := by
    rw [restart, run_bind, run_newScope]
    dsimp only
    rw [run_bind, hset]
    exact holds_enable (D := .keepingOpen) .default _ hnew
  rw [startInterpreter, run_bind]
  revert hrestart
  rcases (restart .default).run m with ⟨_ | _, m'⟩ <;> intro hm'
  · exact hm'
  · exact ⟨hm'.outermost, hm'.writable⟩

end ScriptLang
