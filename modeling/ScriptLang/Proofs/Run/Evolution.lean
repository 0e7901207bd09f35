import ScriptLang.Proofs.Run.Discipline

/-!
# Computations and the scopes

A computation is evolving if all it does to the scopes is a `Scopes.Evolves` change, from every
machine and with every outcome. This is a discipline, under which computations may end with any
signal.
-/

namespace ScriptLang

open Scopes (Evolves)

variable {α β : Type}

namespace Exec

abbrev Evolving (x : Exec α) : Prop := Respects Evolves x

/-! ### Names and blocks -/

@[grind .]
theorem evolving_inScope (e : ScopeId) : Evolving (inScope e) := fun _ => .refl _

@[grind .]
theorem evolving_newScope (parent : Option ScopeId) : Evolving (newScope parent) :=
  fun _ => .new _ _

@[grind .]
theorem evolving_assignName (e : ScopeId) (name : String) (v : Value) :
    Evolving (assignName e name v) := respects_assignName fun ss => .assign ss e name v

/-- A block of an evolving computation ends, whatever the outcome is. -/
@[grind .]
theorem evolving_inBlock (e : ScopeId) {x : Exec α} (hx : Evolving x) : Evolving (inBlock e x) :=
  fun m => (hx { m with scopes := m.scopes.pushBlock e }).block e

end Exec

/-! ### Engines -/

def FreeDiscipline.evolving : FreeDiscipline where
  Rel x _ := Exec.Evolving x
  pure := .pure
  get := .get
  host := .host
  bind := .bind
  assignName := Exec.evolving_assignName
  Allowed _ := True
  allowed _ := trivial
  throw _ := .throw _
  tryCatch hx hf _ := .tryCatch hx fun s => hf s trivial
  modifyScopes := Exec.respects_modifyScopes
  newScope := Exec.evolving_newScope
  inScope := Exec.evolving_inScope
  inBlock e _ _ hx := Exec.evolving_inBlock e hx
  setRoot _ := .modify fun _ => .refl _
  passTyped := .modify fun _ => .refl _
  allows _ := trivial
  newCode _ := fun _ => .refl _

structure Engine.Evolving (g : Engine) : Prop where
  execute : ∀ node e, (g.execute node e).Evolving
  evaluate : ∀ node e, (g.evaluate node e).Evolving
  apply : ∀ f pos named, (g.apply f pos named).Evolving

attribute [grind .] Engine.Evolving.execute Engine.Evolving.evaluate Engine.Evolving.apply

theorem Engine.Evolving.governsAll {g : Engine} (hg : g.Evolving) :
    FreeDiscipline.evolving.GovernsAll g g := ⟨hg.execute, hg.evaluate, hg.apply, rfl⟩

namespace Exec

variable {g : Engine}

@[grind .]
theorem evolving_executeAll (hg : g.Evolving) (e : ScopeId) (nodes : List Node) :
    Evolving (g.executeAll e nodes) := rel_executeBody hg.governsAll nodes e

theorem evolving_forRound (hg : g.Evolving) (e : ScopeId) (binder : String) (body : Node)
    (v : Value) : Evolving (forRound g e binder body v) :=
  rel_forRound hg.governsAll e binder body v

end Exec

end ScriptLang
