import ScriptLang.Proofs.Scope.Basic

/-!
# How scopes change

`Scopes.Evolves` lists what a computation can do to the scopes: make scopes, bind, assign and unset
names, note intents, and do all of this inside a block, which ends at last. It is a closed list, so
that a property of all computations is an induction over it.

The first such property is the discipline of blocks: when a computation is over, every scope has the
blocks open that it had before, and only the innermost of them may hold more names.
-/

namespace ScriptLang

variable {α : Type}

namespace Scopes

/-- The changes of the scopes that computations are made of. -/
inductive Evolves : Scopes α → Scopes α → Prop where
  | refl (ss : Scopes α) : Evolves ss ss
  | trans {a b c : Scopes α} : Evolves a b → Evolves b c → Evolves a c
  | new (ss : Scopes α) (parent : Option ScopeId) : Evolves ss (ss.new parent).2
  | declare (ss : Scopes α) (e : ScopeId) (name : String) (value : α)
      (readOnly forceGlobal forceLocal : Bool) :
      Evolves ss (ss.declare e name value readOnly forceGlobal forceLocal)
  | assign (ss : Scopes α) (e : ScopeId) (name : String) (value : α) :
      Evolves ss (ss.assign e name value)
  | unset (ss : Scopes α) (e : ScopeId) (name : String) : Evolves ss (ss.unset e name)
  | setIntent (ss : Scopes α) (e : ScopeId) (name kind : String) :
      Evolves ss (ss.setIntent e name kind)
  /-- A block is open while the scopes change, and then it ends. -/
  | block {ss ss' : Scopes α} (e : ScopeId) :
      Evolves (ss.pushBlock e) ss' → Evolves ss (ss'.popBlock e)

instance : IsPreorder (Scopes α) Evolves where
  refl := Evolves.refl
  trans _ _ _ := Evolves.trans

attribute [grind .] Evolves.refl Evolves.new Evolves.declare Evolves.assign Evolves.unset
  Evolves.setIntent

/-- Every scope is still there, with the same blocks open; the innermost one may hold more names. -/
def BlocksKept (ss ss' : Scopes α) : Prop :=
  ss.size ≤ ss'.size ∧
    ∀ i, ∃ names, (ss'.scope i).blocks = (ss.scope i).blocks.modifyHead (· ++ names)

namespace BlocksKept

theorem refl (ss : Scopes α) : BlocksKept ss ss := by
  refine ⟨Nat.le_refl _, fun i => ⟨[], ?_⟩⟩
  cases (ss.scope i).blocks <;> simp

theorem trans {a b c : Scopes α} (h : BlocksKept a b) (g : BlocksKept b c) : BlocksKept a c := by
  refine ⟨Nat.le_trans h.1 g.1, fun i => ?_⟩
  obtain ⟨names, hn⟩ := h.2 i
  obtain ⟨more, hm⟩ := g.2 i
  refine ⟨names ++ more, ?_⟩
  rw [hm, hn]
  cases (a.scope i).blocks <;> simp

/-- A scope that has a block open still has one. -/
theorem ne_nil {ss ss' : Scopes α} (h : BlocksKept ss ss') {e : ScopeId}
    (hopen : (ss.scope e).blocks ≠ []) : (ss'.scope e).blocks ≠ [] := by
  obtain ⟨names, hblocks⟩ := h.2 e
  rw [hblocks]
  cases hss : (ss.scope e).blocks with
  | nil => exact absurd hss hopen
  | cons block rest => simp

/-- A change of one scope that only notes names keeps the blocks. -/
theorem update (ss : Scopes α) (e : ScopeId) {f : Scope α → Scope α} (names : List String)
    (hf : ∀ s, (f s).blocks = s.blocks.modifyHead (· ++ names)) :
    BlocksKept ss (ss.update e f) := by
  refine ⟨by simp, fun i => ?_⟩
  rw [scope_update]
  split
  · exact ⟨names, hf _⟩
  · exact (refl ss).2 i

/-- A change that does not concern blocks keeps them. -/
theorem update_of_blocks_eq (ss : Scopes α) (e : ScopeId) {f : Scope α → Scope α}
    (hf : ∀ s, (f s).blocks = s.blocks) : BlocksKept ss (ss.update e f) :=
  update ss e [] fun s => by rw [hf]; cases s.blocks <;> simp

/-- Binding a name may add it to the innermost block. -/
theorem bind (ss : Scopes α) (e : ScopeId) (name : String) (value : α) (readOnly noted : Bool) :
    BlocksKept ss (ss.update e fun s => s.bind name value readOnly noted) :=
  update ss e _ fun s => by rw [s.bind_eq]

theorem new (ss : Scopes α) (parent : Option ScopeId) : BlocksKept ss (ss.new parent).2 := by
  refine ⟨by simp, fun i => ?_⟩
  rw [scope_new]
  split
  · next hi => exact ⟨[], by rw [scope_of_size_le (Nat.le_of_eq hi.symm)]; rfl⟩
  · exact (refl ss).2 i

theorem declare (ss : Scopes α) (e : ScopeId) (name : String) (value : α)
    (readOnly forceGlobal forceLocal : Bool) :
    BlocksKept ss (ss.declare e name value readOnly forceGlobal forceLocal) := by
  unfold Scopes.declare bindHome
  split_ifs <;> exact bind ..

theorem assign (ss : Scopes α) (e : ScopeId) (name : String) (value : α) :
    BlocksKept ss (ss.assign e name value) := by
  unfold Scopes.assign bindHome
  split
  · exact update_of_blocks_eq ss _ fun _ => rfl
  · exact bind ..

/-- Opening a block, a change that keeps the blocks, and closing the block keep the blocks: what is
closed is what was opened. -/
theorem block {ss ss' : Scopes α} (e : ScopeId) (h : BlocksKept (ss.pushBlock e) ss') :
    BlocksKept ss (ss'.popBlock e) := by
  have hsize : ss.size ≤ ss'.size := by simpa [pushBlock] using h.1
  refine ⟨by simpa [popBlock] using hsize, fun i => ?_⟩
  obtain ⟨names, hn⟩ := h.2 i
  rw [pushBlock, scope_update] at hn
  rw [popBlock, scope_update]
  by_cases hi : i = e ∧ i < ss.size
  · -- the scope of the block: its new innermost block is gone, with all its names
    rw [if_pos hi] at hn
    rw [if_pos ⟨hi.1, Nat.lt_of_lt_of_le hi.2 hsize⟩, Scope.blocks_popBlock, hn]
    exact (refl ss).2 i
  · rw [if_neg hi] at hn
    split
    · -- a scope that was not there when the block was opened has no block to close
      next hi' =>
        have hb : (ss.scope i).blocks = [] := by
          rw [scope_of_size_le (Nat.le_of_not_lt fun hlt => hi ⟨hi'.1, hlt⟩)]
        rw [Scope.blocks_popBlock, hn, hb]
        exact ⟨[], rfl⟩
    · exact ⟨names, hn⟩

end BlocksKept

/-- However scopes change, their blocks are kept. -/
theorem Evolves.blocksKept {ss ss' : Scopes α} (h : Evolves ss ss') : BlocksKept ss ss' := by
  induction h with
  | refl ss => exact .refl ss
  | trans _ _ ih ih' => exact ih.trans ih'
  | new ss parent => exact .new ss parent
  | declare ss e name value readOnly forceGlobal forceLocal =>
    exact .declare ss e name value readOnly forceGlobal forceLocal
  | assign ss e name value => exact .assign ss e name value
  | unset ss e name => exact .update_of_blocks_eq ss e fun _ => rfl
  | setIntent ss e name kind => exact .update_of_blocks_eq ss e fun _ => rfl
  | block e _ ih => exact ih.block e

end Scopes

end ScriptLang
