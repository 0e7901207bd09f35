import ScriptLang.Proofs.Scope.Basic

/-!
# Changes of one scope

The scope of a program has none around it, and it is flat: blocks inside it share its names. A
change of such a scope is confined to some names if it leaves the others as they are, bound or not
and with their flags, and notes no others in the innermost block. A block keeps a change confined,
for it erases only names that were noted.
-/

namespace ScriptLang

variable {α : Type}

namespace Scopes

/-- Whether a scope binds a name read-only; `none` if it does not bind it. -/
def flag? (ss : Scopes α) (e : ScopeId) (x : String) : Option Bool :=
  ((ss.scope e).binding? x).map Prod.snd

theorem isSome_flag? (ss : Scopes α) (e : ScopeId) (x : String) :
    (ss.flag? e x).isSome = (ss.scope e).vars.has x := by
  rw [flag?, Option.isSome_map, Scope.isSome_binding?]

structure Outermost (e : ScopeId) (ss : Scopes α) : Prop where
  lt_size : e < ss.size
  ancestors : (ss.scope e).ancestors = []

/-- In scope `e`, only names among `D` are bound, unbound or given another flag, and only such names
are noted in the innermost block. -/
structure Confined (e : ScopeId) (D : List String) (ss ss' : Scopes α) : Prop where
  size : ss'.size = ss.size
  ancestors : (ss'.scope e).ancestors = (ss.scope e).ancestors
  flags : ∀ x ∉ D, ss'.flag? e x = ss.flag? e x
  blocks : ∃ names ⊆ D, (ss'.scope e).blocks = (ss.scope e).blocks.modifyHead (· ++ names)

variable {e : ScopeId} {D D' : List String} {x : String} {ss ss' ss'' : Scopes α}

/-- A confined change leaves an outermost scope outermost. -/
theorem Confined.outermost (h : Confined e D ss ss') (hss : Outermost e ss) : Outermost e ss' :=
  ⟨h.size ▸ hss.lt_size, h.ancestors.trans hss.ancestors⟩

namespace Confined

theorem refl (e : ScopeId) (D : List String) (ss : Scopes α) : Confined e D ss ss :=
  ⟨rfl, rfl, fun _ _ => rfl, [], List.nil_subset D, (Scope.modifyHead_append_nil _).symm⟩

theorem trans (h : Confined e D ss ss') (h' : Confined e D ss' ss'') : Confined e D ss ss'' := by
  obtain ⟨names, hnames, hblocks⟩ := h.blocks
  obtain ⟨more, hmore, hblocks'⟩ := h'.blocks
  refine ⟨h'.size.trans h.size, h'.ancestors.trans h.ancestors,
    fun x hx => (h'.flags x hx).trans (h.flags x hx), names ++ more,
    List.append_subset.2 ⟨hnames, hmore⟩, ?_⟩
  rw [hblocks', hblocks]
  cases (ss.scope e).blocks <;> simp

theorem mono (h : Confined e D ss ss') (hD : D ⊆ D') : Confined e D' ss ss' := by
  obtain ⟨names, hnames, hblocks⟩ := h.blocks
  exact ⟨h.size, h.ancestors, fun x hx => h.flags x fun hmem => hx (hD hmem), names,
    List.Subset.trans hnames hD, hblocks⟩

/-- What happens in a block of the scope touches the same names and notes none. -/
theorem block (he : e < ss.size) (h : Confined e D (ss.pushBlock e) ss') :
    Confined e D ss (ss'.popBlock e) := by
  obtain ⟨names, hnames, hblocks⟩ := h.blocks
  have hsize : ss'.size = ss.size := h.size.trans (size_pushBlock ss e)
  have hpush : (ss.pushBlock e).scope e = (ss.scope e).pushBlock := by
    rw [pushBlock, scope_update, if_pos ⟨rfl, he⟩]
  have hpop : (ss'.popBlock e).scope e = (ss'.scope e).popBlock := by
    rw [popBlock, scope_update, if_pos ⟨rfl, hsize ▸ he⟩]
  rw [hpush] at hblocks
  have hopen : (ss'.scope e).blocks = names :: (ss.scope e).blocks := hblocks
  refine ⟨(size_popBlock ss' e).trans hsize, ?_, fun x hx => ?_, [], List.nil_subset D, ?_⟩
  · rw [hpop, Scope.ancestors_popBlock, h.ancestors, hpush]
    rfl
  · have hkept : ss'.flag? e x = ((ss.scope e).pushBlock.binding? x).map Prod.snd := by
      rw [h.flags x hx, flag?, hpush]
    rw [flag?, hpop, Scope.binding?_popBlock, hopen, List.headD_cons,
      if_neg fun hmem => hx (hnames hmem)]
    exact hkept
  · rw [hpop, Scope.blocks_popBlock, hopen, Scope.modifyHead_append_nil]
    rfl

/-- A change of the scope itself. -/
theorem update {f : Scope α → Scope α}
    (hancestors : (f (ss.scope e)).ancestors = (ss.scope e).ancestors)
    (hflags : ∀ x ∉ D, ((f (ss.scope e)).binding? x).map Prod.snd = ss.flag? e x)
    (hblocks : ∃ names ⊆ D,
      (f (ss.scope e)).blocks = (ss.scope e).blocks.modifyHead (· ++ names)) :
    Confined e D ss (ss.update e f) := by
  by_cases he : e < ss.size
  · have hscope : (ss.update e f).scope e = f (ss.scope e) := by
      rw [scope_update, if_pos ⟨rfl, he⟩]
    refine ⟨size_update .., by rw [hscope, hancestors], fun x hx => ?_, by rwa [hscope]⟩
    rw [flag?, hscope, hflags x hx]
  · have hscope : (ss.update e f).scope e = ss.scope e := by
      rw [scope_update, if_neg fun h => he h.2]
    have hnone := (refl e D ss).blocks
    refine ⟨size_update .., by rw [hscope], fun x hx => ?_, by rwa [hscope]⟩
    rw [flag?, hscope, flag?]

theorem unset (ss : Scopes α) (e : ScopeId) (x : String) : Confined e [x] ss (ss.unset e x) := by
  refine .update rfl (fun y hy => ?_) ⟨[], List.nil_subset _, ?_⟩
  · have hne : x ≠ y := fun h => hy (by simp [h])
    rw [Scope.binding?_unset, if_neg hne, flag?]
  · exact (Scope.modifyHead_append_nil _).symm

theorem bind (ss : Scopes α) (e : ScopeId) (x : String) (v : α) (readOnly noted : Bool) :
    Confined e [x] ss (ss.update e fun s => s.bind x v readOnly noted) := by
  refine .update (by rw [Scope.bind_eq]) (fun y hy => ?_) ⟨if noted then [x] else [], ?_, ?_⟩
  · have hne : x ≠ y := fun h => hy (by simp [h])
    rw [Scope.binding?_bind, if_neg hne, flag?]
  · split <;> simp
  · rw [Scope.bind_eq]

/-- Giving a bound name another value changes no flag. -/
theorem assign (hx : (ss.flag? e x).isSome) (v : α) :
    Confined e D ss (ss.update e fun s => s.assign x v) := by
  refine .update rfl (fun y hy => ?_) ⟨[], List.nil_subset _, ?_⟩
  · rw [Scope.binding?_assign]
    split
    · next h =>
      subst h
      unfold flag? Scope.binding? at hx ⊢
      cases hvalue : (ss.scope e).vars.get? x with
      | none => simp [hvalue] at hx
      | some _ => rfl
    · rfl
  · exact (Scope.modifyHead_append_nil _).symm

end Confined

namespace Outermost

theorem chain (h : Outermost e ss) : ss.chain e = [e] := by
  rw [Scopes.chain, h.ancestors]

theorem root (h : Outermost e ss) : ss.root e = e := by
  rw [Scopes.root, h.ancestors]
  rfl

theorem home (h : Outermost e ss) (x : String) : ss.home e x = e := by
  rw [Scopes.home, h.root, ite_self]

/-- In an outermost scope a name is found in the scope or nowhere. -/
theorem holder? (h : Outermost e ss) (x : String) :
    ss.holder? e x = if (ss.flag? e x).isSome then some e else none := by
  rw [Scopes.holder?, h.chain, isSome_flag?]
  cases hx : (ss.scope e).vars.has x <;> simp [hx]

theorem isSome_get? (h : Outermost e ss) (x : String) :
    (ss.get? e x).isSome = (ss.flag? e x).isSome := by
  rw [Scopes.get?, h.chain, isSome_flag?, Table.has]
  cases hx : (ss.scope e).vars.get? x <;> simp [hx]

theorem isReadOnly_eq (h : Outermost e ss) {readOnly : Bool} (hx : ss.flag? e x = some readOnly) :
    ss.isReadOnly e x = readOnly := by
  have hbound : (ss.flag? e x).isSome := by rw [hx]; rfl
  rw [Scopes.isReadOnly, h.holder?, if_pos hbound]
  obtain ⟨⟨v, _⟩, hbinding, rfl⟩ := Option.map_eq_some_iff.1 hx
  obtain ⟨_, -, hpair⟩ := Option.map_eq_some_iff.1 hbinding
  exact congrArg Prod.snd hpair

/-- However a name is declared, it is bound in the outermost scope itself. -/
theorem exists_declare_eq (h : Outermost e ss) (x : String) (v : α)
    (readOnly forceGlobal forceLocal : Bool) :
    ∃ noted, ss.declare e x v readOnly forceGlobal forceLocal =
      ss.update e fun s => s.bind x v readOnly noted := by
  rw [declare]
  split_ifs
  · exact ⟨false, by rw [h.root]⟩
  · exact ⟨true, rfl⟩
  · exact ⟨true, by rw [bindHome, h.home, beq_self_eq_true]⟩

/-- A declaration is confined to its name. -/
theorem confined_declare (h : Outermost e ss) (x : String) (v : α)
    (readOnly forceGlobal forceLocal : Bool) :
    Confined e [x] ss (ss.declare e x v readOnly forceGlobal forceLocal) := by
  obtain ⟨noted, heq⟩ := h.exists_declare_eq x v readOnly forceGlobal forceLocal
  rw [heq]
  exact .bind ..

/-- A declared name has the flag that it was declared with. -/
theorem flag?_declare (h : Outermost e ss) (x : String) (v : α)
    (readOnly forceGlobal forceLocal : Bool) :
    (ss.declare e x v readOnly forceGlobal forceLocal).flag? e x = some readOnly := by
  obtain ⟨noted, heq⟩ := h.exists_declare_eq x v readOnly forceGlobal forceLocal
  rw [heq, flag?, scope_update, if_pos ⟨rfl, h.lt_size⟩, Scope.binding?_bind, if_pos rfl]
  rfl

/-- An assignment to a bound name changes no flag and no block. -/
theorem confined_assign (h : Outermost e ss) (hx : (ss.flag? e x).isSome) (v : α) :
    Confined e D ss (ss.assign e x v) := by
  rw [Scopes.assign, h.holder?, if_pos hx]
  exact .assign hx v

end Outermost

end Scopes

end ScriptLang
