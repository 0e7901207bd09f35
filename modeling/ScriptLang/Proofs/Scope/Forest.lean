import ScriptLang.Proofs.Run.Notices
import ScriptLang.Proofs.Scope.Record

/-!
# Laws of the scopes as a store

A scope is made inside one that is there already, so the scopes form a forest. Whatever has been
made, declared, assigned, unset and opened and closed in it, each scope has a flag for exactly the
names that it binds, and encloses only scopes that came after it.

So an assignment is what one expects of a store. It is refused exactly if the nearest binding of the
name is read-only. Otherwise it writes one scope, and the name reads as the new value from all
scopes that find it there; nothing else reads differently from any scope.
-/

namespace ScriptLang

variable {α : Type}

namespace Scope

/-- The scope has flags for the names that it binds, in the same order. -/
def Aligned (s : Scope α) : Prop := s.vars.names = s.flags.names

namespace Aligned

variable {s : Scope α}

/-- A scope has flags for exactly the names that it binds. -/
theorem has_eq (h : s.Aligned) (name : String) : s.vars.has name = s.flags.has name := by
  rw [Bool.eq_iff_iff, Table.has_iff_mem_names, Table.has_iff_mem_names, h]

theorem bind (h : s.Aligned) (name : String) (value : α) (readOnly noted : Bool) :
    (s.bind name value readOnly noted).Aligned := by
  rw [bind_eq, Aligned, Table.names_set, Table.names_set, h.has_eq, h]

theorem assign (h : s.Aligned) {name : String} (hname : s.vars.has name = true) (value : α) :
    (s.assign name value).Aligned := by
  rw [Scope.assign, Aligned, Table.names_set, if_pos hname, h]

/-- A name is erased together with its flag. -/
theorem erase (h : s.Aligned) (name : String) : (s.erase name).Aligned := by
  rw [Scope.erase, Aligned, Table.names_erase, Table.names_erase, h]

theorem unset (h : s.Aligned) (name : String) : (s.unset name).Aligned := h.erase name

/-- What a block erases goes with its flags. -/
theorem popBlock (h : s.Aligned) : s.popBlock.Aligned := by
  unfold Scope.popBlock
  split
  · exact h
  · next block rest _ =>
      -- The names of the block are erased one after the other.
      have hfoldl (names : List String) : ∀ s : Scope α, s.Aligned →
          (names.foldl Scope.erase s).Aligned := by
        induction names with
        | nil => exact fun s hs => hs
        | cons name names ih => exact fun s hs => ih _ (hs.erase name)
      exact hfoldl block _ h

end Aligned

end Scope

namespace Scopes

variable {ss : Scopes α} {e t : ScopeId} {name : String} {v : α}

/-! ### The forest -/

def Step.InBounds (ss : Scopes α) : Step α → Prop
  | .new parent => ∀ p ∈ parent, p < ss.size
  | .declare e .. | .assign e .. | .unset e _ | .setIntent e .. => e < ss.size

/-- Only the making of a scope has no effect on one. -/
theorem Step.eq_new_of_effect? {c : Step α} (h : c.effect? ss = none) : ∃ p, c = .new p := by
  cases c with
  | new parent => exact ⟨parent, rfl⟩
  | declare e name value readOnly forceGlobal forceLocal =>
    cases forceGlobal <;> cases forceLocal <;> simp [effect?] at h
  | assign e name value => cases hholder : ss.holder? e name <;> simp [effect?, hholder] at h
  | unset e name => cases h
  | setIntent e name kind => cases h

/-- The scopes that come about when scopes are made one inside the other, and their names are
declared, assigned and unset and their blocks opened and closed in whatever order. -/
inductive Reachable : Scopes α → Prop
  | empty : Reachable #[]
  | step {ss : Scopes α} {c : Step α} (h : Reachable ss) (hc : c.InBounds ss) :
    Reachable (c.apply ss)
  | pushBlock {ss : Scopes α} {e : ScopeId} (h : Reachable ss) (he : e < ss.size) :
    Reachable (ss.pushBlock e)
  | popBlock {ss : Scopes α} {e : ScopeId} (h : Reachable ss) (he : e < ss.size) :
    Reachable (ss.popBlock e)

/-- What all changes of the scopes keep. -/
structure IsForest (ss : Scopes α) : Prop where
  aligned : ∀ e, (ss.scope e).Aligned
  older : ∀ {e i}, i ∈ (ss.scope e).ancestors → i < e

namespace IsForest

/-- The scopes around a scope are there. -/
theorem lt_size (h : ss.IsForest) {i : ScopeId} (hi : i ∈ (ss.scope e).ancestors) :
    i < ss.size := by
  by_cases he : e < ss.size
  · exact Nat.lt_trans (h.older hi) he
  · rw [scope_of_size_le (Nat.le_of_not_lt he)] at hi
    exact absurd hi List.not_mem_nil

theorem new (h : ss.IsForest) {parent : Option ScopeId} (hparent : ∀ p ∈ parent, p < ss.size) :
    (ss.new parent).2.IsForest where
  aligned e := by
    rw [scope_new]
    split
    · rfl
    · exact h.aligned e
  older {e i} hi := by
    rw [scope_new] at hi
    split at hi
    · next he =>
        subst he
        cases parent with
        | none => exact absurd hi List.not_mem_nil
        | some p =>
          obtain rfl | hi := List.mem_cons.1 hi
          · exact hparent _ rfl
          · exact h.lt_size hi
    · exact h.older hi

theorem update (h : ss.IsForest) {f : Scope α → Scope α} (haligned : (f (ss.scope t)).Aligned)
    (hancestors : (f (ss.scope t)).ancestors = (ss.scope t).ancestors) :
    (ss.update t f).IsForest where
  aligned e := by
    rw [scope_update]
    split
    · next he => exact he.1 ▸ haligned
    · exact h.aligned e
  older {e i} hi := by
    rw [scope_update] at hi
    split at hi
    · next he =>
        rw [he.1, hancestors] at hi
        exact he.1 ▸ h.older hi
    · exact h.older hi

/-- Each single change of the scopes keeps the forest. -/
theorem step (h : ss.IsForest) {c : Step α} (hc : c.InBounds ss) : (c.apply ss).IsForest := by
  obtain ⟨parent, hnone, -⟩ | ⟨t, f, hf, happly⟩ := c.apply_eq ss
  · obtain ⟨p, rfl⟩ := Step.eq_new_of_effect? hnone
    exact h.new hc
  · rw [happly]
    refine h.update ?_ (f.ancestors_apply _)
    cases f with
    | bind name value readOnly noted => exact (h.aligned t).bind name value readOnly noted
    | assign name value => exact (h.aligned t).assign (Step.has_of_effect? hf) value
    | unset name => exact (h.aligned t).unset name
    | intend name kind => exact h.aligned t

end IsForest

/-- By induction on the changes: all scopes that come about are a forest. -/
theorem Reachable.isForest (h : ss.Reachable) : ss.IsForest := by
  induction h with
  | empty => exact ⟨fun _ => rfl, nofun⟩
  | step _ hc ih => exact ih.step hc
  | pushBlock _ _ ih => exact ih.update (ih.aligned _) rfl
  | popBlock _ _ ih => exact ih.update (ih.aligned _).popBlock (Scope.ancestors_popBlock _)

/-! ### Writing one name of one scope -/

/-- A function gives the name a value in scope `t` and leaves the other names there. -/
structure Writes (ss : Scopes α) (t : ScopeId) (name : String) (v : α)
    (f : Scope α → Scope α) : Prop where
  lt_size : t < ss.size
  ancestors : (f (ss.scope t)).ancestors = (ss.scope t).ancestors
  get? : ∀ x, (f (ss.scope t)).vars.get? x = if name = x then some v else (ss.scope t).vars.get? x

namespace Writes

variable {f : Scope α → Scope α}

theorem chain (h : ss.Writes t name v f) (e : ScopeId) :
    (ss.update t f).chain e = ss.chain e := by
  rw [Scopes.chain, Scopes.chain, scope_update]
  split
  · next he => rw [he.1, h.ancestors]
  · rfl

/-- The name has the new value in the one scope, and all else is as it was. -/
theorem get?_scope (h : ss.Writes t name v f) (i : ScopeId) (x : String) :
    ((ss.update t f).scope i).vars.get? x =
      if i = t ∧ name = x then some v else (ss.scope i).vars.get? x := by
  rw [scope_update]
  by_cases hi : i = t
  · subst hi
    simp [h.lt_size, h.get?]
  · simp [hi]

theorem has_scope (h : ss.Writes t name v f) (i : ScopeId) :
    ((ss.update t f).scope i).vars.has name = (decide (i = t) || (ss.scope i).vars.has name) := by
  rw [Table.has, h.get?_scope]
  by_cases hi : i = t <;> simp [hi, Table.has]

/-- The name is found in the scope that was written if it was found there before or nowhere. -/
theorem holder? (h : ss.Writes t name v f) (ht : t ∈ ss.chain e)
    (hholder : ∀ i, ss.holder? e name = some i → i = t) :
    (ss.update t f).holder? e name = some t := by
  rw [Scopes.holder?] at hholder ⊢
  simp only [h.chain, h.has_scope]
  generalize ss.chain e = l at ht hholder
  induction l with
  | nil => exact absurd ht List.not_mem_nil
  | cons i l ih =>
    by_cases hi : i = t
    · simp [hi]
    · have hhas : (ss.scope i).vars.has name = false := by
        by_contra hhas
        exact hi (hholder i (List.find?_cons_of_pos (by simpa using hhas)))
      rw [List.find?_cons_of_neg (by simp [hi, hhas])]
      refine ih ((List.mem_cons.1 ht).resolve_left (Ne.symm hi)) fun j hj => hholder j ?_
      rwa [List.find?_cons_of_neg (by simp [hhas])]

/-- From any scope, the name reads as the new value if it is found in the scope that was written;
everything else reads as before. -/
theorem get?_update (h : ss.Writes t name v f) (e : ScopeId) (x : String) :
    (ss.update t f).get? e x =
      if name = x ∧ (ss.update t f).holder? e name = some t then some v else ss.get? e x := by
  rw [Scopes.get?, Scopes.get?, Scopes.holder?]
  simp only [h.chain, h.has_scope, h.get?_scope]
  induction ss.chain e with
  | nil => simp
  | cons i l ih =>
    by_cases hx : name = x
    · by_cases hi : i = t
      · simp [hx, hi]
      · cases hget : (ss.scope i).vars.get? x with
        | some w => simp_all [Table.has]
        | none => simp_all [Table.has]
    · simp [hx]

end Writes

/-! ### Assignments -/

/-- A name without a binding goes to a scope around, or to the scope itself. -/
theorem home_mem_chain (ss : Scopes α) (e : ScopeId) (name : String) :
    ss.home e name ∈ ss.chain e := by
  unfold home chain root
  split
  · exact List.getLastD_mem_cons ..
  · exact List.mem_cons_self

theorem written_mem_chain (ss : Scopes α) (e : ScopeId) (name : String) :
    ss.written e name ∈ ss.chain e := by
  unfold written
  cases h : ss.holder? e name with
  | some i => exact List.mem_of_find?_eq_some h
  | none => exact ss.home_mem_chain e name

/-- An assignment writes the name in one scope. -/
theorem assign_eq_update (hss : ss.IsForest) (he : e < ss.size) (name : String) (v : α) :
    ∃ f, ss.Writes (ss.written e name) name v f ∧
      ss.assign e name v = ss.update (ss.written e name) f := by
  have hlt : ss.written e name < ss.size := by
    obtain heq | hmem := List.mem_cons.1 (ss.written_mem_chain e name)
    · rwa [heq]
    · exact hss.lt_size hmem
  unfold assign written at *
  cases h : ss.holder? e name with
  | some i =>
    rw [h] at hlt
    exact ⟨_, ⟨hlt, rfl, fun x => Table.get?_set ..⟩, rfl⟩
  | none =>
    rw [h] at hlt
    refine ⟨_, ⟨hlt, ?_, fun x => ?_⟩, rfl⟩
    · rw [Scope.bind_eq]
    · rw [Scope.bind_eq]
      exact Table.get?_set ..

/-- A name is read-only exactly if the scope that holds it says so. -/
theorem isReadOnly_iff : ss.isReadOnly e name = true ↔
    ∃ i, ss.holder? e name = some i ∧ (ss.scope i).flags.get? name = some true := by
  unfold isReadOnly Scope.isReadOnly
  cases ss.holder? e name with
  | none => simp
  | some i => cases h : (ss.scope i).flags.get? name <;> simp [h]

/-- After an assignment from a scope, the name is found in the scope that was written. -/
theorem holder?_assign (hss : ss.IsForest) (he : e < ss.size) (name : String) (v : α) :
    (ss.assign e name v).holder? e name = some (ss.written e name) := by
  obtain ⟨f, hwrites, heq⟩ := assign_eq_update hss he name v
  rw [heq]
  refine hwrites.holder? (ss.written_mem_chain e name) fun i hi => ?_
  rw [written, hi, Option.getD_some]

end Scopes

namespace Exec

/-- A read-only name is not written: its notice is shown and ends the program. -/
theorem run_assignName_readOnly {e : ScopeId} {name : String} {m : Machine}
    (hquiet : m.isQuiet = false) (h : m.scopes.isReadOnly e name = true) (v : Value) :
    (assignName e name v).run m = (.error (.exit (.int 1)),
      { m with world := m.world.emit ((Notice.readOnly name).event m.reader) }) := by
  rw [assignName, run_bind, run_get]
  simp only [h, if_true]
  rw [run_bind, run_host, run_report_shown hquiet]
  rfl

end Exec

/-- The laws of the store, for whatever has happened to the scopes while notices are shown. The
names and the flags of each scope agree. An assignment ends the program exactly if the nearest scope
that binds the name flags it read-only; then the notice of that is shown, and nothing else is
changed. Otherwise one scope is written. The name then reads as the value from the scope where it
was assigned and from all scopes that find it in the scope that was written, and everything else
reads as before. -/
theorem assignName_store_laws {m : Machine} (hreachable : m.scopes.Reachable)
    (hquiet : m.isQuiet = false) {e : ScopeId} (he : e < m.scopes.size) (name : String)
    (v : Value) :
    (∀ i, (m.scopes.scope i).vars.names = (m.scopes.scope i).flags.names) ∧
    ((Exec.assignName e name v).run m =
        (.error (.exit (.int 1)),
          { m with world := m.world.emit ((Notice.readOnly name).event m.reader) }) ↔
      ∃ i, m.scopes.holder? e name = some i ∧
        (m.scopes.scope i).flags.get? name = some true) ∧
    ((¬ ∃ i, m.scopes.holder? e name = some i ∧
        (m.scopes.scope i).flags.get? name = some true) →
      ∃ ss t, (Exec.assignName e name v).run m = (.ok (), { m with scopes := ss }) ∧
        t = m.scopes.written e name ∧
        (∀ i, i ≠ t → ss.scope i = m.scopes.scope i) ∧
        ss.holder? e name = some t ∧
        ss.get? e name = some v ∧
        ∀ e' x, ss.get? e' x =
          if name = x ∧ ss.holder? e' name = some t then some v else m.scopes.get? e' x) := by
  have hforest := hreachable.isForest
  refine ⟨hforest.aligned, ?_, ?_⟩
  · rw [← Scopes.isReadOnly_iff]
    refine ⟨fun hrun => ?_, fun hro => Exec.run_assignName_readOnly hquiet hro v⟩
    by_contra hro
    rw [Exec.run_assignName (by simpa using hro)] at hrun
    cases hrun
  · rw [← Scopes.isReadOnly_iff]
    intro hro
    obtain ⟨f, hwrites, hassign⟩ := Scopes.assign_eq_update hforest he name v
    have hholder := Scopes.holder?_assign hforest he name v
    rw [hassign] at hholder
    refine ⟨_, _, Exec.run_assignName (by simpa using hro), rfl, ?_⟩
    rw [hassign]
    refine ⟨fun i hi => ?_, hholder, ?_, hwrites.get?_update⟩
    · rw [Scopes.scope_update, if_neg fun h => hi h.1]
    · rw [hwrites.get?_update, if_pos ⟨rfl, hholder⟩]

/-- A name that an inner scope means to be global is written in the outermost scope. -/
theorem assignName_store_laws_global :
    let ss : Scopes Value := Scopes.setIntent (Scopes.new (Scopes.new #[] none).2 (some 0)).2
      1 "x" "global"
    let m : Machine := { (default : Machine) with scopes := ss }
    ss.Reachable ∧ m.isQuiet = false ∧
      ∃ ss', (Exec.assignName 1 "x" (.int 7)).run m = (.ok (), { m with scopes := ss' }) ∧
        ss'.holder? 1 "x" = some 0 ∧ ss'.get? 1 "x" = some (.int 7) := by
  intro ss m
  have houter : Scopes.Reachable (Scopes.new (#[] : Scopes Value) none).2 :=
    .step (c := .new none) .empty nofun
  have hinner : Scopes.Reachable (Scopes.new (Scopes.new (#[] : Scopes Value) none).2 (some 0)).2 :=
    .step (c := .new (some 0)) houter (by simp [Scopes.Step.InBounds])
  have hreachable : ss.Reachable :=
    .step (c := .setIntent 1 "x" "global") hinner (by simp [Scopes.Step.InBounds])
  have hquiet : m.isQuiet = false := by decide
  obtain ⟨ss', t, hrun, rfl, -, hholder, hget, -⟩ :=
    (assignName_store_laws (m := m) hreachable hquiet (e := 1) (by decide) "x" (.int 7)).2.2
      (by decide)
  exact ⟨hreachable, hquiet, ss', hrun, hholder, hget⟩

end ScriptLang
