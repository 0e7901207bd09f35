import Mathlib.Data.List.Nodup
import ScriptLang.Proofs.Run.Declare
import ScriptLang.Proofs.Scope.Confined

/-!
# A scope inside the outermost one

The body of a class or a template has a scope of its own inside the outermost one. An assignment in
it writes one of the two scopes; a declaration goes to the one that the name is meant for, and
removes the nearest binding that is seen from there. So what either does to the bindings of the
two scopes can be told name by name.
-/

namespace ScriptLang

variable {α : Type}

namespace Table

theorem nodup_names_set {t : Table α} (h : t.names.Nodup) (name : String) (a : α) :
    (t.set name a).names.Nodup := by
  rw [names_set]
  split
  · exact h
  · next hnew =>
    rw [has_iff_mem_names] at hnew
    exact List.nodup_append.2 ⟨h, List.nodup_singleton name, by grind⟩

theorem nodup_names_erase {t : Table α} (h : t.names.Nodup) (name : String) :
    (t.erase name).names.Nodup :=
  h.sublist (List.filter_sublist.map Prod.fst)

end Table

/-! ### Changes of what a scope binds -/

theorem Scope.map_fst_binding? (s : Scope α) (x : String) :
    (s.binding? x).map Prod.fst = s.vars.get? x := by
  rw [binding?]
  cases s.vars.get? x <;> rfl

theorem Scope.nodup_names_foldl_erase {s : Scope α} (hs : s.vars.names.Nodup)
    (names : List String) : (names.foldl Scope.erase s).vars.names.Nodup := by
  induction names generalizing s with
  | nil => exact hs
  | cons x names ih => exact ih (Table.nodup_names_erase hs x)

/-- The function changes nothing about a scope but what it binds, and binds no name twice. -/
structure Scope.Rebinding (f : Scope α → Scope α) : Prop where
  ancestors : ∀ s, (f s).ancestors = s.ancestors
  intents : ∀ s, (f s).intents = s.intents
  distinct : ∀ s, s.vars.names.Nodup → (f s).vars.names.Nodup

namespace Scope.Rebinding

theorem assign (name : String) (v : α) : Rebinding fun s => s.assign name v :=
  ⟨fun _ => rfl, fun _ => rfl, fun _ h => Table.nodup_names_set h name v⟩

theorem bind (name : String) (v : α) (readOnly noted : Bool) :
    Rebinding fun s => s.bind name v readOnly noted := by
  refine ⟨fun s => ?_, fun s => ?_, fun s h => ?_⟩ <;> rw [bind_eq]
  exact Table.nodup_names_set h name v

theorem unset (name : String) : Rebinding fun s : Scope α => s.unset name :=
  ⟨fun _ => rfl, fun _ => rfl, fun _ h => Table.nodup_names_erase h name⟩

end Scope.Rebinding

namespace Scopes

variable {ss : Scopes α} {e t : ScopeId} {x : String}

/-- An assignment is one change in the scope that it writes. -/
theorem exists_assign_eq_update (ss : Scopes α) (e : ScopeId) (x : String) (v : α) :
    ∃ f, Scope.Rebinding f ∧ ss.assign e x v = ss.update (ss.written e x) f := by
  rw [assign, written]
  cases ss.holder? e x with
  | none => exact ⟨_, .bind .., rfl⟩
  | some h => exact ⟨_, .assign .., rfl⟩

/-- An assignment changes no scope but the one that it writes. -/
theorem scope_assign_of_ne {i : ScopeId} (h : i ≠ ss.written e x) (v : α) :
    (ss.assign e x v).scope i = ss.scope i := by
  obtain ⟨f, -, heq⟩ := ss.exists_assign_eq_update e x v
  rw [heq, scope_update, if_neg fun hi => h hi.1]

/-- An assignment keeps the flag that the name has. -/
theorem binding?_assign (hwritten : ss.written e x < ss.size) (v : α) (i : ScopeId) (y : String) :
    ((ss.assign e x v).scope i).binding? y =
      if i = ss.written e x ∧ x = y then some (v, ss.isReadOnly e x)
      else (ss.scope i).binding? y := by
  rw [written] at hwritten ⊢
  rw [assign, isReadOnly]
  cases hholder : ss.holder? e x with
  | none =>
    rw [hholder, Option.getD_none] at hwritten
    rw [Option.getD_none]
    dsimp only
    rw [bindHome, scope_update]
    by_cases hi : i = ss.home e x <;> simp [hi, hwritten]
  | some h =>
    rw [hholder, Option.getD_some] at hwritten
    rw [Option.getD_some]
    dsimp only
    rw [scope_update]
    by_cases hi : i = h <;> simp [hi, hwritten]

/-- The nearest binding is gone, and all others are as they were. -/
theorem binding?_dropNearest (ss : Scopes α) (e : ScopeId) (x : String) (i : ScopeId) (y : String) :
    ((ss.dropNearest e x).scope i).binding? y =
      if ss.holder? e x = some i ∧ x = y then none else (ss.scope i).binding? y := by
  rw [dropNearest]
  cases hholder : ss.holder? e x with
  | none => simp
  | some h =>
    have hlt : h < ss.size := lt_size_of_has (has_of_holder? hholder)
    dsimp only
    rw [unset, scope_update]
    by_cases hi : i = h
    · simp [hi, hlt]
    · have hi' : h ≠ i := fun h => hi h.symm
      simp [hi, hi']

theorem size_dropNearest (ss : Scopes α) (e : ScopeId) (x : String) :
    (ss.dropNearest e x).size = ss.size := by
  rw [dropNearest]
  split <;> simp [unset]

/-! ### The outermost scope -/

namespace Outermost

variable (h : Outermost e ss)

include h

theorem get? (x : String) : ss.get? e x = (ss.scope e).vars.get? x := by
  rw [Scopes.get?, h.chain, List.findSome?_cons]
  cases (ss.scope e).vars.get? x <;> rfl

theorem intent? (x : String) : ss.intent? e x = (ss.scope e).intents.get? x := by
  rw [Scopes.intent?, h.chain, List.findSome?_cons]
  cases (ss.scope e).intents.get? x <;> rfl

theorem written (x : String) : ss.written e x = e := by
  rw [Scopes.written, h.holder?, h.home]
  split <;> rfl

/-- In an outermost scope an assignment gives the name the value there. -/
theorem get?_vars_assign (x : String) (v : α) (y : String) :
    ((ss.assign e x v).scope e).vars.get? y =
      if x = y then some v else (ss.scope e).vars.get? y := by
  have hwritten : ss.written e x = e := h.written x
  have hlt : ss.written e x < ss.size := hwritten.symm ▸ h.lt_size
  rw [← Scope.map_fst_binding?, binding?_assign hlt, hwritten, ← Scope.map_fst_binding?]
  by_cases hxy : x = y <;> simp [hxy]

theorem isReadOnly (x : String) : ss.isReadOnly e x = ((ss.scope e).binding? x).any Prod.snd := by
  rw [Scopes.isReadOnly, h.holder?, flag?, Option.isSome_map, Scope.binding?]
  cases (ss.scope e).vars.get? x <;> rfl

theorem update (t : ScopeId) {f : Scope α → Scope α} (hf : Scope.Rebinding f) :
    Outermost e (ss.update t f) := by
  refine ⟨by simpa using h.lt_size, ?_⟩
  rw [scope_update]
  split
  · rw [hf.ancestors, h.ancestors]
  · exact h.ancestors

theorem assign (t : ScopeId) (x : String) (v : α) : Outermost e (ss.assign t x v) := by
  obtain ⟨f, hf, heq⟩ := ss.exists_assign_eq_update t x v
  rw [heq]
  exact h.update _ hf

theorem unset (t : ScopeId) (x : String) : Outermost e (ss.unset t x) := h.update t (.unset x)

end Outermost

structure Tidy (e : ScopeId) (ss : Scopes α) : Prop extends Outermost e ss where
  distinct : (ss.scope e).vars.names.Nodup

namespace Tidy

variable (h : Tidy e ss)

include h

/-- A change that keeps names distinct keeps an outermost scope tidy. -/
theorem update (t : ScopeId) {f : Scope α → Scope α}
    (hancestors : ∀ s, (f s).ancestors = s.ancestors)
    (hdistinct : ∀ s, s.vars.names.Nodup → (f s).vars.names.Nodup) : Tidy e (ss.update t f) := by
  refine ⟨⟨by simpa using h.lt_size, ?_⟩, ?_⟩ <;> rw [scope_update] <;> split
  · rw [hancestors, h.ancestors]
  · exact h.ancestors
  · exact hdistinct _ h.distinct
  · exact h.distinct

theorem rebind (t : ScopeId) {f : Scope α → Scope α} (hf : Scope.Rebinding f) :
    Tidy e (ss.update t f) := h.update t hf.ancestors hf.distinct

theorem new (parent : Option ScopeId) : Tidy e (ss.new parent).2 := by
  have hscope : (ss.new parent).2.scope e = ss.scope e := by
    rw [scope_new, if_neg (Nat.ne_of_lt h.lt_size)]
  refine ⟨⟨?_, by rw [hscope, h.ancestors]⟩, by rw [hscope]; exact h.distinct⟩
  rw [size_new]
  exact Nat.lt_succ_of_lt h.lt_size

theorem popBlock (t : ScopeId) : Tidy e (ss.popBlock t) := by
  refine h.update t Scope.ancestors_popBlock fun s hs => ?_
  unfold Scope.popBlock
  split
  · exact hs
  · next block rest _ =>
    exact Scope.nodup_names_foldl_erase (s := { s with blocks := rest }) hs block

end Tidy

/-- However scopes change, an outermost scope stays one and binds no name twice. -/
theorem Evolves.tidy {ss ss' : Scopes α} (hss : Evolves ss ss') (h : Tidy e ss) : Tidy e ss' := by
  induction hss with
  | refl => exact h
  | trans _ _ ih ih' => exact ih' (ih h)
  | new ss parent => exact h.new parent
  | declare ss t x v readOnly forceGlobal forceLocal =>
    unfold Scopes.declare bindHome
    split_ifs <;> exact h.rebind _ (.bind ..)
  | assign ss t x v =>
    obtain ⟨f, hf, heq⟩ := ss.exists_assign_eq_update t x v
    rw [heq]
    exact h.rebind _ hf
  | unset ss t x => exact h.rebind t (.unset x)
  | setIntent ss t x kind => exact h.update t (fun _ => rfl) fun _ hs => hs
  | block t _ ih => exact (ih (h.update t (fun _ => rfl) fun _ hs => hs)).popBlock t

/-! ### A scope inside it -/

/-- The scope `inner` is inside the outermost scope, which has the given intents, and has none
itself. -/
structure Nested (inner root : ScopeId) (intents : Table String) (ss : Scopes α) : Prop where
  lt_size : inner < ss.size
  ne : inner ≠ root
  ancestors : (ss.scope inner).ancestors = [root]
  noIntents : (ss.scope inner).intents = []
  distinct : (ss.scope inner).vars.names.Nodup
  outermost : Outermost root ss
  intents : (ss.scope root).intents = intents

/-- A new scope inside the outermost one. -/
theorem Outermost.nested_new (h : Outermost e ss) :
    Nested ss.size e (ss.scope e).intents (ss.new (some e)).2 := by
  have hne : e ≠ ss.size := Nat.ne_of_lt h.lt_size
  have hchain : ((some e).map ss.chain).getD [] = [e] := h.chain
  have hroot : (ss.new (some e)).2.scope e = ss.scope e := by rw [scope_new, if_neg hne]
  have hinner : (ss.new (some e)).2.scope ss.size = { ancestors := [e] } := by
    rw [scope_new, if_pos rfl, hchain]
  refine ⟨by simp, hne.symm, ?_, ?_, ?_, ⟨?_, ?_⟩, congrArg Scope.intents hroot⟩
  · rw [hinner]
  · rw [hinner]
  · rw [hinner]
    exact List.nodup_nil
  · rw [size_new]
    exact Nat.lt_succ_of_lt h.lt_size
  · rw [hroot, h.ancestors]

namespace Nested

variable {inner root : ScopeId} {intents : Table String}

theorem update (h : Nested inner root intents ss) (t : ScopeId) {f : Scope α → Scope α}
    (hf : Scope.Rebinding f) : Nested inner root intents (ss.update t f) := by
  have hkept (i : ScopeId) : ((ss.update t f).scope i).ancestors = (ss.scope i).ancestors ∧
      ((ss.update t f).scope i).intents = (ss.scope i).intents := by
    rw [scope_update]
    split
    · exact ⟨hf.ancestors _, hf.intents _⟩
    · exact ⟨rfl, rfl⟩
  refine ⟨?_, h.ne, ?_, ?_, ?_, ⟨?_, ?_⟩, ?_⟩
  · simpa using h.lt_size
  · rw [(hkept inner).1, h.ancestors]
  · rw [(hkept inner).2, h.noIntents]
  · rw [scope_update]
    split
    · exact hf.distinct _ h.distinct
    · exact h.distinct
  · simpa using h.outermost.lt_size
  · rw [(hkept root).1, h.outermost.ancestors]
  · rw [(hkept root).2, h.intents]

theorem assign (h : Nested inner root intents ss) (e : ScopeId) (x : String) (v : α) :
    Nested inner root intents (ss.assign e x v) := by
  obtain ⟨f, hf, heq⟩ := ss.exists_assign_eq_update e x v
  rw [heq]
  exact h.update _ hf

theorem dropNearest (h : Nested inner root intents ss) (e : ScopeId) (x : String) :
    Nested inner root intents (ss.dropNearest e x) := by
  rw [Scopes.dropNearest]
  split
  · exact h.update _ (.unset x)
  · exact h

variable (h : Nested inner root intents ss)

include h

theorem chain : ss.chain inner = [inner, root] := by
  rw [Scopes.chain, h.ancestors]

theorem root_eq : ss.root inner = root := by
  rw [Scopes.root, h.ancestors]
  rfl

theorem intent? (x : String) : ss.intent? inner x = intents.get? x := by
  rw [Scopes.intent?, h.chain, List.findSome?_cons, h.noIntents, List.findSome?_cons, h.intents]
  cases intents.get? x <;> rfl

/-- A name without a binding is bound in the inner scope, unless it is meant to be global. -/
theorem home (x : String) :
    ss.home inner x = if intents.get? x = some "global" then root else inner := by
  rw [Scopes.home, h.intent?, h.root_eq]

/-- A name is held by the inner scope, or else by the outermost one. -/
theorem holder? (x : String) :
    ss.holder? inner x =
      if (ss.scope inner).vars.has x then some inner
      else if (ss.scope root).vars.has x then some root else none := by
  rw [Scopes.holder?, h.chain, List.find?_cons, List.find?_cons]
  cases (ss.scope inner).vars.has x <;> cases (ss.scope root).vars.has x <;> rfl

/-- An assignment writes the holder, or the place where the name is meant to be. -/
theorem written (x : String) :
    ss.written inner x =
      if (ss.scope inner).vars.has x then inner
      else if (ss.scope root).vars.has x ∨ intents.get? x = some "global" then root else inner := by
  rw [Scopes.written, h.holder?, h.home]
  cases (ss.scope inner).vars.has x <;> cases (ss.scope root).vars.has x <;> simp

theorem written_lt_size (x : String) : ss.written inner x < ss.size := by
  have hinner := h.lt_size
  have hroot := h.outermost.lt_size
  rw [h.written]
  split_ifs <;> assumption

theorem home_lt_size (x : String) : ss.home inner x < ss.size := by
  have hinner := h.lt_size
  have hroot := h.outermost.lt_size
  rw [h.home]
  split_ifs <;> assumption

end Nested

end Scopes

namespace Exec

open Scopes (Nested)

variable {inner root : ScopeId} {intents : Table String} {m : Machine} {b : Binding}

/-- A declaration that is forced nowhere binds the name where it is meant to be. -/
theorem run_redeclare_home (e : ScopeId) (x : String) (v : Value) (hglobal : b.forceGlobal = false)
    (hlocal : b.forceLocal = false) :
    ∃ noted, (redeclare e x v b).run m = (.ok (), { m with
      scopes := (m.scopes.dropNearest (m.scopes.home e x) x).update (m.scopes.home e x) fun s =>
        s.bind x v b.readOnly noted }) := by
  by_cases hintent : m.scopes.intent? e x = some "global"
  · have hhome : m.scopes.home e x = m.scopes.root e := by rw [Scopes.home, if_pos hintent]
    have hroot : (m.scopes.dropNearest (m.scopes.root e) x).root e = m.scopes.root e := by
      rw [Scopes.dropNearest]
      split
      · exact Scopes.root_update (f := fun s => s.unset x) _ _ (fun _ => rfl) e
      · rfl
    have hdeclared (forceLocal : Bool) :
        (m.scopes.dropNearest (m.scopes.root e) x).declare e x v b.readOnly true forceLocal =
          (m.scopes.dropNearest (m.scopes.root e) x).update (m.scopes.root e) fun s =>
            s.bind x v b.readOnly false := by
      rw [Scopes.declare, if_pos rfl, hroot]
    refine ⟨false, ?_⟩
    rw [redeclare, run_modifyScopes, hhome]
    simp only [hglobal, hlocal, hintent, beq_self_eq_true, Bool.not_false, Bool.and_self,
      Bool.or_true, if_true]
    rw [← hdeclared]
    rfl
  · have hhome : m.scopes.home e x = e := by rw [Scopes.home, if_neg hintent]
    rw [hhome]
    exact ⟨true, run_redeclare m v hglobal (.inr hintent)⟩

/-- What a declaration in the inner scope does to the bindings. -/
theorem run_redeclare_nested (h : Nested inner root intents m.scopes) (x : String) (v : Value)
    (hglobal : b.forceGlobal = false) (hlocal : b.forceLocal = false) :
    ∃ ss, (redeclare inner x v b).run m = (.ok (), { m with scopes := ss }) ∧
      Nested inner root intents ss ∧ ∀ i y, (ss.scope i).binding? y =
        if i = m.scopes.home inner x ∧ x = y then some (v, b.readOnly)
        else if m.scopes.holder? (m.scopes.home inner x) x = some i ∧ x = y then none
        else (m.scopes.scope i).binding? y := by
  obtain ⟨noted, hrun⟩ := run_redeclare_home (m := m) inner x v hglobal hlocal
  refine ⟨_, hrun, (h.dropNearest _ x).update _ (.bind ..), fun i y => ?_⟩
  have hlt : m.scopes.home inner x < (m.scopes.dropNearest (m.scopes.home inner x) x).size := by
    rw [Scopes.size_dropNearest]
    exact h.home_lt_size x
  rw [Scopes.scope_update]
  by_cases hi : i = m.scopes.home inner x
  · rw [if_pos ⟨hi, hi ▸ hlt⟩, Scope.binding?_bind, Scopes.binding?_dropNearest]
    by_cases hy : x = y <;> simp [hi, hy]
  · rw [if_neg fun h => hi h.1, Scopes.binding?_dropNearest]
    simp [hi]

end Exec

end ScriptLang
