import Mathlib.Data.List.Basic
import ScriptLang.Scope

/-!
# Scopes one by one

What the operations on all scopes do to each single scope. A scope that is not there counts as an
empty one, so that the equations need no bounds. Before that, the laws of the tables that scopes are
made of.
-/

namespace ScriptLang

variable {α β : Type}

namespace Table

theorem has_set (t : Table α) (name other : String) (a : α) :
    (t.set name a).has other = (decide (name = other) || t.has other) := by
  fun_induction set t name a with
  | case1 => by_cases h : name = other <;> simp [has, get?, h]
  | case2 b rest => by_cases h : name = other <;> simp [has, get?, h]
  | case3 n b rest hn ih =>
    by_cases h : n = other
    · simp [has, get?, h]
    · simpa [has, get?, h] using ih

theorem has_iff_mem_names {t : Table α} {name : String} : t.has name ↔ name ∈ t.names := by
  induction t with
  | nil => simp [has, get?, names]
  | cons b t ih =>
    have hget : get? (b :: t) name = if b.1 = name then some b.2 else get? t name := rfl
    rw [has, hget, names, List.map_cons, List.mem_cons, ← names, ← ih]
    by_cases h : b.1 = name
    · simp [h]
    · simp [h, Ne.symm h, has]

@[simp] theorem get?_erase (t : Table α) (name other : String) :
    (t.erase name).get? other = if name = other then none else t.get? other := by
  induction t with
  | nil => simp [erase, get?]
  | cons b t ih =>
    obtain ⟨n, a⟩ := b
    rw [erase] at ih ⊢
    by_cases hn : n = name
    · rw [List.filter_cons_of_neg (by simp [hn]), ih]
      by_cases h : name = other <;> simp [get?, hn, h]
    · rw [List.filter_cons_of_pos (by simp [hn]), get?, ih]
      by_cases h : n = other
      · have hname : name ≠ other := fun hname => hn (h.trans hname.symm)
        simp [get?, h, hname]
      · simp [get?, h]

theorem get?_map (t : Table α) (f : α → β) (name : String) :
    get? (t.map fun b => (b.1, f b.2)) name = (t.get? name).map f := by
  induction t with
  | nil => rfl
  | cons b t ih => by_cases h : b.1 = name <;> simp [get?, h, ih]

theorem set_map (t : Table α) (f : α → β) (name : String) (a : α) :
    Table.set (t.map fun b => (b.1, f b.2)) name (f a) =
      (t.set name a).map fun b => (b.1, f b.2) := by
  induction t with
  | nil => rfl
  | cons b t ih => by_cases h : b.1 = name <;> simp [set, h, ih]

/-- Setting a name to what it already has changes nothing. -/
theorem set_of_get? {t : Table α} {name : String} {a : α} (h : t.get? name = some a) :
    t.set name a = t := by
  induction t with
  | nil => simp [get?] at h
  | cons b t ih =>
    obtain ⟨n, b⟩ := b
    by_cases hn : n = name <;> simp_all [get?, set]

/-- A name that is new comes last. -/
theorem names_set (t : Table α) (name : String) (a : α) :
    (t.set name a).names = if t.has name then t.names else t.names ++ [name] := by
  fun_induction set t name a with
  | case1 => simp [has, get?, names]
  | case2 b rest => simp [has, get?, names]
  | case3 n b rest hn ih =>
    have hhas : has ((n, b) :: rest) name = has rest name := by simp [has, get?, hn]
    simp only [names, List.map_cons, hhas] at ih ⊢
    rw [ih]
    split <;> rfl

/-- In a table of distinct names every entry is found. -/
theorem get?_of_mem {t : Table α} (h : t.names.Nodup) {name : String} {a : α}
    (hmem : (name, a) ∈ t) : t.get? name = some a := by
  induction t with
  | nil => cases hmem
  | cons b t ih =>
    obtain ⟨hfresh, h⟩ := List.nodup_cons.1 h
    rcases List.mem_cons.1 hmem with rfl | hmem
    · simp [get?]
    · have hne : b.1 ≠ name := fun hname => hfresh (hname ▸ List.mem_map_of_mem hmem)
      rw [get?, if_neg hne, ih h hmem]

theorem get?_append_of_not_mem {t : Table α} {name : String} (h : name ∉ t.names) (t' : Table α) :
    (t ++ t').get? name = t'.get? name := by
  induction t with
  | nil => rfl
  | cons e t ih =>
    simp only [names, List.map_cons, List.mem_cons, not_or] at h
    rw [List.cons_append, get?, if_neg (Ne.symm h.1), ih h.2]

theorem set_set (t : Table α) (name : String) (a b : α) :
    (t.set name a).set name b = t.set name b := by
  induction t with
  | nil => simp [set]
  | cons e t ih => by_cases h : e.1 = name <;> simp [set, h, ih]

theorem set_append_of_not_mem {t : Table α} {name : String} (h : name ∉ t.names) (t' : Table α)
    (a : α) : (t ++ t').set name a = t ++ t'.set name a := by
  induction t with
  | nil => rfl
  | cons e t ih =>
    simp only [names, List.map_cons, List.mem_cons, not_or] at h
    rw [List.cons_append, set, if_neg (Ne.symm h.1), ih h.2, List.cons_append]

/-- Erasing a name keeps the order of the others. -/
theorem names_erase (t : Table α) (name : String) :
    (t.erase name).names = t.names.filter (· != name) := by
  simp [erase, names, List.filter_map, Function.comp_def]

end Table

namespace Scope

theorem modifyHead_append_nil (blocks : List (List String)) :
    blocks.modifyHead (· ++ []) = blocks := by
  cases blocks <;> simp

/-- Noting a name changes the blocks only. -/
theorem note_eq (s : Scope α) (name : String) :
    s.note name = { s with blocks := s.blocks.modifyHead (· ++ [name]) } := by
  obtain ⟨_, _, _, blocks, _, _⟩ := s
  cases blocks <;> rfl

/-- Binding a name sets its value and its flag, and notes and records it. -/
theorem bind_eq (s : Scope α) (name : String) (value : α) (readOnly noted : Bool) :
    s.bind name value readOnly noted = { s with
      vars := s.vars.set name value
      flags := s.flags.set name readOnly
      blocks := s.blocks.modifyHead (· ++ if noted then [name] else [])
      changes :=
        (if noted then .written name s.blocks.length else .routed name) :: s.changes } := by
  cases noted
  · cases h : s.blocks <;> simp [bind, h]
  · simp [bind, note_eq]

/-- The value of a name that the scope binds, and whether the name is read-only. -/
def binding? (s : Scope α) (name : String) : Option (α × Bool) :=
  (s.vars.get? name).map fun value => (value, s.isReadOnly name)

@[simp] theorem isSome_binding? (s : Scope α) (name : String) :
    (s.binding? name).isSome = s.vars.has name := by
  simp [binding?, Table.has]

@[simp] theorem binding?_bind (s : Scope α) (name other : String) (value : α)
    (readOnly noted : Bool) :
    (s.bind name value readOnly noted).binding? other =
      if name = other then some (value, readOnly) else s.binding? other := by
  by_cases h : name = other <;> simp [bind_eq, binding?, isReadOnly, Table.get?_set, h]

@[simp] theorem binding?_assign (s : Scope α) (name other : String) (value : α) :
    (s.assign name value).binding? other =
      if name = other then some (value, s.isReadOnly name) else s.binding? other := by
  by_cases h : name = other <;> simp [assign, binding?, isReadOnly, Table.get?_set, h]

theorem binding?_erase (s : Scope α) (name other : String) :
    (s.erase name).binding? other = if name = other then none else s.binding? other := by
  by_cases h : name = other <;> simp [erase, binding?, isReadOnly, h]

@[simp] theorem binding?_unset (s : Scope α) (name other : String) :
    (s.unset name).binding? other = if name = other then none else s.binding? other :=
  s.binding?_erase name other

@[simp] theorem blocks_foldl_erase (s : Scope α) (names : List String) :
    (names.foldl erase s).blocks = s.blocks := by
  induction names generalizing s with
  | nil => rfl
  | cons name names ih => exact (ih _).trans rfl

@[simp] theorem blocks_popBlock (s : Scope α) : s.popBlock.blocks = s.blocks.tail := by
  unfold popBlock
  cases h : s.blocks <;> simp [h]

theorem ancestors_foldl_erase (s : Scope α) (names : List String) :
    (names.foldl erase s).ancestors = s.ancestors := by
  induction names generalizing s with
  | nil => rfl
  | cons name names ih => exact (ih _).trans rfl

@[simp] theorem ancestors_popBlock (s : Scope α) : s.popBlock.ancestors = s.ancestors := by
  unfold popBlock
  split
  · rfl
  · exact ancestors_foldl_erase ..

/-- Names that are erased one after the other are not bound. -/
theorem binding?_foldl_erase (s : Scope α) (names : List String) (name : String) :
    (names.foldl erase s).binding? name = if name ∈ names then none else s.binding? name := by
  induction names generalizing s with
  | nil => simp
  | cons n names ih =>
    rw [List.foldl_cons, ih, binding?_erase]
    by_cases h : n = name
    · simp [h]
    · simp [h, Ne.symm h]

/-- A name that the innermost block holds is not bound once the block has ended. -/
@[simp] theorem binding?_popBlock (s : Scope α) (name : String) :
    s.popBlock.binding? name = if name ∈ s.blocks.headD [] then none else s.binding? name := by
  unfold popBlock
  cases h : s.blocks with
  | nil => simp
  | cons block rest => exact binding?_foldl_erase ..

end Scope

namespace Scopes

theorem scope_of_size_le {ss : Scopes α} {i : ScopeId} (h : ss.size ≤ i) : ss.scope i = {} := by
  simp [scope, Array.getElem?_eq_none h]

@[simp] theorem size_update (ss : Scopes α) (e : ScopeId) (f : Scope α → Scope α) :
    (ss.update e f).size = ss.size := by
  simp [update]

/-- Only the scope that is updated changes, and only if it is there. -/
theorem scope_update (ss : Scopes α) (e : ScopeId) (f : Scope α → Scope α) (i : ScopeId) :
    (ss.update e f).scope i = if i = e ∧ i < ss.size then f (ss.scope i) else ss.scope i := by
  by_cases hi : i < ss.size
  · simp [scope, update, hi, Array.getElem_modify, eq_comm]
  · have hle : ss.size ≤ i := Nat.le_of_not_lt hi
    rw [if_neg (fun h => hi h.2), scope_of_size_le hle, scope_of_size_le (by simpa using hle)]

/-- Intents are read alike after a change that keeps them. -/
theorem intent?_update (ss : Scopes α) (t : ScopeId) {f : Scope α → Scope α}
    (hintents : ∀ s, (f s).intents = s.intents) (hancestors : ∀ s, (f s).ancestors = s.ancestors)
    (e : ScopeId) (name : String) : (ss.update t f).intent? e name = ss.intent? e name := by
  have hsame (i : ScopeId) : ((ss.update t f).scope i).intents = (ss.scope i).intents ∧
      ((ss.update t f).scope i).ancestors = (ss.scope i).ancestors := by
    rw [scope_update]
    split
    · exact ⟨hintents _, hancestors _⟩
    · exact ⟨rfl, rfl⟩
  simp only [intent?, chain, hsame]

theorem intent?_declare (ss : Scopes α) (e i : ScopeId) (name other : String) (value : α)
    (readOnly forceGlobal forceLocal : Bool) :
    (ss.declare e name value readOnly forceGlobal forceLocal).intent? i other =
      ss.intent? i other := by
  unfold declare bindHome
  split_ifs <;>
    exact intent?_update _ _ (fun s => by rw [s.bind_eq]) (fun s => by rw [s.bind_eq]) _ _

/-- The holder of a name binds it. -/
theorem has_of_holder? {ss : Scopes α} {e h : ScopeId} {name : String}
    (hholder : ss.holder? e name = some h) : (ss.scope h).vars.has name = true := by
  simpa using List.find?_some hholder

theorem lt_size_of_has {ss : Scopes α} {e : ScopeId} {name : String}
    (hhas : (ss.scope e).vars.has name = true) : e < ss.size := by
  by_contra hlt
  rw [scope_of_size_le (Nat.le_of_not_lt hlt)] at hhas
  exact Bool.false_ne_true hhas

def written (ss : Scopes α) (e : ScopeId) (name : String) : ScopeId :=
  (ss.holder? e name).getD (ss.home e name)

/-- Scopes are equal if each of them is. -/
theorem ext_scope {ss ss' : Scopes α} (hsize : ss.size = ss'.size)
    (h : ∀ i, ss.scope i = ss'.scope i) : ss = ss' := by
  refine Array.ext hsize fun i hi hi' => ?_
  simpa [scope, hi, hi'] using h i

@[simp] theorem size_new (ss : Scopes α) (parent : Option ScopeId) :
    (ss.new parent).2.size = ss.size + 1 := by
  simp [new]

/-- A new scope is empty, inside the given one, and the last of all. -/
theorem scope_new (ss : Scopes α) (parent : Option ScopeId) (i : ScopeId) :
    (ss.new parent).2.scope i =
      if i = ss.size then { ancestors := (parent.map ss.chain).getD [] } else ss.scope i := by
  cases parent <;> by_cases hi : i = ss.size <;>
    simp [scope, new, Array.getElem?_push, hi]

theorem root_update (ss : Scopes α) (t : ScopeId) {f : Scope α → Scope α}
    (hf : ∀ s, (f s).ancestors = s.ancestors) (i : ScopeId) :
    (ss.update t f).root i = ss.root i := by
  rw [root, scope_update]
  split
  · rw [hf, root]
  · rfl

/-- A new scope has the outermost scope of its parent, or it is outermost itself. -/
theorem root_new (ss : Scopes α) (parent : Option ScopeId) (i : ScopeId) :
    (ss.new parent).2.root i =
      if i = ss.size then (parent.map ss.root).getD ss.size else ss.root i := by
  rw [root, scope_new]
  split
  · next hi =>
      cases parent with
      | none => exact hi
      | some p => exact List.getLastD_cons ..
  · rfl

@[simp] theorem size_pushBlock (ss : Scopes α) (i : ScopeId) : (ss.pushBlock i).size = ss.size :=
  size_update ..

@[simp] theorem size_popBlock (ss : Scopes α) (i : ScopeId) : (ss.popBlock i).size = ss.size :=
  size_update ..

end Scopes

end ScriptLang
