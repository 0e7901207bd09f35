import ScriptLang.Proofs.Run.Interpolate

/-!
# Literals

A literal is a number, a text without embedded expressions, or a list or a dictionary of literals.
What it denotes does not depend on the scopes, and evaluating it does nothing but make new objects;
given enough depth, it has a value.
-/

namespace ScriptLang

variable {α : Type}

/-! ### New objects -/

/-- The second machine has new objects, and apart from these it may be in another place. -/
structure Machine.Allocates (m m' : Machine) : Prop where
  store : Grows m.store m'.store
  scopes : m'.scopes = m.scopes
  codes : m'.codes = m.codes
  root : m'.root = m.root

namespace Machine.Allocates

variable {m m' m'' : Machine}

theorem refl (m : Machine) : m.Allocates m := ⟨.refl _, rfl, rfl, rfl⟩

theorem trans (h : m.Allocates m') (h' : m'.Allocates m'') : m.Allocates m'' :=
  ⟨h.store.trans h'.store, h'.scopes.trans h.scopes, h'.codes.trans h.codes, h'.root.trans h.root⟩

theorem push (m : Machine) (o : Obj) : m.Allocates { m with store := m.store.push o } :=
  ⟨.push _ _, rfl, rfl, rfl⟩

end Machine.Allocates

/-! ### What a literal denotes -/

def Literal.negated : Literal → Value
  | .int i => .int (-i)
  | .float x => .float (-x)

inductive Node.IsLiteral : Node → Prop where
  | number (value : Literal) : IsLiteral (.number value)
  | negative (value : Literal) : IsLiteral (.unary .neg (.number value))
  | text {s : String} : (∀ source, .embedded source ∉ textPieces 0 s.toList) → IsLiteral (.text s)
  | list {items : List Node} : (∀ item ∈ items, IsLiteral item) → IsLiteral (.list items)
  | dict {pairs : List (String × Node)} : (∀ p ∈ pairs, IsLiteral p.2) → IsLiteral (.dict pairs)

def Table.setAll (t : Table α) (bs : List (String × α)) : Table α :=
  bs.foldl (fun t b => t.set b.1 b.2) t

/-- What a literal stands for, given the objects there are. In a dictionary, a key written twice has
its last value. -/
inductive Denotes (st : Store) : Node → Value → Prop where
  | number (value : Literal) : Denotes st (.number value) value.value
  | negative (value : Literal) : Denotes st (.unary .neg (.number value)) value.negated
  | text (s : String) : Denotes st (.text s) (.text s)
  | list {items : List Node} {vs : List Value} {r : Ref} : items.length = vs.length →
      (∀ item v, (item, v) ∈ items.zip vs → Denotes st item v) →
      st[r]? = some (.list vs.toArray) → Denotes st (.list items) (.ref r)
  | dict {pairs : List (String × Node)} {vs : List Value} {r : Ref} : pairs.length = vs.length →
      (∀ item v, (item, v) ∈ (pairs.map Prod.snd).zip vs → Denotes st item v) →
      st[r]? = some (.dict ((Table.setAll [] ((pairs.map Prod.fst).zip vs)).map fun b =>
        (.text b.1, b.2))) →
      Denotes st (.dict pairs) (.ref r)

/-- New objects change nothing about what a literal stands for. -/
theorem Denotes.mono {st st' : Store} {node : Node} {v : Value} (h : Denotes st node v)
    (hgrows : Grows st st') : Denotes st' node v := by
  induction h with
  | number value => exact .number value
  | negative value => exact .negative value
  | text s => exact .text s
  | list hlength _ hobj ih => exact .list hlength ih (hgrows _ _ hobj)
  | dict hlength _ hobj ih => exact .dict hlength ih (hgrows _ _ hobj)

/-! ### Evaluating literals -/

namespace Exec

variable {g : Engine} {e : ScopeId} {m m' : Machine}

/-- A text without embedded expressions is its own value. -/
theorem evaluateText_plain {s : String} (h : ∀ source, .embedded source ∉ textPieces 0 s.toList) :
    evaluateText g e s = pure (.text s) := by
  rw [evaluateText, textPieces_eq_map_plain h, interpolate_plain]
  simp

/-- A run that gives a value makes objects only, and the value is what the literal denotes. -/
def EvaluatesTo (g : Engine) (e : ScopeId) (node : Node) : Prop :=
  ∀ m v m', (g.evaluate node e).run m = (.ok v, m') → m.Allocates m' ∧ Denotes m'.store node v

/-- The values of literals in a row are what the literals denote, item by item. -/
theorem run_evaluateAll_eq_ok {items : List Node} (h : ∀ item ∈ items, EvaluatesTo g e item)
    {vs : List Value} (hrun : (evaluateAll g e items).run m = (.ok vs, m')) :
    m.Allocates m' ∧ items.length = vs.length ∧
      ∀ item v, (item, v) ∈ items.zip vs → Denotes m'.store item v := by
  induction items generalizing m vs with
  | nil =>
    cases hrun
    exact ⟨.refl _, rfl, fun _ _ h => (nomatch h)⟩
  | cons item items ih =>
    rw [List.forall_mem_cons] at h
    obtain ⟨v, m₁, hitem, hrun⟩ := run_bind_eq_ok.1 hrun
    obtain ⟨vs, m₂, hrest, hrun⟩ := run_bind_eq_ok.1 hrun
    cases hrun
    obtain ⟨halloc, hvalue⟩ := h.1 m v m₁ hitem
    obtain ⟨halloc', hlength, hvalues⟩ := ih h.2 hrest
    refine ⟨halloc.trans halloc', congrArg Nat.succ hlength, fun item' v' hmem => ?_⟩
    obtain heq | hmem := List.mem_cons.1 hmem
    · cases heq
      exact hvalue.mono halloc'.store
    · exact hvalues item' v' hmem

theorem run_evaluatePairs_eq_ok {pairs : List (String × Node)}
    (h : ∀ p ∈ pairs, EvaluatesTo g e p.2) {t t' : Table Value}
    (hrun : (evaluatePairs g e t pairs).run m = (.ok t', m')) :
    ∃ vs, m.Allocates m' ∧ pairs.length = vs.length ∧
      (∀ item v, (item, v) ∈ (pairs.map Prod.snd).zip vs → Denotes m'.store item v) ∧
      t' = t.setAll ((pairs.map Prod.fst).zip vs) := by
  induction pairs generalizing m t with
  | nil =>
    cases hrun
    exact ⟨[], .refl _, rfl, fun _ _ h => (nomatch h), rfl⟩
  | cons p pairs ih =>
    rw [List.forall_mem_cons] at h
    obtain ⟨v, m₁, hitem, hrun⟩ := run_bind_eq_ok.1 hrun
    obtain ⟨halloc, hvalue⟩ := h.1 m v m₁ hitem
    obtain ⟨vs, halloc', hlength, hvalues, rfl⟩ := ih h.2 hrun
    refine ⟨v :: vs, halloc.trans halloc', congrArg Nat.succ hlength, fun item' v' hmem => ?_, rfl⟩
    obtain heq | hmem := List.mem_cons.1 hmem
    · cases heq
      exact hvalue.mono halloc'.store
    · exact hvalues item' v' hmem

/-- By induction on the literal: what it is evaluated to is what it denotes. -/
theorem evaluatesTo_of_isLiteral {node : Node} (h : node.IsLiteral) (depth : Nat) (e : ScopeId) :
    EvaluatesTo (.ofDepth depth) e node := by
  induction depth generalizing node with
  | zero => exact fun _ _ _ hrun => (nomatch hrun)
  | succ depth ih =>
    intro m v m' hrun
    obtain ⟨_, m₁, hscope, hrun⟩ := run_bind_eq_ok.1 hrun
    have hm₁ : m.Allocates m₁ := by
      cases hscope
      exact ⟨.refl _, rfl, rfl, rfl⟩
    cases h with
    | number value =>
      cases hrun
      exact ⟨hm₁, .number value⟩
    | negative value =>
      obtain ⟨w, m₂, hvalue, hrun⟩ := run_bind_eq_ok.1 hrun
      obtain ⟨halloc, hw⟩ := ih (.number value) _ _ _ hvalue
      cases hw
      cases value <;> cases hrun <;> exact ⟨hm₁.trans halloc, .negative _⟩
    | text hplain =>
      dsimp only at hrun
      rw [evaluateText_plain hplain] at hrun
      cases hrun
      exact ⟨hm₁, .text _⟩
    | list hitems =>
      obtain ⟨vs, m₂, hvalues, hrun⟩ := run_bind_eq_ok.1 hrun
      obtain ⟨halloc, hlength, hdenotes⟩ :=
        run_evaluateAll_eq_ok (fun item hitem => ih (hitems item hitem)) hvalues
      cases hrun
      refine ⟨hm₁.trans (halloc.trans (.push _ _)), .list hlength (fun item v hmem => ?_) ?_⟩
      · exact (hdenotes item v hmem).mono (.push _ _)
      · exact Array.getElem?_push_size
    | dict hpairs =>
      obtain ⟨t, m₂, hvalues, hrun⟩ := run_bind_eq_ok.1 hrun
      obtain ⟨vs, halloc, hlength, hdenotes, rfl⟩ :=
        run_evaluatePairs_eq_ok (fun p hp => ih (hpairs p hp)) hvalues
      cases hrun
      refine ⟨hm₁.trans (halloc.trans (.push _ _)), .dict hlength (fun item v hmem => ?_) ?_⟩
      · exact (hdenotes item v hmem).mono (.push _ _)
      · exact Array.getElem?_push_size

/-! ### Literals have values -/

/-- What holds of each item from some depth on, holds of all items from some depth on. -/
theorem exists_depth_of_forall {items : List α} {P : α → Nat → Prop}
    (h : ∀ a ∈ items, ∃ n, ∀ depth ≥ n, P a depth) :
    ∃ n, ∀ depth ≥ n, ∀ a ∈ items, P a depth := by
  induction items with
  | nil => exact ⟨0, fun _ _ _ h => (nomatch h)⟩
  | cons a items ih =>
    rw [List.forall_mem_cons] at h
    obtain ⟨n, hn⟩ := h.1
    obtain ⟨k, hk⟩ := ih h.2
    refine ⟨max n k, fun depth hdepth => List.forall_mem_cons.2 ⟨hn depth ?_, hk depth ?_⟩⟩
    all_goals omega

def HasValue (g : Engine) (e : ScopeId) (node : Node) : Prop :=
  ∀ m, ∃ v m', (g.evaluate node e).run m = (.ok v, m')

theorem exists_run_evaluateAll {items : List Node} (h : ∀ item ∈ items, HasValue g e item)
    (m : Machine) : ∃ vs m', (evaluateAll g e items).run m = (.ok vs, m') := by
  induction items generalizing m with
  | nil => exact ⟨[], m, rfl⟩
  | cons item items ih =>
    rw [List.forall_mem_cons] at h
    obtain ⟨v, m₁, hitem⟩ := h.1 m
    obtain ⟨vs, m₂, hrest⟩ := ih h.2 m₁
    refine ⟨v :: vs, m₂, ?_⟩
    rw [evaluateAll, run_bind, hitem]
    dsimp only
    rw [run_bind, hrest]
    rfl

theorem exists_run_evaluatePairs {pairs : List (String × Node)}
    (h : ∀ p ∈ pairs, HasValue g e p.2) (t : Table Value) (m : Machine) :
    ∃ t' m', (evaluatePairs g e t pairs).run m = (.ok t', m') := by
  induction pairs generalizing t m with
  | nil => exact ⟨t, m, rfl⟩
  | cons p pairs ih =>
    rw [List.forall_mem_cons] at h
    obtain ⟨v, m₁, hitem⟩ := h.1 m
    obtain ⟨t', m₂, hrest⟩ := ih h.2 (t.set p.1 v) m₁
    refine ⟨t', m₂, ?_⟩
    rw [evaluatePairs, run_bind, hitem]
    exact hrest

/-- By induction on the literal: with a depth that is enough for it, it has a value. -/
theorem hasValue_of_isLiteral {node : Node} (h : node.IsLiteral) :
    ∃ n, ∀ depth ≥ n, ∀ e, HasValue (.ofDepth depth) e node := by
  induction h with
  | number value =>
    refine ⟨1, fun depth hdepth e m => ?_⟩
    obtain ⟨depth, rfl⟩ := Nat.exists_eq_add_of_le' hdepth
    exact ⟨_, _, rfl⟩
  | negative value =>
    refine ⟨2, fun depth hdepth e m => ?_⟩
    obtain ⟨depth, rfl⟩ := Nat.exists_eq_add_of_le' hdepth
    cases value <;> exact ⟨_, _, rfl⟩
  | @text s hplain =>
    refine ⟨1, fun depth hdepth e m => ?_⟩
    obtain ⟨depth, rfl⟩ := Nat.exists_eq_add_of_le' hdepth
    refine ⟨.text s, { m with current := e }, run_bind_eq_ok.2 ⟨(), _, rfl, ?_⟩⟩
    dsimp only
    rw [evaluateText_plain hplain]
    rfl
  | list hitems ih =>
    obtain ⟨n, hn⟩ := exists_depth_of_forall ih
    refine ⟨n + 1, fun depth hdepth e m => ?_⟩
    obtain ⟨depth, rfl⟩ := Nat.exists_eq_add_of_le' (Nat.le_of_add_left_le hdepth)
    obtain ⟨vs, m₁, hvalues⟩ := exists_run_evaluateAll (g := .ofDepth depth) (e := e)
      (fun item hitem => hn depth (by omega) item hitem e) { m with current := e }
    exact ⟨_, _, run_bind_eq_ok.2 ⟨(), _, rfl, run_bind_eq_ok.2 ⟨vs, m₁, hvalues, rfl⟩⟩⟩
  | dict hpairs ih =>
    obtain ⟨n, hn⟩ := exists_depth_of_forall ih
    refine ⟨n + 1, fun depth hdepth e m => ?_⟩
    obtain ⟨depth, rfl⟩ := Nat.exists_eq_add_of_le' (Nat.le_of_add_left_le hdepth)
    obtain ⟨t, m₁, hvalues⟩ := exists_run_evaluatePairs (g := .ofDepth depth) (e := e)
      (fun p hp => hn depth (by omega) p hp e) [] { m with current := e }
    exact ⟨_, _, run_bind_eq_ok.2 ⟨(), _, rfl, run_bind_eq_ok.2 ⟨t, m₁, hvalues, rfl⟩⟩⟩

end Exec

end ScriptLang
