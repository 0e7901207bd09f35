import ScriptLang.Lint.Analysis

/-!
# Declaring more names

Two analyses of the same program are compared, of which the second one starts with more names
declared in its outermost scope, none of them read-only. Whatever they walk through, they stay so
related: names are declared and scopes are opened and closed alike in both. A name is therefore
found with the same declaration in both, or only in the second one, and then it can be used and
assigned there. So the second analysis finds what the first one does, less some of the complaints
that an additional name is missing.
-/

namespace ScriptLang

def Notice.saysMissing (names : List String) : Notice → Bool
  | .unbound x | .unboundFunction x => names.contains x
  | _ => false

namespace Analysis

variable {names : List String} {a b a' b' a'' b'' : Analysis} {x : String} {n : Notice}

/-! ### Stacks of scopes -/

/-- The second declaration of a name is the first one, or there is no first one and the name is an
additional one that is not read-only. -/
def Adds (names : List String) (x : String) (d d' : Option Bool) : Prop :=
  d' = d ∨ x ∈ names ∧ d = none ∧ d' = some false

/-- The stacks are equal, except that the outermost scope of the second one may declare some of the
given names besides, none of them read-only. -/
inductive Wider (names : List String) : List (Table Bool) → List (Table Bool) → Prop where
  | outermost {s t : Table Bool} : (∀ x, Adds names x (s.get? x) (t.get? x)) → Wider names [s] [t]
  | inner (s : Table Bool) {ss ts : List (Table Bool)} : Wider names ss ts →
      Wider names (s :: ss) (s :: ts)

abbrev Widened (names : List String) (a b : Analysis) : Prop := Wider names a.scopes b.scopes

/-- An additional name is hidden by what is declared further inside. -/
theorem Wider.findSome? {ss ts : List (Table Bool)} (h : Wider names ss ts) (x : String) :
    Adds names x (ss.findSome? fun scope => scope.get? x)
      (ts.findSome? fun scope => scope.get? x) := by
  induction h with
  | @outermost s t hadds =>
    have hone (s : Table Bool) : [s].findSome? (fun scope => scope.get? x) = s.get? x := by
      cases hget : s.get? x <;> simp [hget]
    rw [hone, hone]
    exact hadds x
  | inner s _ ih =>
    rw [List.findSome?_cons, List.findSome?_cons]
    cases s.get? x with
    | some d => exact .inl rfl
    | none => exact ih

theorem Wider.ne_nil {ss ts : List (Table Bool)} (h : Wider names ss ts) : ss ≠ [] := by
  cases h <;> exact List.cons_ne_nil _ _

/-- A name is declared in both analyses alike, unless it is an additional one. -/
theorem Widened.declaration? (h : Widened names a b) (x : String) :
    Adds names x (a.declaration? x) (b.declaration? x) := h.findSome? x

theorem Widened.declare (h : Widened names a b) (x : String) (readOnly : Bool) :
    Widened names (a.declare x readOnly) (b.declare x readOnly) := by
  obtain ⟨as, _⟩ := a
  obtain ⟨bs, _⟩ := b
  cases h with
  | @outermost s t hadds =>
    refine .outermost fun y => ?_
    rw [Table.get?_set, Table.get?_set]
    split
    · exact .inl rfl
    · exact hadds y
  | inner s h => exact .inner (s.set x readOnly) h

theorem Widened.push (h : Widened names a b) : Widened names a.push b.push := .inner [] h

/-! ### Walking in step -/

/-- One analysis goes from `a` to `a'` while the other one goes from `b` to `b'`. What the second
one finds on the way is found by the first one too, in the same order, and what only the first one
finds is that an additional name is missing. -/
structure Parallel (names : List String) (a b a' b' : Analysis) : Prop where
  widened : Widened names a' b'
  depth : a'.scopes.length = a.scopes.length
  notices : ∃ found found', a'.notices = a.notices ++ found ∧ b'.notices = b.notices ++ found' ∧
    found'.Sublist found ∧ (found.filter fun n => !n.saysMissing names).Sublist found'

namespace Parallel

theorem trans (h : Parallel names a b a' b') (h' : Parallel names a' b' a'' b'') :
    Parallel names a b a'' b'' := by
  obtain ⟨found, found', ha, hb, hsub, hrest⟩ := h.notices
  obtain ⟨more, more', ha', hb', hsub', hrest'⟩ := h'.notices
  refine ⟨h'.widened, h'.depth.trans h.depth, found ++ more, found' ++ more', ?_, ?_, ?_, ?_⟩
  · rw [ha', ha, List.append_assoc]
  · rw [hb', hb, List.append_assoc]
  · exact hsub.append hsub'
  · rw [List.filter_append]
    exact hrest.append hrest'

/-- The walks go on from where they are. -/
theorem next (h : Parallel names a b a' b')
    (h' : Widened names a' b' → Parallel names a' b' a'' b'') : Parallel names a b a'' b'' :=
  h.trans (h' h.widened)

/-- Nothing is found on the way. -/
theorem silent (h : Widened names a' b') (hdepth : a'.scopes.length = a.scopes.length)
    (ha : a'.notices = a.notices) (hb : b'.notices = b.notices) : Parallel names a b a' b' :=
  ⟨h, hdepth, [], [], by simp [ha, hb]⟩

theorem refl (h : Widened names a b) : Parallel names a b a b := silent h rfl rfl rfl

/-- What happens in scopes of their own leaves the scopes around them in step. -/
theorem pop (hab : Widened names a b) (h : Parallel names a.push b.push a' b') :
    Parallel names a b a'.pop b'.pop := by
  obtain ⟨as, _⟩ := a'
  obtain ⟨bs, _⟩ := b'
  obtain ⟨hwidened, hdepth, hnotices⟩ := h
  cases hwidened with
  | outermost _ => exact absurd (List.length_eq_zero_iff.1 (Nat.succ.inj hdepth).symm) hab.ne_nil
  | inner s hrest => exact ⟨hrest, Nat.succ.inj hdepth, hnotices⟩

theorem declare (h : Widened names a b) (x : String) (readOnly : Bool) :
    Parallel names a b (a.declare x readOnly) (b.declare x readOnly) := by
  have hkept (a : Analysis) : (a.declare x readOnly).scopes.length = a.scopes.length ∧
      (a.declare x readOnly).notices = a.notices := by
    unfold Analysis.declare
    cases a.scopes <;> simp
  exact silent (h.declare x readOnly) (hkept a).1 (hkept a).2 (hkept b).2

theorem declareUsed (h : Widened names a b) (x : String) :
    Parallel names a b (a.declareUsed x) (b.declareUsed x) := by
  unfold Analysis.declareUsed
  split
  · exact refl h
  · exact declare h x false

/-- Both find the same. -/
theorem note (h : Widened names a b) (n : Notice) : Parallel names a b (a.note n) (b.note n) :=
  ⟨h, rfl, [n], [n], rfl, rfl, .refl _, List.filter_sublist⟩

/-- Only the first one misses a name. -/
theorem note_left (h : Widened names a b) (hn : n.saysMissing names = true) :
    Parallel names a b (a.note n) b :=
  ⟨h, rfl, [n], [], rfl, by simp, List.nil_sublist _, by simp [hn]⟩

/-- A use is noted by both analyses, or by the first one only and of an additional name. -/
theorem use (h : Widened names a b) (x : String) : Parallel names a b (a.use x) (b.use x) := by
  unfold Analysis.use
  obtain heq | ⟨hx, hnone, hsome⟩ := h.declaration? x
  · rw [heq]
    split
    · exact refl h
    · exact note h _
  · rw [hnone, hsome]
    exact note_left h (by simpa [Notice.saysMissing] using hx)

theorem useFunction (h : Widened names a b) (x : String) :
    Parallel names a b (a.useFunction x) (b.useFunction x) := by
  unfold Analysis.useFunction
  obtain heq | ⟨hx, hnone, hsome⟩ := h.declaration? x
  · rw [heq]
    split
    · exact refl h
    · exact note h _
  · rw [hnone, hsome]
    exact note_left h (by simpa [Notice.saysMissing] using hx)

/-- An additional name is not read-only, so assigning to it is no other complaint. -/
theorem assign (h : Widened names a b) (x : String) :
    Parallel names a b (a.assign x) (b.assign x) := by
  unfold Analysis.assign
  obtain heq | ⟨hx, hnone, hsome⟩ := h.declaration? x
  · rw [heq]
    split
    · exact note h _
    · exact note h _
    · exact refl h
  · rw [hnone, hsome]
    exact note_left h (by simpa [Notice.saysMissing] using hx)

theorem bind (h : Widened names a b) (name : Option String) (declares readOnly : Bool) :
    Parallel names a b (a.bind name declares readOnly) (b.bind name declares readOnly) := by
  unfold Analysis.bind
  split
  · exact refl h
  · exact refl h
  · exact refl h
  · split
    · exact declare h _ readOnly
    · exact assign h _

end Parallel

mutual

/-- Two analyses walk through a node in step, whatever it is. -/
theorem parallel_analyze {a b : Analysis} (h : Widened names a b) :
    (n : Node) → Parallel names a b (analyze n a) (analyze n b)
  | .absent => .refl h
  | .name id => .use h id
  | .list items => parallel_analyzeAll h items
  | .dict pairs => parallel_analyzePairs h pairs
  | .keyword _ value => parallel_analyze h value
  | .varDecl name _ expr => (parallel_analyze h expr).next fun h => .declareUsed h name
  | .binary left _ right => (parallel_analyze h left).next fun h => parallel_analyze h right
  | .unary _ operand => parallel_analyze h operand
  | .ternary condition ifTrue ifFalse =>
    ((parallel_analyze h condition).next fun h => parallel_analyze h ifTrue).next fun h =>
      parallel_analyze h ifFalse
  | .func name params _ body =>
    (Parallel.declare h name false).next fun h => .pop h
      ((parallel_analyzeParams h.push params).next fun h => parallel_analyzeAll h body)
  | .template name _ => .declare h name false
  | .cls name _ body =>
    (Parallel.declare h name false).next fun h => .pop h (parallel_analyzeAll h.push body)
  | .member object _ => parallel_analyze h object
  | .call callee args => by
    have hcallee := parallel_analyze h callee
    cases callee with
    | name id => exact (Parallel.useFunction h id).next fun h => parallel_analyzeAll h args
    | _ => exact hcallee.next fun h => parallel_analyzeAll h args
  | .exprStmt expr => parallel_analyze h expr
  | .block statements => .pop h (parallel_analyzeAll h.push statements)
  | .ifStmt condition thenBlock elseBlock =>
    ((parallel_analyze h condition).next fun h => parallel_analyze h thenBlock).next fun h =>
      parallel_analyze h elseBlock
  | .forStmt binder iterable body =>
    (parallel_analyze h iterable).next fun h => .pop h
      ((Parallel.declareUsed h.push binder).next fun h => parallel_analyze h body)
  | .whileStmt condition body =>
    (parallel_analyze h condition).next fun h => parallel_analyze h body
  | .returnStmt value => parallel_analyze h value
  | .tryCatch tryBlock binder catchBlock =>
    (parallel_analyze h tryBlock).next fun h => .pop h
      ((Parallel.declare h.push binder false).next fun h => parallel_analyze h catchBlock)
  | .assign name expr target binding => by
    have hexpr := parallel_analyze h expr
    have htarget := parallel_analyze hexpr.widened target
    simp only [analyze]
    split
    · exact hexpr.trans (.bind hexpr.widened name binding.declare binding.readOnly)
    · exact hexpr.trans htarget
  | .augAssign name _ expr target => by
    have hexpr := parallel_analyze h expr
    have htarget := parallel_analyze hexpr.widened target
    simp only [analyze]
    split
    · exact hexpr.trans (.bind hexpr.widened name false false)
    · exact hexpr.trans htarget
  | .number _ | .text _ | .breakStmt | .continueStmt | .shell _ | .intent .. => .refl h

theorem parallel_analyzeAll {a b : Analysis} (h : Widened names a b) :
    (nodes : List Node) → Parallel names a b (analyzeAll nodes a) (analyzeAll nodes b)
  | [] => .refl h
  | n :: rest => (parallel_analyze h n).next fun h => parallel_analyzeAll h rest

theorem parallel_analyzePairs {a b : Analysis} (h : Widened names a b) :
    (pairs : List (String × Node)) →
      Parallel names a b (analyzePairs pairs a) (analyzePairs pairs b)
  | [] => .refl h
  | (_, n) :: rest => (parallel_analyze h n).next fun h => parallel_analyzePairs h rest

theorem parallel_analyzeParams {a b : Analysis} (h : Widened names a b) :
    (params : List (String × String × Node)) →
      Parallel names a b (analyzeParams params a) (analyzeParams params b)
  | [] => .refl h
  | (name, _, default) :: rest =>
    ((Parallel.declareUsed h name).next fun h => parallel_analyze h default).next fun h =>
      parallel_analyzeParams h rest

end

/-- Declaring more names adds no complaints. Two analyses whose scopes differ only by additional
names in the outermost one, none of them read-only, walk through any program. What the second one
finds is found by the first one in the same order, what only the first one finds is that an
additional name is missing, and afterwards their scopes differ only by such names again. -/
theorem sublist_notices_of_widened {a b : Analysis} (h : Widened names a b) (program : Node) :
    ∃ found found', (analyze program a).notices = a.notices ++ found ∧
      (analyze program b).notices = b.notices ++ found' ∧ found'.Sublist found ∧
      (found.filter fun n => !n.saysMissing names).Sublist found' ∧
      Widened names (analyze program a) (analyze program b) := by
  have hwalk := parallel_analyze h program
  obtain ⟨found, found', ha, hb, hsub, hrest⟩ := hwalk.notices
  exact ⟨found, found', ha, hb, hsub, hrest, hwalk.widened⟩

/-- `x` is an additional name, and `y` is read-only. The block assigns to `x`, hides it by a
read-only one, assigns to that one and to `y`, and uses a name that nobody declares. -/
theorem sublist_notices_of_widened_shadowed :
    let a : Analysis := start [] ["y"]
    let b : Analysis := start ["x"] ["y"]
    let program : Node := .block [.assign (some "x") (.number (.int 1)) .absent {},
      .assign (some "x") (.number (.int 2)) .absent { declare := true, readOnly := true },
      .assign (some "x") (.number (.int 3)) .absent {},
      .assign (some "y") (.name "z") .absent {}]
    (analyze program a).notices = [.unbound "x", .readOnly "x", .unbound "z", .readOnly "y"] ∧
      (analyze program b).notices = [.readOnly "x", .unbound "z", .readOnly "y"] ∧
      ∃ found found', (analyze program a).notices = a.notices ++ found ∧
        (analyze program b).notices = b.notices ++ found' ∧ found'.Sublist found ∧
        (found.filter fun n => !n.saysMissing ["x"]).Sublist found' ∧
        Widened ["x"] (analyze program a) (analyze program b) := by
  refine ⟨by decide, by decide, sublist_notices_of_widened (.outermost fun z => ?_) _⟩
  by_cases hx : z = "x"
  · subst hx
    exact .inr ⟨List.mem_singleton_self _, by decide, by decide⟩
  · refine .inl ?_
    simp [Table.get?, Table.set, Ne.symm hx]

end Analysis

end ScriptLang
