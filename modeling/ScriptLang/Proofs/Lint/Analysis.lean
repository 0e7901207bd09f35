import ScriptLang.Lint.Analysis
import ScriptLang.Proofs.Scope.Basic

/-!
# How an analysis proceeds

Whatever it walks through, an analysis only adds to what it has found, it leaves all scopes but the
innermost one as they were, and it is never without a scope. So a block, which has a scope of its
own, leaves all of them so.
-/

namespace ScriptLang

namespace Analysis

variable {a b c : Analysis} {x y : String} {readOnly : Bool}

/-! ### Declarations -/

/-- Whether a name is declared depends on the scopes only. -/
theorem declaration?_congr (h : a.scopes = b.scopes) (x : String) :
    a.declaration? x = b.declaration? x := by
  rw [declaration?, declaration?, h]

@[simp] theorem declaration?_push (a : Analysis) (x : String) :
    a.push.declaration? x = a.declaration? x := rfl

theorem declaration?_declare (h : a.scopes ≠ []) (x y : String) (readOnly : Bool) :
    (a.declare x readOnly).declaration? y =
      if x = y then some readOnly else a.declaration? y := by
  obtain ⟨scope, rest, hscopes⟩ := List.exists_cons_of_ne_nil h
  by_cases hx : x = y <;>
    simp [declare, declaration?, hscopes, List.findSome?_cons, Table.get?_set, hx]

/-- Declaring some names one after the other. -/
theorem declaration?_declareAll (h : a.scopes ≠ []) (names : List String) (y : String) :
    (names.foldl (fun a x => a.declare x readOnly) a).declaration? y =
      if y ∈ names then some readOnly else a.declaration? y := by
  induction names generalizing a with
  | nil => simp
  | cons x names ih =>
    have hopen : (a.declare x readOnly).scopes ≠ [] := by
      obtain ⟨scope, rest, hscopes⟩ := List.exists_cons_of_ne_nil h
      simp [declare, hscopes]
    rw [List.foldl_cons, ih hopen, declaration?_declare h]
    by_cases hx : x = y
    · simp [hx]
    · simp [hx, Ne.symm hx]

theorem declaration?_start (names : List String) (y : String) :
    (start names []).declaration? y = if y ∈ names then some false else none :=
  declaration?_declareAll (List.cons_ne_nil _ _) names y

/-! ### What grows -/

/-- The second analysis comes after the first one in the same scope. -/
structure Grows (a b : Analysis) : Prop where
  depth : b.scopes.length = a.scopes.length
  outer : b.scopes.tail = a.scopes.tail
  /-- The innermost scope still declares what it declared. -/
  inner : ∀ x, (a.scopes.headD []).has x → (b.scopes.headD []).has x
  notices : a.notices <+: b.notices
  failed : a.scopes ≠ [] → b.failed = a.failed

namespace Grows

@[refl, grind .]
theorem refl (a : Analysis) : Grows a a :=
  ⟨rfl, rfl, fun _ h => h, List.prefix_rfl, fun _ => rfl⟩

theorem scopes_ne_nil (h : Grows a b) (ha : a.scopes ≠ []) : b.scopes ≠ [] := by
  rwa [← List.length_pos_iff, h.depth, List.length_pos_iff]

theorem trans (h : Grows a b) (h' : Grows b c) : Grows a c :=
  ⟨h'.depth.trans h.depth, h'.outer.trans h.outer, fun x hx => h'.inner x (h.inner x hx),
    h.notices.trans h'.notices, fun ha => (h'.failed (h.scopes_ne_nil ha)).trans (h.failed ha)⟩

/-- What happens in a scope of its own leaves the scopes as they were. -/
theorem scopes_pop (h : Grows a.push b) : b.pop.scopes = a.scopes := h.outer

/-- What happens in a scope of its own adds at most to what was found. -/
theorem pop (h : Grows a.push b) : Grows a b.pop := by
  have hscopes := h.scopes_pop
  have hopen := h.scopes_ne_nil (List.cons_ne_nil _ _)
  refine ⟨by rw [hscopes], by rw [hscopes], fun x hx => by rwa [hscopes], h.notices, fun _ => ?_⟩
  rw [Analysis.pop, h.failed (List.cons_ne_nil _ _), List.isEmpty_eq_false_iff.2 hopen]
  exact Bool.or_false a.failed

theorem declare (a : Analysis) (x : String) (readOnly : Bool) : Grows a (a.declare x readOnly) := by
  unfold Analysis.declare
  split
  · next h => exact ⟨rfl, rfl, fun _ hy => hy, List.prefix_rfl, absurd h⟩
  · next scope rest h =>
    refine ⟨by simp [h], by simp [h], fun y hy => ?_, List.prefix_rfl, fun _ => rfl⟩
    rw [h] at hy
    simpa [Table.has_set] using .inr hy

theorem declareUsed (a : Analysis) (x : String) : Grows a (a.declareUsed x) := by
  rw [Analysis.declareUsed]
  split
  · rfl
  · exact declare ..

theorem note (a : Analysis) (n : Notice) : Grows a (a.note n) :=
  ⟨rfl, rfl, fun _ h => h, List.prefix_append .., fun _ => rfl⟩

theorem use (a : Analysis) (x : String) : Grows a (a.use x) := by
  rw [Analysis.use]
  split
  · rfl
  · exact note ..

theorem useFunction (a : Analysis) (x : String) : Grows a (a.useFunction x) := by
  rw [Analysis.useFunction]
  split
  · rfl
  · exact note ..

theorem assign (a : Analysis) (x : String) : Grows a (a.assign x) := by
  rw [Analysis.assign]
  split
  · exact note ..
  · exact note ..
  · rfl

theorem bind (a : Analysis) (name : Option String) (declares readOnly : Bool) :
    Grows a (a.bind name declares readOnly) := by
  unfold Analysis.bind
  split
  · rfl
  · rfl
  · rfl
  · split
    · exact declare ..
    · exact assign ..

end Grows

/-- Walking through a part of a program, whatever it is. -/
theorem grows_all :
    (∀ (n : Node) (a : Analysis), Grows a (analyze n a)) ∧
    (∀ (params : List (String × String × Node)) (a : Analysis), Grows a (analyzeParams params a)) ∧
    (∀ (pairs : List (String × Node)) (a : Analysis), Grows a (analyzePairs pairs a)) ∧
    ∀ (nodes : List Node) (a : Analysis), Grows a (analyzeAll nodes a) := by
  apply analyze.mutual_induct
  all_goals intros
  all_goals simp only [analyze, analyzeAll, analyzePairs, analyzeParams]
  all_goals grind [Grows.trans, Grows.pop, Grows.declare, Grows.declareUsed, Grows.use,
    Grows.useFunction, Grows.bind]

/-- The analysis grows in its scope, whatever node it walks through. -/
theorem grows_analyze (n : Node) (a : Analysis) : Grows a (analyze n a) := grows_all.1 n a

theorem grows_analyzeAll (nodes : List Node) (a : Analysis) : Grows a (analyzeAll nodes a) :=
  grows_all.2.2.2 nodes a

/-- If nothing is found in the end, nothing was found on the way. -/
theorem Grows.notices_eq_nil (h : Grows a b) (hb : b.notices = []) : a.notices = [] :=
  List.prefix_nil.1 (hb ▸ h.notices)

/-- With a scope to start from, an analysis never fails for want of one. It ends as deep as it
started, changes the innermost scope only, where all that was declared stays declared, and adds to
what was found. -/
theorem analyze_keeps_scopes (n : Node) (h : a.scopes ≠ []) :
    (analyze n a).failed = a.failed ∧ (analyze n a).scopes.length = a.scopes.length ∧
      (analyze n a).scopes.tail = a.scopes.tail ∧
      (∀ x, (a.scopes.headD []).has x → ((analyze n a).scopes.headD []).has x) ∧
      a.notices <+: (analyze n a).notices := by
  have hgrows := grows_analyze n a
  exact ⟨hgrows.failed h, hgrows.depth, hgrows.outer, hgrows.inner, hgrows.notices⟩

/-- Two scopes and a notice from before, and a guarded statement that declares a name without a
block. -/
theorem analyze_keeps_scopes_catching :
    let a : Analysis := { scopes := [[("x", true)], [("y", false)]], notices := [.unbound "z"] }
    let b := analyze (.tryCatch (.varDecl "x" "" (.name "w")) "e" (.block [.name "e"])) a
    a.scopes ≠ [] ∧ b.failed = false ∧ b.scopes.length = 2 ∧ b.scopes.tail = [[("y", false)]] ∧
      a.notices <+: b.notices := by
  have ha : [[("x", true)], [("y", false)]] ≠ [] := nofun
  obtain ⟨hfailed, hdepth, houter, -, hnotices⟩ := analyze_keeps_scopes
    (a := { scopes := _, notices := [.unbound "z"] })
    (.tryCatch (.varDecl "x" "" (.name "w")) "e" (.block [.name "e"])) ha
  exact ⟨ha, hfailed, hdepth, houter, hnotices⟩

/-- A block leaves all scopes as they were. -/
theorem scopes_analyze_block (nodes : List Node) (a : Analysis) :
    (analyze (.block nodes) a).scopes = a.scopes :=
  (grows_analyzeAll nodes a.push).scopes_pop

end Analysis

/-! ### The structured core -/

namespace Node

/-- An expression of literals, names and operators. Its names are among those in `S`, and its texts
embed no expressions. -/
inductive Plain (S : String → Prop) : Node → Prop where
  | number (value : Literal) : Plain S (.number value)
  | text {s : String} : ¬ ['\\', '('] <:+: s.toList → Plain S (.text s)
  | name {id : String} : S id → Plain S (.name id)
  | list {items : List Node} : (∀ item ∈ items, Plain S item) → Plain S (.list items)
  | dict {pairs : List (String × Node)} : (∀ p ∈ pairs, Plain S p.2) → Plain S (.dict pairs)
  | binary {left right : Node} (op : BinaryOp) : Plain S left → Plain S right →
      Plain S (.binary left op right)
  | unary {operand : Node} (op : UnaryOp) : Plain S operand → Plain S (.unary op operand)
  | ternary {condition ifTrue ifFalse : Node} : Plain S condition → Plain S ifTrue →
      Plain S ifFalse → Plain S (.ternary condition ifTrue ifFalse)

/-- A statement of the core of the language: declarations, assignments to names, expressions,
conditionals, loops and guarded blocks, with plain expressions. -/
inductive Core : Node → Prop where
  | assign {name : String} {expr : Node} (b : Binding) : name ≠ "" → Plain (fun _ => True) expr →
      Core (.assign (some name) expr .absent b)
  | augAssign {name : String} {expr : Node} (op : AssignOp) : name ≠ "" →
      Plain (fun _ => True) expr → Core (.augAssign (some name) op expr .absent)
  | exprStmt {expr : Node} : Plain (fun _ => True) expr → Core (.exprStmt expr)
  | block {body : List Node} : (∀ s ∈ body, Core s) → Core (.block body)
  | ifThen {condition : Node} {body : List Node} : Plain (fun _ => True) condition →
      Core (.block body) → Core (.ifStmt condition (.block body) .absent)
  | ifElse {condition : Node} {body other : List Node} : Plain (fun _ => True) condition →
      Core (.block body) → Core (.block other) →
      Core (.ifStmt condition (.block body) (.block other))
  | elseIf {condition condition' thenBlock elseBlock : Node} {body : List Node} :
      Plain (fun _ => True) condition → Core (.block body) →
      Core (.ifStmt condition' thenBlock elseBlock) →
      Core (.ifStmt condition (.block body) (.ifStmt condition' thenBlock elseBlock))
  | whileStmt {condition : Node} {body : List Node} : Plain (fun _ => True) condition →
      Core (.block body) → Core (.whileStmt condition (.block body))
  | forStmt {iterable : Node} {body : List Node} (binder : String) :
      Plain (fun _ => True) iterable → Core (.block body) →
      Core (.forStmt binder iterable (.block body))
  | tryCatch {body handler : List Node} (binder : String) : Core (.block body) →
      Core (.block handler) → Core (.tryCatch (.block body) binder (.block handler))
  | breakStmt : Core .breakStmt
  | continueStmt : Core .continueStmt

/-- The parts of a conditional. -/
theorem Core.of_ifStmt {condition thenBlock elseBlock : Node}
    (h : Core (.ifStmt condition thenBlock elseBlock)) :
    Plain (fun _ => True) condition ∧ Core thenBlock ∧ (∃ body, thenBlock = .block body) ∧
      (elseBlock.isAbsent = false → Core elseBlock) := by
  cases h with
  | ifThen hc hbody => exact ⟨hc, hbody, ⟨_, rfl⟩, nofun⟩
  | ifElse hc hbody hother => exact ⟨hc, hbody, ⟨_, rfl⟩, fun _ => hother⟩
  | elseIf hc hbody hother => exact ⟨hc, hbody, ⟨_, rfl⟩, fun _ => hother⟩

mutual

def declared : Node → List String
  | .assign (some id) _ _ b => if b.declare && id != "_" then [id] else []
  | .block statements => declaredAll statements
  | .ifStmt _ thenBlock elseBlock => declared thenBlock ++ declared elseBlock
  | .whileStmt _ body => declared body
  | .forStmt binder _ body => (if binder == "_" then [] else [binder]) ++ declared body
  | .tryCatch tryBlock binder catchBlock => declared tryBlock ++ binder :: declared catchBlock
  | _ => []

def declaredAll : List Node → List String
  | [] => []
  | n :: rest => declared n ++ declaredAll rest

end

end Node

namespace Analysis

variable {a b : Analysis}

open Node (Plain Core declared declaredAll)

theorem scopes_analyzeAll {nodes : List Node}
    (h : ∀ n ∈ nodes, ∀ a, (analyze n a).scopes = a.scopes) (a : Analysis) :
    (analyzeAll nodes a).scopes = a.scopes := by
  induction nodes generalizing a with
  | nil => rfl
  | cons n nodes ih =>
    rw [analyzeAll, ih fun n hn => h n (List.mem_cons_of_mem _ hn)]
    exact h n List.mem_cons_self a

theorem analyzePairs_eq (pairs : List (String × Node)) (a : Analysis) :
    analyzePairs pairs a = analyzeAll (pairs.map Prod.snd) a := by
  induction pairs generalizing a with
  | nil => rfl
  | cons p pairs ih => exact ih _

theorem scopes_use (a : Analysis) (x : String) : (a.use x).scopes = a.scopes := by
  rw [use]
  split <;> rfl

theorem scopes_analyze_plain {S : String → Prop} {n : Node} (h : Plain S n) (a : Analysis) :
    (analyze n a).scopes = a.scopes := by
  induction h generalizing a with
  | number value => rfl
  | text _ => rfl
  | @name id _ => exact scopes_use a id
  | list _ ih => exact scopes_analyzeAll ih a
  | dict _ ih =>
    rw [analyze, analyzePairs_eq]
    exact scopes_analyzeAll (List.forall_mem_map.2 ih) a
  | binary op _ _ ihleft ihright => rw [analyze, ihright, ihleft]
  | unary op _ ih => rw [analyze, ih]
  | ternary _ _ _ ihcondition ihtrue ihfalse => rw [analyze, ihfalse, ihtrue, ihcondition]

/-- A part of a list is walked through with some analysis, in which nothing is found either. -/
theorem exists_analyze_of_mem {nodes : List Node} {n : Node} (hn : n ∈ nodes)
    (h : ∀ n ∈ nodes, ∀ a, (analyze n a).scopes = a.scopes)
    (hnone : (analyzeAll nodes a).notices = []) :
    ∃ b, b.scopes = a.scopes ∧ (analyze n b).notices = [] := by
  induction nodes generalizing a with
  | nil => cases hn
  | cons k nodes ih =>
    rcases List.mem_cons.1 hn with rfl | hn
    · exact ⟨a, rfl, (grows_analyzeAll nodes _).notices_eq_nil hnone⟩
    · obtain ⟨b, hb, hfound⟩ := ih hn (fun n hn => h n (List.mem_cons_of_mem _ hn)) hnone
      exact ⟨b, hb.trans (h k List.mem_cons_self a), hfound⟩

/-- If nothing is found in a plain expression, its names are declared. -/
theorem plain_of_notices_eq_nil {n : Node} (h : Plain (fun _ => True) n) (hb : b.scopes = a.scopes)
    (hnone : (analyze n b).notices = []) : Plain (fun x => (a.declaration? x).isSome) n := by
  induction h generalizing b with
  | number value => exact .number value
  | text htext => exact .text htext
  | @name id _ =>
    refine .name ?_
    rw [← declaration?_congr hb]
    by_contra hid
    simp [analyze, use, hid, note] at hnone
  | list hitems ih =>
    refine .list fun item hitem => ?_
    obtain ⟨c, hc, hfound⟩ := exists_analyze_of_mem hitem
      (fun n hn => scopes_analyze_plain (hitems n hn)) hnone
    exact ih item hitem (hc.trans hb) hfound
  | dict hpairs ih =>
    rw [analyze, analyzePairs_eq] at hnone
    refine .dict fun p hp => ?_
    obtain ⟨c, hc, hfound⟩ := exists_analyze_of_mem (List.mem_map_of_mem hp)
      (List.forall_mem_map.2 fun p hp => scopes_analyze_plain (hpairs p hp)) hnone
    exact ih p hp (hc.trans hb) hfound
  | binary op hleft hright ihleft ihright =>
    have hscopes := (scopes_analyze_plain hleft b).trans hb
    exact .binary op (ihleft hb ((grows_analyze _ _).notices_eq_nil hnone)) (ihright hscopes hnone)
  | unary op _ ih => exact .unary op (ih hb hnone)
  | @ternary condition ifTrue ifFalse hcondition htrue hfalse ihcondition ihtrue ihfalse =>
    have hscopes := (scopes_analyze_plain hcondition b).trans hb
    have hscopes' := (scopes_analyze_plain htrue _).trans hscopes
    have hnone' : (analyze ifTrue (analyze condition b)).notices = [] :=
      (grows_analyze ifFalse _).notices_eq_nil hnone
    exact .ternary (ihcondition hb ((grows_analyze _ _).notices_eq_nil hnone'))
      (ihtrue hscopes hnone') (ihfalse hscopes' hnone)

theorem bind_some {x : String} (hx : x ≠ "") (a : Analysis) (declares readOnly : Bool) :
    a.bind (some x) declares readOnly =
      if x = "_" then a else if declares then a.declare x readOnly else a.assign x := by
  by_cases h : x = "_"
  · subst h
    rfl
  · simp [bind, h]

theorem scopes_assign (a : Analysis) (x : String) : (a.assign x).scopes = a.scopes := by
  rw [assign]
  split <;> rfl

/-- An assignment in which nothing is found is to a declared name that is not read-only. -/
theorem declaration?_of_assign {x : String} (h : (a.assign x).notices = []) :
    a.declaration? x = some false := by
  rw [assign] at h
  split at h
  · simp [note] at h
  · simp [note] at h
  · assumption

/-- An assignment walks through its expression, and then declares or assigns its name. -/
theorem analyze_assign {x : String} (hx : x ≠ "") (expr : Node) (b : Binding) (a : Analysis) :
    analyze (.assign (some x) expr .absent b) a =
      if x = "_" then analyze expr a
      else if b.declare then (analyze expr a).declare x b.readOnly
      else (analyze expr a).assign x :=
  bind_some hx ..

theorem analyze_augAssign {x : String} (hx : x ≠ "") (op : AssignOp) (expr : Node) (a : Analysis) :
    analyze (.augAssign (some x) op expr .absent) a =
      if x = "_" then analyze expr a else (analyze expr a).assign x :=
  bind_some hx ..

/-- The scopes after a core statement are the same, unless it is a declaration. -/
theorem scopes_analyze_core {s : Node} (h : Core s) (a : Analysis) :
    (analyze s a).scopes = a.scopes ∨ ∃ x expr b, s = .assign (some x) expr .absent b ∧
      declared s = [x] ∧ (analyze s a).scopes = ((analyze expr a).declare x b.readOnly).scopes := by
  have hblock {c : Node} (hc : Plain (fun _ => True) c) (body : List Node) (a : Analysis) :
      (analyze (.block body) (analyze c a)).scopes = a.scopes :=
    (scopes_analyze_block body _).trans (scopes_analyze_plain hc a)
  induction h generalizing a with
  | @assign x expr b hx hexpr =>
    have hsame := scopes_analyze_plain hexpr a
    rw [analyze_assign hx]
    split_ifs with hunused hdeclares
    · exact .inl hsame
    · exact .inr ⟨x, expr, b, rfl, by simp [declared, hdeclares, hunused], rfl⟩
    · exact .inl ((scopes_assign _ x).trans hsame)
  | @augAssign x expr op hx hexpr =>
    have hsame := scopes_analyze_plain hexpr a
    rw [analyze_augAssign hx]
    split_ifs
    · exact .inl hsame
    · exact .inl ((scopes_assign _ x).trans hsame)
  | exprStmt hexpr => exact .inl (scopes_analyze_plain hexpr a)
  | block _ => exact .inl (scopes_analyze_block _ a)
  | ifThen hc _ => exact .inl (hblock hc _ a)
  | ifElse hc _ _ => exact .inl ((scopes_analyze_block _ _).trans (hblock hc _ a))
  | @elseIf _ _ _ _ body hc _ _ _ ih =>
    obtain hsame | ⟨_, _, _, ⟨⟩, _⟩ := ih _
    exact .inl (hsame.trans (hblock hc body a))
  | whileStmt hc _ => exact .inl (hblock hc _ a)
  | @forStmt iterable body binder hiterable _ =>
    have hgrows := (Grows.declareUsed (analyze iterable a).push binder).trans
      (grows_analyze (.block body) _)
    exact .inl (hgrows.scopes_pop.trans (scopes_analyze_plain hiterable a))
  | @tryCatch body handler binder _ _ =>
    have hgrows := (Grows.declare (analyze (.block body) a).push binder false).trans
      (grows_analyze (.block handler) _)
    exact .inl (hgrows.scopes_pop.trans (scopes_analyze_block body a))
  | breakStmt => exact .inl rfl
  | continueStmt => exact .inl rfl

/-- A core statement declares no other names than those it says. -/
theorem declaration?_analyze_core {s : Node} (h : Core s) (ha : a.scopes ≠ []) {x : String}
    (hx : x ∉ declared s) : (analyze s a).declaration? x = a.declaration? x := by
  obtain hsame | ⟨y, expr, b, rfl, hdeclared, hscopes⟩ := scopes_analyze_core h a
  · exact declaration?_congr hsame x
  · cases h with
    | assign b hy hexpr =>
      have hsame := scopes_analyze_plain hexpr a
      rw [declaration?_congr hscopes, declaration?_declare (hsame ▸ ha), if_neg,
        declaration?_congr hsame]
      rintro rfl
      exact hx (by simp [hdeclared])

/-! ### Accepted programs -/

/-- The walk from `a` to `b` finds nothing, and the names `D` that it declares are new and
distinct. -/
structure Accepts (a b : Analysis) (D : List String) : Prop where
  scopes_ne_nil : a.scopes ≠ []
  notices : b.notices = []
  nodup : D.Nodup
  fresh : ∀ x ∈ D, a.declaration? x = none

/-- The first of some statements is accepted, and then the others are. -/
theorem Accepts.cons {s : Node} {rest : List Node} (hs : Core s)
    (h : Accepts a (analyzeAll (s :: rest) a) (declaredAll (s :: rest))) :
    Accepts a (analyze s a) (declared s) ∧
      Accepts (analyze s a) (analyzeAll rest (analyze s a)) (declaredAll rest) := by
  obtain ⟨hopen, hnotices, hnodup, hfresh⟩ := h
  obtain ⟨hfirst, hrest, hdisjoint⟩ := List.nodup_append.1 hnodup
  have hgrows := grows_analyze s a
  refine ⟨⟨hopen, (grows_analyzeAll rest _).notices_eq_nil hnotices, hfirst,
    fun x hx => hfresh x (List.mem_append_left _ hx)⟩, ⟨?_, hnotices, hrest, fun x hx => ?_⟩⟩
  · intro hnil
    exact hopen (List.length_eq_zero_iff.1 (by rw [← hgrows.depth, hnil]; rfl))
  · rw [declaration?_analyze_core hs hopen fun hmem => hdisjoint x hmem x hx rfl]
    exact hfresh x (List.mem_append_right _ hx)

/-- A part that is walked through from the same scopes. -/
theorem Accepts.part {a' b' : Analysis} {D D' : List String} (h : Accepts a b D)
    (hscopes : a'.scopes = a.scopes) (hD : D'.Sublist D) (hnotices : b'.notices = []) :
    Accepts a' b' D' :=
  ⟨hscopes ▸ h.scopes_ne_nil, hnotices, hD.nodup h.nodup, fun x hx => by
    rw [declaration?_congr hscopes, h.fresh x (hD.subset hx)]⟩

/-- A part that is walked through in a scope of its own. -/
theorem Accepts.push {D : List String} (h : Accepts a b D) : Accepts a.push b D :=
  ⟨List.cons_ne_nil _ _, h.notices, h.nodup, h.fresh⟩

/-- A part that is walked through in a scope of its own with a name declared in it. -/
theorem Accepts.bound {a' b' : Analysis} {D D' : List String} {x : String} (h : Accepts a b D)
    (hscopes : a'.scopes = a.scopes) (hD : (x :: D').Sublist D) (hnotices : b'.notices = []) :
    Accepts (a'.push.declare x false) b' D' := by
  have hnodup := hD.nodup h.nodup
  refine ⟨List.cons_ne_nil _ _, hnotices, (List.nodup_cons.1 hnodup).2, fun y hy => ?_⟩
  have hne : x ≠ y := fun heq => (List.nodup_cons.1 hnodup).1 (heq ▸ hy)
  rw [declaration?_declare (List.cons_ne_nil _ _), if_neg hne, declaration?_push,
    declaration?_congr hscopes]
  exact h.fresh y (hD.subset (List.mem_cons_of_mem x hy))

theorem Accepts.of_block {body : List Node}
    (h : Accepts a (analyze (.block body) a) (declared (.block body))) :
    Accepts a.push (analyzeAll body a.push) (declaredAll body) :=
  ⟨List.cons_ne_nil _ _, h.notices, h.nodup, h.fresh⟩

end Analysis

end ScriptLang
