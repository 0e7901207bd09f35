import ScriptLang.Proofs.Parse.Printed

/-!
# Printed programs are read back

The parser reads the tokens of a printed program as the program. Each statement is read back if the
blocks in it are, and by induction on the statements all of them are.
-/

namespace ScriptLang

open Grammar

namespace Parse

/-! ### Reading back -/

theorem Ends.stops {F : Token → Prop} {ts : List Token} (h : Ends ts)
    (hF : ∀ t : Token, t.kind ∈ [.semi, .rbrace] → ¬ F t) : Stops F ts :=
  fun t ht => hF t (Decidable.not_not.1 (h.head t ht))

theorem Ends.stops_extending {ts : List Token} (h : Ends ts) : Stops extending ts := by
  refine h.stops fun t ht => not_extending ?_
  simp only [List.mem_cons, List.not_mem_nil, or_false] at ht
  rcases ht with ht | ht <;> simp [ht]

theorem Ends.stops_continuesTarget {ts : List Token} (h : Ends ts) : Stops continuesTarget ts := by
  refine h.stops fun t ht => not_continuesTarget ?_
  simp only [List.mem_cons, List.not_mem_nil, or_false] at ht
  rcases ht with ht | ht <;> simp [ht]

section ReadsBack

variable {w : Spelling} {n : Nat} {s e : Node} {body : List Node}

/-- A printed expression is read back, if the next token does not go on with it. -/
theorem run_bare (h : w.Expression e) {rest : List Token} (hlen : (w.bare e ++ rest).length < n)
    (hrest : Stops extending rest) :
    (Parse.expr false n).run (w.bare e ++ rest) = .ok (e, rest) :=
  (reads_expr n).complete hlen (Spelling.expr_bare h) hrest

theorem run_condition_bare (h : w.Expression e) {rest : List Token}
    (hlen : (w.bare e ++ TokenKind.rparen.token :: rest).length < n) :
    (condition false (Parse.expr false n)).run
      (TokenKind.lparen.token :: (w.bare e ++ TokenKind.rparen.token :: rest)) = .ok (e, rest) :=
  run_condition (run_bare h hlen (stops_cons (not_extending (by decide)) rest))

/-- Printed statements between braces are read back, if each of them is. -/
theorem run_block (hstarts : ∀ s ∈ body, StartsStatement (w.statement s))
    (hreads : ∀ s ∈ body, ∀ n, ReadsBack (Parse.statement false (n + 1)) n (w.statement s) s)
    {rest : List Token} (hlen : (w.statement (.block body) ++ rest).length < n) :
    (braces false n (Parse.statement false n)).run (w.statement (.block body) ++ rest) =
      .ok (body, rest) := by
  obtain ⟨n, rfl⟩ : ∃ m, n = m + 1 := ⟨n - 1, by omega⟩
  have htokens : w.statement (.block body) ++ rest = TokenKind.lbrace.token ::
      (semicolons (body.map w.statement) ++ TokenKind.rbrace.token :: rest) := by
    rw [← Spelling.statements_eq_map]
    exact enclosed_append _ _ _ _
  rw [htokens] at hlen ⊢
  have hrest : Stops (fun t => t.kind ≠ .rbrace) (TokenKind.rbrace.token :: rest) :=
    stops_cons (by decide) rest
  have hbody := run_statementsUntil (k := n + 1) hstarts (fun s hs => hreads s hs n) hrest
    (by simp at hlen ⊢; omega) (by simp at hlen ⊢; omega)
    (skipped_of_stops ((stops_semicolons hstarts hrest).mono fun _ => .inl))
  rw [braces, run_bind_of_ok (run_eat_token _ _), run_bind_of_ok hbody]
  exact run_bind_of_ok (run_eat_token _ _) _

/-- A statement that opens with a word is read back if the parser for the word reads it back. -/
theorem readsBack_word {word : String} {ts : List Token}
    (hts : ∀ rest, Ends rest → Stops continuesTarget (ts ++ rest))
    (h : ∀ rest, (wordToken word :: (ts ++ rest)).length < n → Ends rest → ∃ rest',
      (wordStatement false n (Parse.expr false n) (Parse.statement false n) word).run
        (wordToken word :: (ts ++ rest)) = .ok (some s, rest') ∧ skipped rest' = skipped rest) :
    ReadsBack (Parse.statement false (n + 1)) n (wordToken word :: ts) s := by
  intro rest hlen hends
  obtain ⟨rest', hrun, hrest'⟩ := h rest hlen hends
  refine ⟨rest', ?_, hrest'⟩
  have hlen' : (wordToken word :: (ts ++ rest)).length < n + 1 := Nat.lt_succ_of_lt hlen
  have hstart := startsWithPath_word word (hts rest hends)
  exact (run_statementWith_word (reads_expr n).complete hstart hlen').trans hrun

end ReadsBack

/-! ### First tokens of statements -/

theorem begins_path {E : Phrase Node} : Begins opensExpr (Path E) := by
  intro ts a hts
  induction hts with
  | name ht => exact ⟨_, _, rfl, .inr (.inr (by simp [opensPrimary, ht]))⟩
  | member _ _ _ ih | index _ _ ih =>
    obtain ⟨t, us, rfl, ht⟩ := ih
    exact ⟨t, _, rfl, ht⟩

theorem startsStatement_word {word : String} (h : word ∉ ["else", "elif"]) (ts : List Token) :
    StartsStatement (wordToken word :: ts) := by
  refine ⟨_, _, rfl, by simp [wordToken], ?_⟩
  rintro (hword | hword) <;> simp only [isWord, wordToken, Bool.and_eq_true, beq_iff_eq] at hword
  · exact h (by simp [hword.2])
  · exact h (by simp [hword.2])

theorem startsStatement_phrase {D : Phrase Node} (hD : Begins opensExpr D) {ts : List Token}
    {a : Node} (hts : D ts a) (hfree : StartsFree ts) (us : List Token) :
    StartsStatement (ts ++ us) := by
  obtain ⟨t, vs, rfl, ht⟩ := hD ts a hts
  refine ⟨t, _, rfl, fun hk => ?_, ?_⟩
  · simp only [List.mem_cons, List.not_mem_nil, or_false] at hk
    rcases hk with hk | hk <;> simp [opensExpr, opensPrimary, hk] at ht
  · rintro (hword | hword) <;> simp only [isWord, Bool.and_eq_true, beq_iff_eq] at hword
    · exact hfree t rfl hword.1 (by simp [hword.2, keywords])
    · exact hfree t rfl hword.1 (by simp [hword.2, keywords])

end Parse

namespace Spelling

variable {w : Spelling} {s : Node}

/-- What can be assigned to binds at least as tight as attributes and subscripts do. -/
theorem Target.precedence {t : Node} (h : w.Target t) : 8 ≤ t.precedence := by
  cases h <;> simp [Node.precedence, BinaryOp.precedence]

/-- A printed target is spelled by the grammar as a target. -/
theorem path_bare {t : Node} (h : w.Target t) : Path Expr (w.bare t) t := by
  induction h with
  | name id => exact .name rfl
  | @member a field ha ih =>
    rw [bare, Node.grouped, if_neg (Nat.not_lt.2 ha.precedence)]
    exact ih.member rfl rfl
  | @index a i ha hi ih =>
    rw [bare, if_pos rfl, Node.grouped, if_neg (Nat.not_lt.2 ha.precedence)]
    exact ih.index (enclosed_phrase (expr_bare hi) _ _)

open Parse in
/-- A printed statement starts as a statement does. -/
theorem Statement.starts (h : w.Statement s) : StartsStatement (w.statement s) := by
  cases h with
  | declaration id type readOnly _ => cases readOnly <;> exact startsStatement_word (by simp) _
  | assign hid _ | augAssign _ hid _ =>
    exact startsStatement_word (fun h => hid (by simp_all [keywords])) _
  | assignTarget hfree _ ht _ | augAssignTarget _ hfree _ ht _ =>
    exact startsStatement_phrase begins_path (path_bare ht) hfree _
  | exprStmt hfree he =>
    have hstarts := startsStatement_phrase begins_expr (expr_bare he) hfree []
    rwa [List.append_nil] at hstarts
  | shell _ => exact ⟨_, _, rfl, by simp, not_opensBranch (by simp)⟩
  | intent name hkind =>
    exact startsStatement_word (fun h => by simp_all; grind) _
  | func | template | cls | ifThen | ifElse | elseIf | forStmt | whileStmt | returnStmt | tryCatch
  | breakStmt | continueStmt => exact startsStatement_word (by decide) _

end Spelling

namespace Parse

/-! ### Statements are read back -/

section Statements

variable {w : Spelling} {n : Nat} {e : Node} {body : List Node}

theorem run_some {p : Parse Node} {ts rest : List Token} {a : Node}
    (h : p.run ts = .ok (a, rest)) : (some <$> p).run ts = .ok (some a, rest) := by
  rw [run_map, h]

theorem stops_word (word : String) (ts : List Token) :
    Stops continuesTarget (wordToken word :: ts) :=
  stops_cons (not_continuesTarget (by simp [wordToken])) ts

theorem stops_token {kind : TokenKind} (h : kind ∈ [.lparen, .lbrace]) (ts : List Token) :
    Stops continuesTarget (kind.token :: ts) := by
  refine stops_cons (not_continuesTarget ?_) ts
  simp only [List.mem_cons, List.not_mem_nil, or_false] at h
  rcases h with rfl | rfl <;> decide

/-- A printed declaration is read back. -/
theorem readsBack_declaration (he : w.Expression e) (id type : String) (readOnly : Bool) :
    ReadsBack (Parse.statement false (n + 1)) n
      (w.statement (.assign (some id) e .absent ⟨true, false, false, readOnly, type⟩))
      (.assign (some id) e .absent ⟨true, false, false, readOnly, type⟩) := by
  have hword : wordStatement false n (Parse.expr false n) (Parse.statement false n)
      (if readOnly then "let" else "var") =
        some <$> declaration false (Parse.expr false n) false false := by
    cases readOnly <;> rfl
  change ReadsBack _ n (wordToken (if readOnly then "let" else "var") :: wordToken id ::
    (typeTokens .colon type ++ TokenKind.equal.token :: w.bare e)) _
  refine readsBack_word (fun rest _ => stops_word _ _) fun rest hlen hends => ⟨rest, ?_, rfl⟩
  simp only [List.cons_append, List.append_assoc] at hlen ⊢
  rw [hword]
  refine run_some (run_declaration (run_bare he ?_ hends.stops_extending) id type readOnly _ _)
  simp at hlen ⊢
  omega

/-- An assignment to a path that is printed as the tokens `ts`. -/
theorem readsBack_assignment {ts : List Token} {a : Node} {t : Token} {op : Option AssignOp}
    (hts : Path Expr ts a) (hop : assignOperator? t.kind = some op) (he : w.Expression e) :
    ReadsBack (Parse.statement false (n + 1)) n (ts ++ t :: w.bare e) (assignment a op e) := by
  intro rest hlen hends
  refine ⟨rest, ?_, rfl⟩
  rw [List.append_assoc, List.cons_append] at hlen ⊢
  have hassign := run_assignment?_operator (reads_expr n).complete hts hop (Spelling.expr_bare he)
    (Nat.lt_succ_of_lt hlen) hends.stops_extending
  exact run_bind_of_ok hassign _

/-- The printed targets of assignments, and what an assignment to them is. -/
structure Assigns (w : Spelling) (id : Option String) (target a : Node) : Prop where
  path : Path Expr (w.targetTokens id target) a
  assign (e : Node) : assignment a none e = .assign id e target {}
  augAssign (op : AssignOp) (e : Node) : assignment a (some op) e = .augAssign id op e target

theorem assigns_name (id : String) : Assigns w (some id) .absent (.name id) :=
  ⟨.name rfl, fun _ => rfl, fun _ _ => rfl⟩

theorem assigns_target {t : Node} (ht : w.Target t) (hname : ∀ id, t ≠ .name id) :
    Assigns w none t t := by
  refine ⟨Spelling.path_bare ht, fun e => ?_, fun op e => ?_⟩
  · cases ht with
    | name id => exact absurd rfl (hname id)
    | member _ _ | index _ _ => rfl
  · cases ht with
    | name id => exact absurd rfl (hname id)
    | member _ _ | index _ _ => rfl

/-- A printed assignment is read back, to a name or to another target. -/
theorem readsBack_assign {id : Option String} {t a : Node} (h : Assigns w id t a)
    (he : w.Expression e) :
    ReadsBack (Parse.statement false (n + 1)) n (w.statement (.assign id e t {}))
      (.assign id e t {}) := by
  have hop : assignOperator? TokenKind.equal.token.kind = some none := rfl
  have hread := readsBack_assignment (n := n) h.path hop he
  rw [h.assign] at hread
  exact hread

theorem readsBack_augAssign {id : Option String} {t a : Node} {op : AssignOp}
    (h : Assigns w id t a) (hop : op ∈ [.add, .sub, .mul, .div]) (he : w.Expression e) :
    ReadsBack (Parse.statement false (n + 1)) n (w.statement (.augAssign id op e t))
      (.augAssign id op e t) := by
  have hkind : assignOperator? op.kind.token.kind = some (some op) := by
    cases op with
    | other s => simp at hop
    | add | sub | mul | div => rfl
  have hread := readsBack_assignment (n := n) h.path hkind he
  rw [h.augAssign] at hread
  exact hread

theorem wordStatement_of_free {expr : Parse Node} {statement : Parse (Option Node)} {word : String}
    (h : word ∉ keywords) :
    wordStatement false n expr statement word = (some ∘ Node.exprStmt) <$> expr := by
  unfold wordStatement
  split <;> simp_all [keywords]

/-- A printed expression is read back as a statement, if it starts with no keyword. -/
theorem readsBack_exprStmt (hfree : StartsFree (w.bare e)) (he : w.Expression e) :
    ReadsBack (Parse.statement false (n + 1)) n (w.statement (.exprStmt e)) (.exprStmt e) := by
  intro rest hlen hends
  refine ⟨rest, ?_, rfl⟩
  change (w.bare e ++ rest).length < n at hlen
  change (Parse.statement false (n + 1)).run (w.bare e ++ rest) = _
  have hexpr := Spelling.expr_bare he
  have hnone := run_assignment?_expr (reads_expr n).complete hexpr (Nat.lt_succ_of_lt hlen)
    hends.stops_continuesTarget
  have hrun : ((some ∘ Node.exprStmt) <$> Parse.expr false n).run (w.bare e ++ rest) =
      .ok (some (.exprStmt e), rest) := by
    rw [run_map, run_bare he hlen hends.stops_extending]
    rfl
  rw [Parse.statement, statementWith, run_bind_of_ok hnone]
  obtain ⟨t, us, hts, ht⟩ := begins_expr _ _ hexpr
  rw [hts] at hrun hfree ⊢
  refine (run_bind_of_ok (run_current _) _).trans ?_
  simp only [List.cons_append, List.head?_cons]
  split
  · next hk => rw [wordStatement_of_free (hfree t rfl hk)]; exact hrun
  · next hk => simp [opensExpr, opensPrimary, hk] at ht
  · exact hrun

/-! Statements with blocks are read back if their blocks are. -/

theorem stops_block {F : Token → Prop} {rest : List Token} (h : ¬ F TokenKind.lbrace.token) :
    Stops F (w.statement (.block body) ++ rest) := by
  exact stops_cons h _

def ReadsBlock (w : Spelling) (body : List Node) : Prop :=
  ∀ n rest, (w.statement (.block body) ++ rest).length < n →
    (braces false n (Parse.statement false n)).run (w.statement (.block body) ++ rest) =
      .ok (body, rest)

theorem parameter_phrase {p : String × String × Node}
    (h : p.2.2 ≠ .absent → w.Expression p.2.2) : Parameter Expr (w.paramTokens p) p := by
  obtain ⟨id, type, default⟩ := p
  have hdefault : Default Expr (w.defaultTokens default) default := by
    unfold Spelling.defaultTokens
    split
    · exact .none
    · next hne => exact .some rfl (Spelling.expr_bare (h hne))
  exact .intro rfl (typeAfter_phrase .colon type) hdefault

/-- A printed function is read back with its parameters and its body. -/
theorem readsBack_func {params : List (String × String × Node)} (f returns : String)
    (hparams : ∀ p ∈ params, p.2.2 ≠ .absent → w.Expression p.2.2) (hbody : ReadsBlock w body) :
    ReadsBack (Parse.statement false (n + 1)) n (w.statement (.func f params returns body))
      (.func f params returns body) := by
  have hps : Listed (Parameter Expr) (commas (params.map w.paramTokens)) params :=
    listed_commas params fun p hp => parameter_phrase (hparams p hp)
  change ReadsBack _ n (wordToken "func" :: wordToken f ::
    (enclosed .lparen (commas (params.map w.paramTokens)) .rparen ++ typeTokens .arrow returns ++
      w.statement (.block body))) _
  refine readsBack_word (fun rest _ => stops_word _ _) fun rest hlen hends => ⟨rest, ?_, rfl⟩
  simp only [List.cons_append, List.append_assoc, enclosed_append] at hlen ⊢
  refine run_some (run_function (reads_expr n).complete hps f returns (stops_block (by decide))
    (hbody n rest ?_) ?_)
  · simp at hlen ⊢
    omega
  · simp at hlen ⊢
    omega

theorem readsBack_template (name : String) (hbody : ReadsBlock w body) :
    ReadsBack (Parse.statement false (n + 1)) n (w.statement (.template name body))
      (.template name body) := by
  change ReadsBack _ n (wordToken "template" :: wordToken name :: w.statement (.block body)) _
  refine readsBack_word (fun rest _ => stops_word _ _) fun rest hlen hends => ⟨rest, ?_, rfl⟩
  refine run_some (run_template name (hbody n rest ?_))
  simp at hlen ⊢
  omega

theorem readsBack_cls (name : String) (base : Option String) (hbody : ReadsBlock w body) :
    ReadsBack (Parse.statement false (n + 1)) n (w.statement (.cls name base body))
      (.cls name base body) := by
  change ReadsBack _ n (wordToken "class" :: wordToken name ::
    ((base.map fun b => [TokenKind.colon.token, wordToken b]).getD [] ++
      w.statement (.block body))) _
  refine readsBack_word (fun rest _ => stops_word _ _) fun rest hlen hends => ⟨rest, ?_, rfl⟩
  simp only [List.cons_append, List.append_assoc] at hlen ⊢
  refine run_some (run_classDecl name base (stops_block (by decide)) (hbody n rest ?_))
  simp at hlen ⊢
  omega

theorem readsBack_forStmt (v : String) (he : w.Expression e) (hbody : ReadsBlock w body) :
    ReadsBack (Parse.statement false (n + 1)) n (w.statement (.forStmt v e (.block body)))
      (.forStmt v e (.block body)) := by
  change ReadsBack _ n (wordToken "for" :: wordToken v :: wordToken "in" ::
    (w.bare e ++ w.statement (.block body))) _
  refine readsBack_word (fun rest _ => stops_word _ _) fun rest hlen hends => ⟨rest, ?_, rfl⟩
  simp only [List.cons_append, List.append_assoc] at hlen ⊢
  refine run_some (run_forLoop v (run_bare he ?_ (stops_block (not_extending (by decide))))
    (hbody n rest ?_))
  · simp at hlen ⊢
    omega
  · simp at hlen ⊢
    omega

theorem readsBack_whileStmt (he : w.Expression e) (hbody : ReadsBlock w body) :
    ReadsBack (Parse.statement false (n + 1)) n (w.statement (.whileStmt e (.block body)))
      (.whileStmt e (.block body)) := by
  change ReadsBack _ n (wordToken "while" ::
    (enclosed .lparen (w.bare e) .rparen ++ w.statement (.block body))) _
  refine readsBack_word (fun rest _ => stops_token (by simp) _) fun rest hlen hends =>
    ⟨rest, ?_, rfl⟩
  simp only [List.cons_append, List.append_assoc, enclosed_append] at hlen ⊢
  refine run_some (run_whileLoop (run_condition_bare he ?_) (hbody n rest ?_))
  · simp at hlen ⊢
    omega
  · simp at hlen ⊢
    omega

theorem readsBack_tryCatch {handler : List Node} (v : String) (hbody : ReadsBlock w body)
    (hhandler : ReadsBlock w handler) :
    ReadsBack (Parse.statement false (n + 1)) n
      (w.statement (.tryCatch (.block body) v (.block handler)))
      (.tryCatch (.block body) v (.block handler)) := by
  change ReadsBack _ n (wordToken "do" :: (w.statement (.block body) ++ wordToken "catch" ::
    wordToken v :: w.statement (.block handler))) _
  refine readsBack_word (fun rest _ => stops_token (by simp) _) fun rest hlen hends =>
    ⟨rest, ?_, rfl⟩
  simp only [List.cons_append, List.append_assoc] at hlen ⊢
  refine run_guarded v (hbody n _ ?_) (hhandler n rest ?_)
  · simp at hlen ⊢
    omega
  · simp at hlen ⊢
    omega

theorem readsBack_returnStmt (he : w.Expression e) :
    ReadsBack (Parse.statement false (n + 1)) n (w.statement (.returnStmt e)) (.returnStmt e) := by
  have hgroup : Expr (enclosed .lparen (w.bare e) .rparen) e :=
    level_of_primary (.group (enclosed_phrase (Spelling.expr_bare he) _ _)) 0
  change ReadsBack _ n (wordToken "return" :: enclosed .lparen (w.bare e) .rparen) _
  refine readsBack_word (fun rest _ => stops_token (by simp) _) fun rest hlen hends =>
    ⟨rest, ?_, rfl⟩
  exact run_returnStmt
    ((reads_expr n).complete (Nat.lt_of_succ_lt hlen) hgroup hends.stops_extending)

theorem readsBack_breakStmt :
    ReadsBack (Parse.statement false (n + 1)) n (w.statement .breakStmt) .breakStmt := by
  change ReadsBack _ n [wordToken "break"] _
  exact readsBack_word (fun _ hends => hends.stops_continuesTarget) fun rest _ _ => ⟨rest, rfl, rfl⟩

theorem readsBack_continueStmt :
    ReadsBack (Parse.statement false (n + 1)) n (w.statement .continueStmt) .continueStmt := by
  change ReadsBack _ n [wordToken "continue"] _
  exact readsBack_word (fun _ hends => hends.stops_continuesTarget) fun rest _ _ => ⟨rest, rfl, rfl⟩

/-- A command for the shell is read back, if it has no blanks at its ends. -/
theorem readsBack_shell {command : String} (h : Text.strip command = command) :
    ReadsBack (Parse.statement false (n + 1)) n (w.statement (.shell command))
      (.shell command) := by
  have hcommand : shellCommand ("$" ++ command) = command := by
    rw [shellCommand, String.toList_append]
    simpa using h
  intro rest _ _
  refine ⟨rest, ?_, rfl⟩
  change (statementWith false n (Parse.expr false n) (Parse.statement false n)).run
    (⟨.shell, "$" ++ command, 1⟩ :: rest) = _
  rw [statementWith, run_bind_of_ok (run_assignment?_of_kind (by simp) _)]
  refine (run_bind_of_ok (run_current _) _).trans ?_
  refine (run_bind_of_ok (run_advance _) _).trans ?_
  rw [hcommand]
  rfl

theorem readsBack_intent {kind : String} (name : String) (h : kind ∈ ["global", "local"]) :
    ReadsBack (Parse.statement false (n + 1)) n (w.statement (.intent kind name))
      (.intent kind name) := by
  change ReadsBack _ n [wordToken kind, wordToken name] _
  refine readsBack_word (fun rest _ => stops_word _ _) fun rest hlen hends => ⟨rest, ?_, rfl⟩
  rw [wordStatement_of_modifier h]
  refine run_some (run_scopeStatement name (hends.stops fun t ht => ?_))
  simp only [List.mem_cons, List.not_mem_nil, or_false] at ht
  rcases ht with ht | ht <;> simp [isWord, ht]

/-! A conditional is read back as a statement and after an `else`. -/

def ReadsBranch (w : Spelling) (s : Node) : Prop :=
  ∀ n k rest, (w.statement s ++ rest).length < n → (w.statement s ++ rest).length < k →
    Ends rest → ∃ rest',
      (conditional false n (Parse.expr false n) (Parse.statement false n) k).run
        (w.statement s ++ rest) = .ok (s, rest') ∧ skipped rest' = skipped rest

theorem statement_ifStmt (c a b : Node) : ∃ ts, w.statement (.ifStmt c a b) =
    wordToken "if" :: TokenKind.lparen.token :: ts := by
  cases b <;> exact ⟨_, rfl⟩

theorem readsBack_ifStmt {c a b : Node} (h : ReadsBranch w (.ifStmt c a b)) :
    ReadsBack (Parse.statement false (n + 1)) n (w.statement (.ifStmt c a b)) (.ifStmt c a b) := by
  obtain ⟨ts, hts⟩ := statement_ifStmt (w := w) c a b
  have hbranch := h n (n + 1)
  rw [hts] at hbranch ⊢
  refine readsBack_word (fun rest _ => stops_token (by simp) _) fun rest hlen hends => ?_
  obtain ⟨rest', hrun, hrest'⟩ := hbranch rest hlen (Nat.lt_succ_of_lt hlen) hends
  exact ⟨rest', run_some hrun, hrest'⟩

theorem readsBranch_then (he : w.Expression e) (hbody : ReadsBlock w body) :
    ReadsBranch w (.ifStmt e (.block body) .absent) := by
  have htokens (rest : List Token) : w.statement (.ifStmt e (.block body) .absent) ++ rest =
      conditionalTokens (w.bare e) (w.statement (.block body) ++ rest) := by
    change wordToken "if" :: enclosed .lparen (w.bare e) .rparen ++ w.statement (.block body) ++
      rest = _
    simp [enclosed, conditionalTokens]
  intro n k rest hlen hk hends
  rw [htokens] at hlen hk ⊢
  obtain ⟨k, rfl⟩ : ∃ k', k = k' + 1 := ⟨k - 1, by omega⟩
  simp only [conditionalTokens, List.length_cons, List.length_append] at hlen
  refine ⟨skipped rest, run_conditional_then (run_condition_bare he ?_) (hbody n rest ?_)
    hends.branch, skipped_skipped rest⟩
  · simp
    omega
  · simp
    omega

theorem readsBranch_else {other : List Node} (he : w.Expression e) (hbody : ReadsBlock w body)
    (hother : ReadsBlock w other) : ReadsBranch w (.ifStmt e (.block body) (.block other)) := by
  have htokens (rest : List Token) : w.statement (.ifStmt e (.block body) (.block other)) ++ rest =
      conditionalTokens (w.bare e) (w.statement (.block body) ++
        wordToken "else" :: (w.statement (.block other) ++ rest)) := by
    change wordToken "if" :: enclosed .lparen (w.bare e) .rparen ++ w.statement (.block body) ++
      wordToken "else" :: w.statement (.block other) ++ rest = _
    simp [enclosed, conditionalTokens]
  intro n k rest hlen hk hends
  rw [htokens] at hlen hk ⊢
  obtain ⟨k, rfl⟩ : ∃ k', k = k' + 1 := ⟨k - 1, by omega⟩
  simp only [conditionalTokens, List.length_cons, List.length_append] at hlen
  refine ⟨rest, run_conditional_else (run_condition_bare he ?_) (hbody n _ ?_) rfl
    (stops_block (by decide)) (hother n rest ?_), rfl⟩
  · simp
    omega
  · simp
    omega
  · simp
    omega

theorem readsBranch_elseIf {c a b : Node} (he : w.Expression e) (hbody : ReadsBlock w body)
    (hother : ReadsBranch w (.ifStmt c a b)) :
    ReadsBranch w (.ifStmt e (.block body) (.ifStmt c a b)) := by
  have htokens (rest : List Token) :
      w.statement (.ifStmt e (.block body) (.ifStmt c a b)) ++ rest =
        conditionalTokens (w.bare e) (w.statement (.block body) ++
          wordToken "else" :: (w.statement (.ifStmt c a b) ++ rest)) := by
    change wordToken "if" :: enclosed .lparen (w.bare e) .rparen ++ w.statement (.block body) ++
      wordToken "else" :: w.statement (.ifStmt c a b) ++ rest = _
    simp [enclosed, conditionalTokens]
  intro n k rest hlen hk hends
  rw [htokens] at hlen hk ⊢
  obtain ⟨k, rfl⟩ : ∃ k', k = k' + 1 := ⟨k - 1, by omega⟩
  simp only [conditionalTokens, List.length_cons, List.length_append] at hlen hk
  obtain ⟨rest', hrun, hrest'⟩ := hother n k rest (by simp; omega) (by simp; omega) hends
  obtain ⟨ts, hts⟩ := statement_ifStmt (w := w) c a b
  refine ⟨rest', run_conditional_elseIf (run_condition_bare he ?_) (hbody n _ ?_)
    (by rw [hts]; rfl) ?_, hrest'⟩
  · simp
    omega
  · simp
    omega
  · rw [hts] at hrun
    exact hrun

end Statements

end Parse

namespace Spelling

open Parse

variable {w : Spelling} {s : Node}

/-- A statement is read back, and if it is a conditional also after an `else`. -/
structure ReadsStatement (w : Spelling) (s : Node) : Prop where
  statement (n : Nat) : ReadsBack (Parse.statement false (n + 1)) n (w.statement s) s
  branch (c a b : Node) : s = .ifStmt c a b → ReadsBranch w s

theorem ReadsStatement.of_branch {c a b : Node} (h : ReadsBranch w (.ifStmt c a b)) :
    ReadsStatement w (.ifStmt c a b) :=
  ⟨fun _ => readsBack_ifStmt h, fun _ _ _ _ => h⟩

/-- Statements that are read back one by one are read back as a block. -/
theorem readsBlock_of_forall {body : List Node} (hbody : ∀ s ∈ body, w.Statement s)
    (h : ∀ s ∈ body, ReadsStatement w s) : ReadsBlock w body :=
  fun _ _ hlen => run_block (fun s hs => (hbody s hs).starts) (fun s hs => (h s hs).statement) hlen

/-- By induction on the statement: every printed statement is read back. -/
theorem Statement.reads (h : w.Statement s) : ReadsStatement w s := by
  induction h with
  | declaration id type readOnly he =>
    exact ⟨fun _ => readsBack_declaration he id type readOnly, nofun⟩
  | assign _ he => exact ⟨fun _ => readsBack_assign (assigns_name _) he, nofun⟩
  | assignTarget _ hname ht he =>
    exact ⟨fun _ => readsBack_assign (assigns_target ht hname) he, nofun⟩
  | augAssign hop _ he => exact ⟨fun _ => readsBack_augAssign (assigns_name _) hop he, nofun⟩
  | augAssignTarget hop _ hname ht he =>
    exact ⟨fun _ => readsBack_augAssign (assigns_target ht hname) hop he, nofun⟩
  | func f returns hparams hbody ih =>
    exact ⟨fun _ => readsBack_func f returns hparams (readsBlock_of_forall hbody ih), nofun⟩
  | template name hbody ih =>
    exact ⟨fun _ => readsBack_template name (readsBlock_of_forall hbody ih), nofun⟩
  | cls name base hbody ih =>
    exact ⟨fun _ => readsBack_cls name base (readsBlock_of_forall hbody ih), nofun⟩
  | ifThen he hbody ih => exact .of_branch (readsBranch_then he (readsBlock_of_forall hbody ih))
  | ifElse he ha hb iha ihb =>
    exact .of_branch
      (readsBranch_else he (readsBlock_of_forall ha iha) (readsBlock_of_forall hb ihb))
  | elseIf he ha _ iha ihb =>
    exact .of_branch (readsBranch_elseIf he (readsBlock_of_forall ha iha) (ihb.branch _ _ _ rfl))
  | forStmt v he hbody ih =>
    exact ⟨fun _ => readsBack_forStmt v he (readsBlock_of_forall hbody ih), nofun⟩
  | whileStmt he hbody ih =>
    exact ⟨fun _ => readsBack_whileStmt he (readsBlock_of_forall hbody ih), nofun⟩
  | returnStmt he => exact ⟨fun _ => readsBack_returnStmt he, nofun⟩
  | tryCatch v ha hb iha ihb =>
    exact ⟨fun _ => readsBack_tryCatch v (readsBlock_of_forall ha iha)
      (readsBlock_of_forall hb ihb), nofun⟩
  | breakStmt => exact ⟨fun _ => readsBack_breakStmt, nofun⟩
  | continueStmt => exact ⟨fun _ => readsBack_continueStmt, nofun⟩
  | shell hcommand => exact ⟨fun _ => readsBack_shell hcommand, nofun⟩
  | intent name hkind => exact ⟨fun _ => readsBack_intent name hkind, nofun⟩
  | exprStmt hfree he => exact ⟨fun _ => readsBack_exprStmt hfree he, nofun⟩

/-- A printed program is read back as the program. -/
theorem parseTokens_print {ss : List Node} (h : ∀ s ∈ ss, w.Statement s) :
    parseTokens false (w.print ss) = .ok ss := by
  have hstarts : ∀ s ∈ ss, StartsStatement (w.statement s) := fun s hs => (h s hs).starts
  have hrest : Stops (fun t => t.kind ≠ .rbrace) [] := by simp [Stops]
  have htokens : w.print ss = semicolons (ss.map w.statement) ++ [] := by
    rw [print, statements_eq_map, List.append_nil]
  have hskip : skipped (w.print ss) = semicolons (ss.map w.statement) ++ [] := by
    rw [htokens]
    exact skipped_of_stops ((stops_semicolons hstarts hrest).mono fun _ => .inl)
  have hrun : (statementsUntil (Parse.statement false (bound (w.print ss)))
      (bound (w.print ss))).run (w.print ss) = .ok (ss, []) := by
    refine run_statementsUntil hstarts (fun s hs => (h s hs).reads.statement _) hrest ?_ ?_ hskip
    · rw [htokens]
      omega
    · rw [← htokens, bound]
      omega
  rw [parseTokens, run_programFrom hrun]
  rfl

/-- `func f(a, b: int = 2) { if (a < b) { return (!a) } else if (b) { }; x.y += "s" }; f(b = x)` -/
theorem parseTokens_print_func :
    let w : Spelling := ⟨fun _ => "2", fun _ => "\"s\""⟩
    let branch := Node.ifStmt (.binary (.name "a") .lt (.name "b"))
      (.block [.returnStmt (.unary .not (.name "a"))]) (.ifStmt (.name "b") (.block []) .absent)
    let append := Node.augAssign none .add (.text "s") (.member (.name "x") "y")
    let ss := [Node.func "f" [("a", "auto", .absent), ("b", "int", .number (.int 2))] "auto"
      [branch, append], .exprStmt (.call (.name "f") [.keyword "b" (.name "x")])]
    (∀ s ∈ ss, w.Statement s) ∧ parseTokens false (w.print ss) = .ok ss := by
  have htext : Text.unescapeText (stringBody "\"s\"") = .ok "s" := rfl
  have hnumber : numberLiteral "2" = .ok (.int 2) := rfl
  intro w branch append ss
  have hbranch : w.Statement branch := by
    refine .elseIf (.binary (by decide) (.name _) (.name _)) ?_ (.ifThen (.name _) nofun)
    exact List.forall_mem_cons.2 ⟨.returnStmt (.unary (by decide) (.name _)), nofun⟩
  have happend : w.Statement append := by
    have hfree : StartsFree (w.bare (.member (.name "x") "y")) := by
      rintro t ⟨⟩ -
      decide
    exact .augAssignTarget (by decide) hfree nofun (.member _ (.name _)) (.text htext)
  have hfunc : w.Statement (.func "f" [("a", "auto", .absent), ("b", "int", .number (.int 2))]
      "auto" [branch, append]) := by
    refine .func _ _ (List.forall_mem_cons.2 ⟨fun habsent => absurd rfl habsent, ?_⟩) ?_
    · exact List.forall_mem_cons.2 ⟨fun _ => .number hnumber, nofun⟩
    · exact List.forall_mem_cons.2 ⟨hbranch, List.forall_mem_cons.2 ⟨happend, nofun⟩⟩
  have hcall : w.Statement (.exprStmt (.call (.name "f") [.keyword "b" (.name "x")])) := by
    refine .exprStmt ?_ (.call (.name _) (List.forall_mem_cons.2 ⟨.name _, nofun⟩))
    rintro t ⟨⟩ -
    decide
  have hss : ∀ s ∈ ss, w.Statement s :=
    List.forall_mem_cons.2 ⟨hfunc, List.forall_mem_cons.2 ⟨hcall, nofun⟩⟩
  exact ⟨hss, parseTokens_print hss⟩

end Spelling

end ScriptLang
