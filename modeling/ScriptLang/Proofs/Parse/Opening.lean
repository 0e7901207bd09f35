import ScriptLang.Proofs.Parse.RoundTrip

/-!
# Expressions after a word

After `return`, `if` and `while` stands an expression without parentheses around it. What its tokens
open with decides whether it is read, for two reasons:

* every statement is first tried as an assignment, and a list after a word is tried as a subscript
  of the word. Only a list of one item passes for a subscript;
* a condition that opens with a parenthesis is taken to end where that parenthesis is closed.
-/

namespace ScriptLang

open Grammar

/-- What the bare tokens of an expression open with. -/
inductive Opening where
  /-- Parentheses around the first operand. -/
  | group
  | list (length : Nat)
  | other
  deriving DecidableEq, Repr

/-- The opening of a first operand in a place of level `l`. -/
def Opening.grouped (l precedence : Nat) (o : Opening) : Opening :=
  if precedence < l then .group else o

def Node.opening : Node → Opening
  | .list items => .list items.length
  | .binary a op _ => a.opening.grouped op.precedence a.precedence
  | .ternary c _ _ => c.opening.grouped 1 c.precedence
  | .member a _ => a.opening.grouped 8 a.precedence
  | .call f _ => f.opening.grouped 8 f.precedence
  | _ => .other

/-- A first operand that opens with a list has no parentheses. -/
theorem Node.grouped_of_opening {a : Node} {l k : Nat}
    (h : a.opening.grouped l a.precedence = .list k) :
    a.opening = .list k ∧ ∀ ts, a.grouped l ts = ts := by
  unfold Opening.grouped at h
  split at h
  · cases h
  · next hp => exact ⟨h, fun ts => if_neg hp⟩

namespace Spelling

open Parse

variable {w : Spelling} {e : Node} {o : Opening} {ts : List Token}

/-! ### Openings of printed expressions -/

inductive Opens (w : Spelling) : Opening → List Token → Prop where
  | group {a : Node} {t : Token} (us : List Token) : w.Expression a → extending t →
      Opens w .group (enclosed .lparen (w.bare a) .rparen ++ t :: us)
  | list {items : List Node} (us : List Token) : (∀ a ∈ items, w.Expression a) →
      Opens w (.list items.length) (w.bare (.list items) ++ us)
  | other {t : Token} (us : List Token) : ¬ continuesTarget t → t.kind ≠ .lparen →
      Opens w .other (t :: us)

theorem Opens.append (h : w.Opens o ts) (us : List Token) : w.Opens o (ts ++ us) := by
  cases h with
  | group vs ha ht =>
    rw [List.append_assoc, List.cons_append]
    exact .group _ ha ht
  | list vs hitems =>
    rw [List.append_assoc]
    exact .list _ hitems
  | other vs ht hparen => exact .other _ ht hparen

theorem opens_grouped {a : Node} {t : Token} (ha : w.Expression a)
    (h : w.Opens a.opening (w.bare a)) (ht : extending t) (l : Nat) (us : List Token) :
    w.Opens (a.opening.grouped l a.precedence) (a.grouped l (w.bare a) ++ t :: us) := by
  unfold Opening.grouped Node.grouped
  split
  · exact .group us ha ht
  · exact h.append _

theorem extending_token {op : BinaryOp} (hop : op ∈ BinaryOp.known) (hindex : op ≠ .index) :
    extending op.token := by
  cases op with
  | index => exact absurd rfl hindex
  | other s => simp [BinaryOp.known] at hop
  | _ => simp [extending, comparisonKinds, BinaryOp.token, BinaryOp.kind, BinaryOp.symbol]

/-- By induction on the expression, of which the first operand decides. -/
theorem opens_bare (h : w.Expression e) : w.Opens e.opening (w.bare e) := by
  induction h with
  | name id => exact .other _ (not_continuesTarget (by simp [wordToken])) (by simp [wordToken])
  | number _ | text _ => exact .other _ (not_continuesTarget (by simp)) (by simp)
  | @list items hitems _ =>
    have hopens : w.Opens (.list items.length) (w.bare (.list items) ++ []) := .list [] hitems
    rwa [List.append_nil] at hopens
  | dict _ _ _ => exact .other _ (not_continuesTarget (by decide)) (by decide)
  | @unary op a hop _ _ =>
    simp only [List.mem_cons, List.not_mem_nil, or_false] at hop
    rcases hop with rfl | rfl | rfl <;>
      exact .other _ (not_continuesTarget (by decide)) (by decide)
  | @binary a b op hop ha _ iha _ =>
    rw [bare]
    split
    · next hindex =>
      subst hindex
      exact opens_grouped ha iha (.inl (by decide)) _ _
    · next hindex => exact opens_grouped ha iha (extending_token hop hindex) _ _
  | ternary hc _ _ ihc _ _ =>
    rw [bare, List.append_assoc, List.cons_append]
    exact opens_grouped hc ihc (.inl (by decide)) _ _
  | member field ha iha => exact opens_grouped ha iha (.inl (by decide)) _ _
  | call hf _ ihf _ => exact opens_grouped hf ihf (.inl (by decide)) _ _

/-! ### The trial of an assignment -/

/-- Unless the tokens open with a list, no target goes on with them. -/
theorem Opens.stops (h : w.Opens o ts) (hlist : ∀ k, o ≠ .list k) : Stops continuesTarget ts := by
  cases h with
  | group us _ _ => exact stops_cons (not_continuesTarget (by decide)) _
  | list us _ => exact absurd rfl (hlist _)
  | other us ht _ => exact stops_cons ht us

/-- A list of one item after a word, with all that follows, is a path and what cannot go on with
it. -/
theorem startsWithPath_list (he : w.Expression e) (h : e.opening = .list 1) (word : String) :
    StartsWithPath (wordToken word :: w.bare e) := by
  induction he with
  | name | number | text | dict | unary => cases h
  | @list items hitems _ =>
    obtain ⟨i, rfl⟩ := List.length_eq_one_iff.1 (Opening.list.inj h)
    have hindex := enclosed_phrase (expr_bare (hitems i List.mem_cons_self)) .lbracket .rbracket
    have hpath : Path Expr [wordToken word] (.name word) := .name rfl
    have htokens : w.bare (.list [i]) = enclosed .lbracket (w.bare i) .rbracket := by
      simp [bare, bareItems, commas]
    exact ⟨_, _, [], by rw [htokens, List.append_nil]; rfl, hpath.index hindex, by simp [Stops]⟩
  | @binary a b op hop _ hb iha _ =>
    obtain ⟨ha, hbare⟩ := Node.grouped_of_opening h
    rw [bare]
    split
    · next hindex =>
      subst hindex
      rw [show a.grouped 8 (w.bare a) = w.bare a from hbare _, ← List.cons_append]
      exact (iha ha).extend fun vs c hvs => ⟨_, hvs.index (enclosed_phrase (expr_bare hb) _ _)⟩
    · next hindex =>
      rw [hbare, ← List.cons_append]
      refine (iha ha).append (stops_cons (not_continuesTarget ?_) _)
      cases op with
      | index => exact absurd rfl hindex
      | _ => simp [BinaryOp.token, BinaryOp.kind]
  | ternary _ _ _ ihc _ _ =>
    obtain ⟨hc, hbare⟩ := Node.grouped_of_opening h
    rw [bare, hbare, List.append_assoc, ← List.cons_append]
    exact (ihc hc).append (stops_cons (not_continuesTarget (by decide)) _)
  | member field _ iha =>
    obtain ⟨ha, hbare⟩ := Node.grouped_of_opening h
    rw [bare, hbare, ← List.cons_append]
    exact (iha ha).extend fun vs c hvs => ⟨_, hvs.member rfl rfl⟩
  | call _ _ ihf _ =>
    obtain ⟨hf, hbare⟩ := Node.grouped_of_opening h
    rw [bare, hbare, ← List.cons_append]
    exact (ihf hf).append (stops_cons (not_continuesTarget (by decide)) _)

/-- An expression after a word passes the trial if it opens with no list, or one of one item. -/
theorem startsWithPath_bare (he : w.Expression e) (h : ∀ k, e.opening = .list k → k = 1)
    (word : String) : StartsWithPath (wordToken word :: w.bare e) := by
  by_cases hlist : ∃ k, e.opening = .list k
  · obtain ⟨k, hk⟩ := hlist
    exact startsWithPath_list he (h k hk ▸ hk) word
  · exact startsWithPath_word word ((opens_bare he).stops (not_exists.1 hlist))

end Spelling

namespace Parse

variable {w : Spelling} {n : Nat} {e : Node} {rest : List Token}

theorem run_chain_of_error {operator? : Token → Option BinaryOp} {operand : Parse Node}
    {ts : List Token} {s : ParseStop} (h : operand.run ts = .error s) (k : Nat) :
    (chain k operator? operand).run ts = .error s := by
  rw [chain, run_bind, h]

/-- A token that starts no expression is reported as such. -/
theorem run_expr_of_not_opensExpr {t : Token} (ht : ¬ opensExpr t) (n : Nat) (ts : List Token) :
    (Parse.expr false (n + 1)).run (t :: ts) =
      .error (.reported (.unexpectedToken t.describe)) := by
  simp only [opensExpr, opensPrimary, List.mem_cons, List.not_mem_nil, or_false, not_or] at ht
  obtain ⟨hnot, hop, hnumber, hstring, hlong, hname, hbracket, hbrace, hparen⟩ := ht
  have hprimary : (primary false n (Parse.expr false n)).run (t :: ts) =
      .error (.reported (.unexpectedToken t.describe)) := by
    rw [primary, run_bind_of_ok (run_current _)]
    simp only [List.head?_cons]
    rfl
  have hatom : (atom false n (Parse.expr false n)).run (t :: ts) =
      .error (.reported (.unexpectedToken t.describe)) := by
    rw [atom, run_bind, hprimary]
  have hcomparison : (comparison false n (Parse.expr false n)).run (t :: ts) =
      .error (.reported (.unexpectedToken t.describe)) := by
    refine run_chain_of_error (run_chain_of_error (run_chain_of_error ?_ n) n) n
    rw [run_unaryLevel_of_none (by simp [signOperator?, hop]), hatom]
  have hdisjunction : (disjunction false n (Parse.expr false n)).run (t :: ts) =
      .error (.reported (.unexpectedToken t.describe)) := by
    refine run_chain_of_error (run_chain_of_error ?_ n) n
    rw [run_unaryLevel_of_none (by simp [notOperator?, hnot]), hcomparison]
  rw [Parse.expr, exprWith, run_bind, hdisjunction]

/-- What is reported of a list, by the number of its items, that is tried as a subscript. -/
def subscriptNotice : Nat → Notice
  | 0 => .unexpectedToken TokenKind.rbracket.token.describe
  | _ + 1 => .expectedToken TokenKind.rbracket.label TokenKind.comma.token.describe

/-- A list of other than one item is no subscript. -/
theorem run_subscript {items : List Node} (hitems : ∀ a ∈ items, w.Expression a)
    (hlength : items.length ≠ 1)
    (hlen : (commas (w.bareItems items) ++ TokenKind.rbracket.token :: rest).length < n)
    {α : Type} (f : Node → Parse α) :
    (do let index ← Parse.expr false n; let _ ← eat false .rbracket; f index : Parse α).run
      (commas (w.bareItems items) ++ TokenKind.rbracket.token :: rest) =
      .error (.reported (subscriptNotice items.length)) := by
  obtain ⟨n, rfl⟩ : ∃ m, n = m + 1 := ⟨n - 1, by omega⟩
  match items with
  | [] =>
    have hclose : ¬ opensExpr TokenKind.rbracket.token := by
      simp [opensExpr, opensPrimary, TokenKind.token]
    rw [run_bind]
    simp only [Spelling.bareItems, commas, List.intercalate_nil, List.nil_append]
    rw [run_expr_of_not_opensExpr hclose]
    rfl
  | [_] => exact absurd rfl hlength
  | a :: b :: items =>
    have htokens : commas (w.bareItems (a :: b :: items)) ++ TokenKind.rbracket.token :: rest =
        w.bare a ++ TokenKind.comma.token ::
          (commas (w.bareItems (b :: items)) ++ TokenKind.rbracket.token :: rest) := by
      simp [Spelling.bareItems, commas]
    rw [htokens] at hlen ⊢
    have ha := run_bare (hitems a List.mem_cons_self) hlen
      (stops_cons (not_extending (by decide)) _)
    rw [run_bind_of_ok ha, run_bind, run_eat_cons, if_neg (by decide)]
    rfl

/-- The trial of an assignment does not get past a list of other than one item. -/
theorem run_statement_list {items : List Node} (hitems : ∀ a ∈ items, w.Expression a)
    (hlength : items.length ≠ 1) (word : String)
    (hlen : (w.bare (.list items) ++ rest).length < n) :
    (Parse.statement false (n + 1)).run (wordToken word :: (w.bare (.list items) ++ rest)) =
      .error (.reported (subscriptNotice items.length)) := by
  have hpath : Path Expr [wordToken word] (.name word) := .name rfl
  rw [Spelling.bare, enclosed_append] at hlen ⊢
  obtain ⟨k, hk, -, hrun⟩ := run_lvalue (reads_expr n).complete hpath (Nat.succ_lt_succ hlen)
  obtain ⟨k, rfl⟩ : ∃ k', k = k' + 1 := ⟨k - 1, by omega⟩
  have hkind : TokenKind.lbracket.token.kind = .lbracket := rfl
  rw [lvalueFrom, run_bind_of_ok (run_current _)] at hrun
  simp only [List.head?_cons, Option.map_some, hkind] at hrun
  rw [run_bind_of_ok (run_advance _), List.tail_cons, List.singleton_append,
    run_subscript hitems hlength (Nat.lt_of_succ_lt hlen)] at hrun
  have hget (ts : List Token) : (get : Parse (List Token)).run ts = .ok (ts, ts) := rfl
  rw [Parse.statement, statementWith, run_bind, assignment?, run_bind_of_ok (hget _), run_bind,
    hrun]

/-- An expression after a word passes the trial unless it opens with a list of other than one
item. -/
theorem run_statement_bare (he : w.Expression e) (h : ∀ k, e.opening = .list k → k = 1)
    (word : String) (hlen : (w.bare e ++ rest).length < n) (hrest : Stops continuesTarget rest) :
    (Parse.statement false (n + 1)).run (wordToken word :: (w.bare e ++ rest)) =
      (wordStatement false n (Parse.expr false n) (Parse.statement false n) word).run
        (wordToken word :: (w.bare e ++ rest)) :=
  run_statementWith_word (reads_expr n).complete
    ((Spelling.startsWithPath_bare he h word).append hrest) (Nat.succ_lt_succ hlen)

/-- A statement whose first word is followed by a list of other than one item is refused. -/
theorem run_statement_subscript (he : w.Expression e) {k : Nat} (h : e.opening = .list k)
    (hk : k ≠ 1) (word : String) (hlen : (w.bare e ++ rest).length < n) :
    (Parse.statement false (n + 1)).run (wordToken word :: (w.bare e ++ rest)) =
      .error (.reported (subscriptNotice k)) := by
  have hopens := Spelling.opens_bare he
  rw [h] at hopens
  generalize w.bare e = ts at hopens hlen ⊢
  cases hopens with
  | list us hitems =>
    rw [List.append_assoc] at hlen ⊢
    exact run_statement_list hitems hk word hlen

/-! ### Values that are returned -/

/-- A statement returns an expression if and only if the expression does not open with a list of
other than one item. Such a list is reported as a subscript of `return` that is not closed. -/
theorem run_statement_return_iff (he : w.Expression e)
    (hrest : Stops (fun t => t.kind ∉ [.semi, .rbrace]) rest)
    (hlen : (w.bare e ++ rest).length < n) :
    ((Parse.statement false (n + 1)).run (wordToken "return" :: (w.bare e ++ rest)) =
        .ok (some (.returnStmt e), rest) ↔ ∀ k, e.opening = .list k → k = 1) ∧
      ∀ k, e.opening = .list k → k ≠ 1 →
        (Parse.statement false (n + 1)).run (wordToken "return" :: (w.bare e ++ rest)) =
          .error (.reported (subscriptNotice k)) := by
  have hfail (k : Nat) (h : e.opening = .list k) (hk : k ≠ 1) :=
    run_statement_subscript he h hk "return" hlen
  refine ⟨⟨fun hrun k h => Decidable.byContradiction fun hk => ?_, fun h => ?_⟩, hfail⟩
  · cases (hfail k h hk).symm.trans hrun
  · have hextending : Stops extending rest := hrest.mono fun t ht hk => by
      simp only [List.mem_cons, List.not_mem_nil, or_false] at hk
      exact not_extending (by rcases hk with hk | hk <;> simp [hk]) ht
    have htarget : Stops continuesTarget rest := hrest.mono fun t ht hk => by
      simp only [List.mem_cons, List.not_mem_nil, or_false] at hk
      exact not_continuesTarget (by rcases hk with hk | hk <;> simp [hk]) ht
    rw [run_statement_bare he h "return" hlen htarget]
    exact run_returnStmt (run_bare he hlen hextending)

/-- `return [a, b] + c` -/
theorem run_statement_return_iff_list :
    let w : Spelling := ⟨fun _ => "1", fun _ => "\"s\""⟩
    let e := Node.binary (.list [.name "a", .name "b"]) .add (.name "c")
    let read := (Parse.statement false 10).run (wordToken "return" :: (w.bare e ++ []))
    w.Expression e ∧ (w.bare e ++ []).length < 9 ∧ read ≠ .ok (some (.returnStmt e), []) ∧
      read = .error (.reported (.expectedToken "RBRACKET" "Token(COMMA, ,, line=1)")) := by
  intro w e read
  have hitems : ∀ a ∈ [Node.name "a", Node.name "b"], w.Expression a :=
    List.forall_mem_cons.2 ⟨.name _, List.forall_mem_cons.2 ⟨.name _, nofun⟩⟩
  have he : w.Expression e := .binary (by decide) (.list hitems) (.name _)
  have hlen : (w.bare e ++ []).length < 9 := by decide
  obtain ⟨hiff, hfail⟩ := run_statement_return_iff he (by simp [Stops]) hlen
  have hrun := hfail 2 rfl (by decide)
  exact ⟨he, hlen, fun h => absurd (hiff.1 h 2 rfl) (by decide), hrun⟩

/-! ### Conditions -/

/-- Braces that do not open are reported. -/
theorem run_braces_of_ne {t : Token} (ht : t.kind ≠ .lbrace) (statement : Parse (Option Node))
    (ts : List Token) : (braces false n statement).run (t :: ts) =
      .error (.reported (.expectedToken TokenKind.lbrace.label t.describe)) := by
  rw [braces, run_bind, run_eat_cons, if_neg ht]
  rfl

theorem run_condition_of_stops {expr : Parse Node} {ts : List Token}
    (h : Stops (fun t => t.kind = .lparen) ts) : (condition false expr).run ts = expr.run ts := by
  rw [condition, run_bind_of_ok (run_atKind _ _), h.any_kind]
  rfl

/-- A condition is read to its end unless it opens with a group. -/
theorem run_condition_opens (he : w.Expression e) (h : e.opening ≠ .group)
    (hlen : (w.bare e ++ rest).length < n) (hrest : Stops extending rest) :
    (condition false (Parse.expr false n)).run (w.bare e ++ rest) = .ok (e, rest) := by
  have hstops : Stops (fun t => t.kind = .lparen) (w.bare e ++ rest) := by
    have hopens := (Spelling.opens_bare he).append rest
    generalize e.opening = o at hopens h
    generalize w.bare e ++ rest = ts at hopens ⊢
    cases hopens with
    | group => exact absurd rfl h
    | list us _ => exact stops_cons (by decide) _
    | other us _ hparen => exact stops_cons hparen us
  rw [run_condition_of_stops hstops, run_bare he hlen hrest]

section Words

variable {expr : Parse Node} {statement : Parse (Option Node)} {us vs : List Token}

/-- The word opens a conditional or a loop, which is read up to the block after its condition. -/
theorem run_wordStatement_of_error {word : String} (hword : word ∈ ["if", "while"])
    (hcond : (condition false expr).run us = .ok (e, vs)) {s : ParseStop}
    (hbody : (braces false n statement).run vs = .error s) :
    (wordStatement false n expr statement word).run (wordToken word :: us) = .error s := by
  simp only [List.mem_cons, List.not_mem_nil, or_false] at hword
  rcases hword with rfl | rfl
  · have hrun : (conditional false n expr statement (n + 1)).run (wordToken "if" :: us) =
        .error s := by
      rw [conditional, run_bind_of_ok (run_eat_word _ _), run_bind_of_ok hcond, run_bind, hbody]
    exact (run_map _ _ _).trans (by rw [hrun])
  · have hrun : (whileLoop false n expr statement).run (wordToken "while" :: us) = .error s := by
      rw [whileLoop, run_bind_of_ok (run_advance _), List.tail_cons, run_bind_of_ok hcond,
        run_bind, hbody]
    exact (run_map _ _ _).trans (by rw [hrun])

end Words

/-- A condition that goes on after its parentheses is refused there, where a block is expected. -/
theorem run_statement_group (he : w.Expression e) (h : e.opening = .group) {word : String}
    (hword : word ∈ ["if", "while"]) (hlen : (w.bare e ++ rest).length < n) :
    ∃ a t us, w.Expression a ∧ extending t ∧
      w.bare e = enclosed .lparen (w.bare a) .rparen ++ t :: us ∧
      (Parse.statement false (n + 1)).run (wordToken word :: (w.bare e ++ rest)) =
        .error (.reported (.expectedToken "LBRACE" t.describe)) := by
  have hopens := Spelling.opens_bare he
  rw [h] at hopens
  generalize w.bare e = ts at hopens hlen ⊢
  cases hopens with
  | @group a t us ha ht =>
    refine ⟨a, t, us, ha, ht, rfl, ?_⟩
    have hbrace : t.kind ≠ .lbrace := fun hk => not_extending (by simp [hk]) ht
    rw [List.append_assoc, enclosed_append] at hlen ⊢
    have hparen : Stops continuesTarget (TokenKind.lparen.token :: (w.bare a ++
      TokenKind.rparen.token :: (t :: us ++ rest))) := stops_token (by simp) _
    have hstart := startsWithPath_word word hparen
    have hcond := run_condition_bare ha (Nat.lt_of_succ_lt hlen)
    rw [Parse.statement, run_statementWith_word (reads_expr n).complete hstart
      (Nat.succ_lt_succ hlen)]
    exact run_wordStatement_of_error hword hcond (run_braces_of_ne hbrace _ _)

def OpensCondition (e : Node) : Prop := e.opening = .other ∨ e.opening = .list 1

theorem OpensCondition.ne_group (h : OpensCondition e) : e.opening ≠ .group := by
  rcases h with h | h <;> simp [h]

theorem OpensCondition.length_eq_one (h : OpensCondition e) (k : Nat) (hk : e.opening = .list k) :
    k = 1 := by
  rcases h with h | h
  · cases h.symm.trans hk
  · exact (Opening.list.inj (h.symm.trans hk)).symm

section Condition

variable {body : List Node} (he : w.Expression e)
  (hlen : (w.bare e ++ (w.statement (.block body) ++ rest)).length < n)

include he hlen

/-- A condition that opens well is read in full, with its block. -/
theorem run_statement_if (h : OpensCondition e) (hblock : ReadsBlock w body)
    (hrest : Stops opensBranch (skipped rest)) :
    (Parse.statement false (n + 1)).run
      (wordToken "if" :: (w.bare e ++ (w.statement (.block body) ++ rest))) =
      .ok (some (.ifStmt e (.block body) .absent), skipped rest) := by
  have hcond := run_condition_opens he h.ne_group hlen (stops_block (not_extending (by decide)))
  rw [run_statement_bare he h.length_eq_one "if" hlen
    (stops_block (not_continuesTarget (by decide)))]
  rw [List.length_append] at hlen
  exact run_some (run_conditional_then hcond (hblock n rest (by omega)) hrest)

/-- The same for a loop. -/
theorem run_statement_while (h : OpensCondition e) (hblock : ReadsBlock w body) :
    (Parse.statement false (n + 1)).run
      (wordToken "while" :: (w.bare e ++ (w.statement (.block body) ++ rest))) =
      .ok (some (.whileStmt e (.block body)), rest) := by
  have hcond := run_condition_opens he h.ne_group hlen (stops_block (not_extending (by decide)))
  rw [run_statement_bare he h.length_eq_one "while" hlen
    (stops_block (not_continuesTarget (by decide)))]
  rw [List.length_append] at hlen
  exact run_some (run_whileLoop hcond (hblock n rest (by omega)))

/-- A conditional or a loop that is read has a condition that opens well. -/
theorem opensCondition_of_run {word : String} (hword : word ∈ ["if", "while"]) {s : Option Node}
    {ts : List Token} (hrun : (Parse.statement false (n + 1)).run
      (wordToken word :: (w.bare e ++ (w.statement (.block body) ++ rest))) = .ok (s, ts)) :
    OpensCondition e := by
  cases hcase : e.opening with
  | other => exact .inl hcase
  | group =>
    obtain ⟨a, t, us, -, -, -, hfail⟩ := run_statement_group he hcase hword hlen
    cases hfail.symm.trans hrun
  | list k =>
    by_cases hk : k = 1
    · exact .inr (hk ▸ hcase)
    · cases (run_statement_subscript he hcase hk word hlen).symm.trans hrun

/-- A condition without parentheses around it is read if and only if it opens with no group and no
list of other than one item. After a group the block is missed. -/
theorem run_statement_condition_iff (hbody : ∀ s ∈ body, w.Statement s) :
    let read (word : String) := (Parse.statement false (n + 1)).run
      (wordToken word :: (w.bare e ++ (w.statement (.block body) ++ rest)))
    (Stops opensBranch (skipped rest) →
      (read "if" = .ok (some (.ifStmt e (.block body) .absent), skipped rest) ↔ OpensCondition e)) ∧
    (read "while" = .ok (some (.whileStmt e (.block body)), rest) ↔ OpensCondition e) ∧
    ∀ word ∈ ["if", "while"],
      (e.opening = .group → ∃ a t us, w.Expression a ∧ extending t ∧
        w.bare e = enclosed .lparen (w.bare a) .rparen ++ t :: us ∧
        read word = .error (.reported (.expectedToken "LBRACE" t.describe))) ∧
      ∀ k, e.opening = .list k → k ≠ 1 → read word = .error (.reported (subscriptNotice k)) := by
  intro read
  have hblock : ReadsBlock w body :=
    Spelling.readsBlock_of_forall hbody fun s hs => (hbody s hs).reads
  refine ⟨fun hrest => ⟨?_, fun h => ?_⟩, ⟨?_, fun h => ?_⟩, fun word hword => ⟨fun h => ?_, ?_⟩⟩
  · exact opensCondition_of_run he hlen (by simp)
  · exact run_statement_if he hlen h hblock hrest
  · exact opensCondition_of_run he hlen (by simp)
  · exact run_statement_while he hlen h hblock
  · exact run_statement_group he h hword hlen
  · exact fun k h hk => run_statement_subscript he h hk word hlen

end Condition

/-- `if (a + b) * c { return (a) }`, and the same with `while`. -/
theorem run_statement_condition_iff_group :
    let w : Spelling := ⟨fun _ => "1", fun _ => "\"s\""⟩
    let e := Node.binary (.binary (.name "a") .add (.name "b")) .mul (.name "c")
    let body := [Node.returnStmt (.name "a")]
    let read (word : String) := (Parse.statement false 20).run
      (wordToken word :: (w.bare e ++ (w.statement (.block body) ++ [])))
    w.Expression e ∧ (∀ s ∈ body, w.Statement s) ∧
      (w.bare e ++ (w.statement (.block body) ++ [])).length < 19 ∧
      read "if" ≠ .ok (some (.ifStmt e (.block body) .absent), []) ∧
      read "while" ≠ .ok (some (.whileStmt e (.block body)), []) ∧
      ∃ t : Token, extending t ∧
        read "if" = .error (.reported (.expectedToken "LBRACE" t.describe)) := by
  intro w e body read
  have he : w.Expression e :=
    .binary (by decide) (.binary (by decide) (.name _) (.name _)) (.name _)
  have hbody : ∀ s ∈ body, w.Statement s :=
    List.forall_mem_cons.2 ⟨.returnStmt (.name _), nofun⟩
  have hlen : (w.bare e ++ (w.statement (.block body) ++ [])).length < 19 := by decide
  have hopens : ¬ OpensCondition e := by
    rintro (h | h) <;> cases h
  obtain ⟨hif, hwhile, hfail⟩ := run_statement_condition_iff he hlen hbody
  obtain ⟨a, t, us, -, ht, -, hrun⟩ := (hfail "if" (by simp)).1 rfl
  exact ⟨he, hbody, hlen, fun h => hopens ((hif (by simp [Stops, skipped])).1 h),
    fun h => hopens (hwhile.1 h), t, ht, hrun⟩

end Parse

end ScriptLang
