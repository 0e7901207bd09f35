import ScriptLang.Proofs.Parse.Print
import ScriptLang.Proofs.Parse.Statement

/-!
# Parsers on printed statements

The parsers of the kinds of statements, each run on the tokens of a statement of its kind, given
what the parsers of the expressions and blocks in it read. Statements in a row are read one by one,
so a statement must not take what follows it: a conditional looks behind the semicolons after it
for a further branch.
-/

namespace ScriptLang

open Grammar

namespace Parse

/-! ### Sequences of statements -/

def skipped (ts : List Token) : List Token := ts.dropWhile fun t => t.kind == .semi

theorem run_skipSemicolons (ts : List Token) : skipSemicolons.run ts = .ok ((), skipped ts) := rfl

theorem run_atWord (word : String) (ts : List Token) :
    (atWord word).run ts = .ok (ts.head?.any (isWord word), ts) := rfl

def opensBranch (t : Token) : Prop := isWord "else" t ∨ isWord "elif" t

theorem not_opensBranch {t : Token} (h : t.kind ≠ .name) : ¬ opensBranch t := by
  simp [opensBranch, isWord, h]

/-- A semicolon, a closing brace or nothing follows, and no further branch of a conditional. -/
structure Ends (ts : List Token) : Prop where
  head : Stops (fun t => t.kind ∉ [.semi, .rbrace]) ts
  branch : Stops opensBranch (skipped ts)

theorem skipped_of_stops {ts : List Token} (h : Stops (fun t => t.kind = .semi) ts) :
    skipped ts = ts := by
  rcases ts with _ | ⟨t, ts⟩
  · rfl
  · have ht := h t rfl
    simp [skipped, ht]

theorem skipped_skipped (ts : List Token) : skipped (skipped ts) = skipped ts := by
  induction ts with
  | nil => rfl
  | cons t ts ih =>
    unfold skipped at *
    by_cases h : t.kind = .semi <;> simp_all

/-- The parser reads a statement and leaves what follows it, but for semicolons. -/
def ReadsBack (p : Parse (Option Node)) (n : Nat) (ts : List Token) (s : Node) : Prop :=
  ∀ rest, (ts ++ rest).length < n → Ends rest →
    ∃ rest', p.run (ts ++ rest) = .ok (some s, rest') ∧ skipped rest' = skipped rest

def StartsStatement (ts : List Token) : Prop :=
  ∃ t us, ts = t :: us ∧ t.kind ∉ [.semi, .rbrace] ∧ ¬ opensBranch t

def following : List (List Token) → List Token
  | [] => []
  | ts :: tss => TokenKind.semi.token :: semicolons (ts :: tss)

theorem semicolons_cons (ts : List Token) (tss : List (List Token)) :
    semicolons (ts :: tss) = ts ++ following tss := by
  cases tss <;> simp [semicolons, following]

theorem length_semicolons_le (tss : List (List Token)) :
    (semicolons tss).length ≤ (following tss).length := by
  cases tss with
  | nil => exact Nat.le_refl _
  | cons ts tss => exact Nat.le_succ _

section Sequence

variable {ss : List Node} {f : Node → List Token} {rest : List Token}

/-- Printed statements start neither with a semicolon nor with a further branch. -/
theorem stops_semicolons (hstarts : ∀ s ∈ ss, StartsStatement (f s))
    (hrest : Stops (fun t => t.kind ≠ .rbrace) rest) :
    Stops (fun t => t.kind = .semi ∨ opensBranch t) (semicolons (ss.map f) ++ rest) := by
  rcases ss with _ | ⟨s, ss⟩
  · intro t ht
    have hk : t.kind = .rbrace := Decidable.not_not.1 (hrest t ht)
    exact not_or.2 ⟨by simp [hk], not_opensBranch (by simp [hk])⟩
  · obtain ⟨t, us, hts, hk, hbranch⟩ := hstarts s List.mem_cons_self
    rw [List.map_cons, semicolons_cons, hts]
    exact stops_cons (not_or.2 ⟨by simp_all, hbranch⟩) _

theorem skipped_following (hstarts : ∀ s ∈ ss, StartsStatement (f s))
    (hrest : Stops (fun t => t.kind ≠ .rbrace) rest) :
    skipped (following (ss.map f) ++ rest) = semicolons (ss.map f) ++ rest := by
  have hskip := skipped_of_stops ((stops_semicolons hstarts hrest).mono fun _ => .inl)
  rcases ss with _ | ⟨s, ss⟩
  · exact hskip
  · exact hskip

/-- After a printed statement comes what ends it. -/
theorem ends_following (hstarts : ∀ s ∈ ss, StartsStatement (f s))
    (hrest : Stops (fun t => t.kind ≠ .rbrace) rest) : Ends (following (ss.map f) ++ rest) := by
  constructor
  · rcases ss with _ | ⟨s, ss⟩
    · exact hrest.mono fun t ht hk => ht (by simp [hk])
    · exact stops_cons (by decide) _
  · rw [skipped_following hstarts hrest]
    exact (stops_semicolons hstarts hrest).mono fun _ => .inr

/-- Statements that are read back one by one are read back in a row. -/
theorem run_statementsUntil {p : Parse (Option Node)} {n : Nat}
    (hstarts : ∀ s ∈ ss, StartsStatement (f s)) (hreads : ∀ s ∈ ss, ReadsBack p n (f s) s)
    (hrest : Stops (fun t => t.kind ≠ .rbrace) rest) {k : Nat} {ts : List Token}
    (hlen : (semicolons (ss.map f) ++ rest).length < n)
    (hk : (semicolons (ss.map f) ++ rest).length < k)
    (hts : skipped ts = semicolons (ss.map f) ++ rest) :
    (statementsUntil p k).run ts = .ok (ss, rest) := by
  induction ss generalizing k ts with
  | nil =>
    obtain ⟨k, rfl⟩ : ∃ k', k = k' + 1 := ⟨k - 1, by omega⟩
    rw [statementsUntil, run_bind_of_ok (run_skipSemicolons ts), hts,
      run_bind_of_ok (run_current _)]
    rcases rest with _ | ⟨t, rest⟩
    · rfl
    · have ht : t.kind = .rbrace := Decidable.not_not.1 (hrest t rfl)
      simp only [List.map_nil, semicolons, List.intercalate_nil, List.nil_append, List.head?_cons,
        ht, if_true]
      rfl
  | cons s ss ih =>
    obtain ⟨k, rfl⟩ : ∃ k', k = k' + 1 := ⟨k - 1, by omega⟩
    have hstarts' : ∀ s' ∈ ss, StartsStatement (f s') := fun s' hs =>
      hstarts s' (List.mem_cons_of_mem s hs)
    have hreads' : ∀ s' ∈ ss, ReadsBack p n (f s') s' := fun s' hs =>
      hreads s' (List.mem_cons_of_mem s hs)
    rw [List.map_cons, semicolons_cons, List.append_assoc] at hlen hk hts
    obtain ⟨rest', hrun, hrest'⟩ :=
      hreads s List.mem_cons_self _ hlen (ends_following hstarts' hrest)
    obtain ⟨t, us, hf, ht, -⟩ := hstarts s List.mem_cons_self
    have hhead : (f s ++ (following (ss.map f) ++ rest)).head? = some t := by rw [hf]; rfl
    have hshort := length_semicolons_le (ss.map f)
    simp only [hf, List.length_append, List.length_cons] at hlen hk
    have hnext : (statementsUntil p k).run (semicolons (ss.map f) ++ rest) = .ok (ss, rest) := by
      refine ih hstarts' hreads' ?_ ?_ (skipped_of_stops ?_)
      · rw [List.length_append]
        omega
      · rw [List.length_append]
        omega
      · exact (stops_semicolons hstarts' hrest).mono fun _ => .inl
    rw [statementsUntil, run_bind_of_ok (run_skipSemicolons ts), hts,
      run_bind_of_ok (run_current _)]
    simp only [hhead]
    rw [if_neg (by simp_all), run_bind_of_ok hrun, run_bind_of_ok (run_skipSemicolons rest'),
      hrest',
      skipped_following hstarts' hrest, run_bind_of_ok hnext]
    rfl

/-- A program is the statements up to the end of the tokens. -/
theorem run_programFrom {p : Parse (Option Node)} {k : Nat} {ts : List Token}
    (h : (statementsUntil p k).run ts = .ok (ss, [])) :
    (programFrom p k).run ts = .ok (ss, []) := by
  induction k generalizing ts ss with
  | zero => cases h
  | succ k ih =>
    rw [statementsUntil, run_bind_of_ok (run_skipSemicolons ts),
      run_bind_of_ok (run_current _)] at h
    rw [programFrom, run_bind_of_ok (run_skipSemicolons ts), run_bind_of_ok (run_current _)]
    rcases hskip : skipped ts with _ | ⟨t, us⟩
    · rw [hskip] at h
      exact h
    · rw [hskip] at h
      simp only [List.head?_cons] at h ⊢
      split at h
      · cases h
      · obtain ⟨node, vs, hnode, hskip⟩ := run_bind_eq_ok.1 h
        rw [run_bind_of_ok (run_skipSemicolons vs)] at hskip
        obtain ⟨rest, ws, hrest, hpure⟩ := run_bind_eq_ok.1 hskip
        cases hpure
        rw [run_bind_of_ok hnode, run_bind_of_ok (run_skipSemicolons vs),
          run_bind_of_ok (ih hrest)]
        rfl

end Sequence

/-! ### Statements of each kind -/

section Kinds

variable {n : Nat} {expr : Parse Node} {statement : Parse (Option Node)} {us rest : List Token}
  {e : Node} {body : List Node}

theorem run_eat_token (kind : TokenKind) (ts : List Token) :
    (eat false kind).run (kind.token :: ts) = .ok (some kind.token, ts) :=
  run_eat_eq_ok.2 ⟨kind.token, rfl, rfl, rfl⟩

theorem run_eat_word (word : String) (ts : List Token) :
    (eat false .name).run (wordToken word :: ts) = .ok (some (wordToken word), ts) :=
  run_eat_eq_ok.2 ⟨wordToken word, rfl, rfl, rfl⟩

theorem run_eatText_word (word : String) (ts : List Token) :
    (eatText false .name).run (wordToken word :: ts) = .ok (word, ts) :=
  run_eatText_eq_ok.2 ⟨wordToken word, rfl, rfl, rfl⟩

theorem run_atKind_token (kind : TokenKind) (ts : List Token) :
    (atKind kind).run (kind.token :: ts) = .ok (true, kind.token :: ts) := by
  rw [run_atKind, List.head?_cons, Option.any_some, TokenKind.token, beq_self_eq_true]

theorem run_atWord_word (word : String) (ts : List Token) :
    (atWord word).run (wordToken word :: ts) = .ok (true, wordToken word :: ts) := by
  simp [run_atWord, isWord, wordToken]

theorem run_atWord_of_stops (word : String) {ts : List Token}
    (h : Stops (fun t => isWord word t) ts) : (atWord word).run ts = .ok (false, ts) := by
  rcases ts with _ | ⟨t, ts⟩
  · rfl
  · simpa [run_atWord] using h t rfl

theorem typeAfter_phrase (mark : TokenKind) (type : String) :
    TypeAfter mark (typeTokens mark type) type := by
  unfold typeTokens
  split
  · next h => exact h ▸ .none
  · exact .some rfl rfl

/-- A printed type is read back, and `auto` where none was printed. -/
theorem run_typeAfter (mark : TokenKind) (type : String) {ts : List Token}
    (h : Stops (fun t => t.kind = mark) ts) :
    (typeAfter false mark).run (typeTokens mark type ++ ts) = .ok (type, ts) :=
  complete_typeAfter _ mark (Nat.lt_succ_self _) (typeAfter_phrase mark type) h

theorem startsWithPath_word (word : String) {ts : List Token} (hts : Stops continuesTarget ts) :
    StartsWithPath (wordToken word :: ts) :=
  ⟨[wordToken word], .name word, ts, rfl, .name rfl, hts⟩

/-- A word that opens no assignment opens the statement that it names. -/
theorem run_statementWith_word (h : Complete n Expr extending expr) {word : String}
    {ts : List Token} (hts : StartsWithPath (wordToken word :: ts))
    (hlen : (wordToken word :: ts).length < n + 1) :
    (statementWith false n expr statement).run (wordToken word :: ts) =
      (wordStatement false n expr statement word).run (wordToken word :: ts) := by
  have hnone : (assignment? false n expr).run (wordToken word :: ts) =
      .ok (none, wordToken word :: ts) := by
    obtain ⟨us, a, rest, heq, hpath, hrest⟩ := hts
    rw [heq] at hlen ⊢
    exact run_assignment?_path h hpath hlen hrest
  rw [statementWith, run_bind_of_ok hnone]
  exact run_bind_of_ok (run_current _) _

theorem run_declaration (hexpr : expr.run (us ++ rest) = .ok (e, rest)) (id type : String)
    (readOnly forceGlobal forceLocal : Bool) :
    (declaration false expr forceGlobal forceLocal).run
      (wordToken (if readOnly then "let" else "var") :: wordToken id ::
        (typeTokens .colon type ++ TokenKind.equal.token :: (us ++ rest))) =
      .ok (.assign (some id) e .absent ⟨true, forceGlobal, forceLocal, readOnly, type⟩, rest) := by
  have htype : (typeAfter false .colon).run (typeTokens .colon type ++
      TokenKind.equal.token :: (us ++ rest)) = .ok (type, TokenKind.equal.token :: (us ++ rest)) :=
    run_typeAfter _ _ (stops_cons (by decide) _)
  rw [declaration, run_bind_of_ok (run_atWord _ _), run_bind_of_ok (run_advance _), List.tail_cons,
    run_bind_of_ok (run_eatText_word _ _), run_bind_of_ok htype,
    run_bind_of_ok (run_eat_token _ _), run_bind_of_ok hexpr]
  cases readOnly <;> rfl

/-- A function is read back from its name, its parameters, its type and its body. -/
theorem run_function (h : Complete n Expr extending expr) {ps : List Token}
    {params : List (String × String × Node)} (hps : Listed (Parameter Expr) ps params)
    (f returns : String) (hus : Stops (fun t => t.kind = .arrow) us)
    (hbody : (braces false n statement).run us = .ok (body, rest))
    (hlen : (ps ++ TokenKind.rparen.token :: (typeTokens .arrow returns ++ us)).length < n) :
    (function false n expr statement).run (wordToken "func" :: wordToken f ::
      TokenKind.lparen.token :: (ps ++ TokenKind.rparen.token ::
        (typeTokens .arrow returns ++ us))) = .ok (.func f params returns body, rest) := by
  rw [function, run_bind_of_ok (run_advance _), List.tail_cons,
    run_bind_of_ok (run_eatText_word _ _), run_bind_of_ok (run_eat_token _ _),
    (complete_parameters h).run_closed hlen hps rfl,
    run_bind_of_ok (run_typeAfter .arrow returns hus)]
  exact run_bind_of_ok hbody _

theorem run_template (name : String)
    (hbody : (braces false n statement).run us = .ok (body, rest)) :
    (template false n statement).run (wordToken "template" :: wordToken name :: us) =
      .ok (.template name body, rest) := by
  rw [template, run_bind_of_ok (run_advance _), List.tail_cons,
    run_bind_of_ok (run_eatText_word _ _)]
  exact run_bind_of_ok hbody _

theorem run_classDecl (name : String) (base : Option String)
    (hus : Stops (fun t => t.kind = .colon) us)
    (hbody : (braces false n statement).run us = .ok (body, rest)) :
    (classDecl false n statement).run (wordToken "class" :: wordToken name ::
      ((base.map fun b => [TokenKind.colon.token, wordToken b]).getD [] ++ us)) =
      .ok (.cls name base body, rest) := by
  rw [classDecl, run_bind_of_ok (run_advance _), List.tail_cons,
    run_bind_of_ok (run_eatText_word _ _), run_bind_of_ok (run_atKind _ _)]
  cases base with
  | none =>
    simp only [Option.map_none, Option.getD_none, List.nil_append, hus.any_kind]
    exact run_bind_of_ok hbody fun body => pure (Node.cls name none body)
  | some b => exact run_bind_of_ok hbody fun body => pure (Node.cls name (some b) body)

theorem run_returnStmt (hexpr : expr.run us = .ok (e, rest)) :
    (wordStatement false n expr statement "return").run (wordToken "return" :: us) =
      .ok (some (.returnStmt e), rest) := by
  refine (run_bind_of_ok (run_advance _) _).trans ?_
  rw [List.tail_cons, run_map, hexpr]
  rfl

/-- A condition in parentheses. -/
theorem run_condition (hexpr : expr.run (us ++ TokenKind.rparen.token :: rest) =
      .ok (e, TokenKind.rparen.token :: rest)) :
    (condition false expr).run (TokenKind.lparen.token :: (us ++ TokenKind.rparen.token :: rest)) =
      .ok (e, rest) := by
  rw [condition, run_bind_of_ok (run_atKind_token _ _), if_pos rfl,
    run_bind_of_ok (run_advance _), List.tail_cons, run_bind_of_ok hexpr,
    run_bind_of_ok (run_eat_token _ _)]
  rfl

theorem run_forLoop (v : String) (hexpr : expr.run us = .ok (e, rest)) {rest' : List Token}
    (hbody : (braces false n statement).run rest = .ok (body, rest')) :
    (forLoop false n expr statement).run
      (wordToken "for" :: wordToken v :: wordToken "in" :: us) =
      .ok (.forStmt v e (.block body), rest') := by
  rw [forLoop, run_bind_of_ok (run_advance _), List.tail_cons,
    run_bind_of_ok (run_eatText_word _ _), run_bind_of_ok (run_atWord_word _ _)]
  simp only [Bool.not_true, Bool.false_eq_true, if_false]
  rw [run_bind_of_ok (run_eat_word _ _), run_bind_of_ok hexpr]
  exact run_bind_of_ok hbody _

theorem run_whileLoop (hcond : (condition false expr).run us = .ok (e, rest)) {rest' : List Token}
    (hbody : (braces false n statement).run rest = .ok (body, rest')) :
    (whileLoop false n expr statement).run (wordToken "while" :: us) =
      .ok (.whileStmt e (.block body), rest') := by
  rw [whileLoop, run_bind_of_ok (run_advance _), List.tail_cons, run_bind_of_ok hcond]
  exact run_bind_of_ok hbody _

theorem run_guarded (v : String) {ts : List Token} {handler : List Node}
    (hbody : (braces false n statement).run ts =
      .ok (body, wordToken "catch" :: wordToken v :: us))
    (hhandler : (braces false n statement).run us = .ok (handler, rest)) :
    (guarded false n statement).run (wordToken "do" :: ts) =
      .ok (some (.tryCatch (.block body) v (.block handler)), rest) := by
  rw [guarded, run_bind_of_ok (run_advance _), List.tail_cons, run_bind_of_ok hbody,
    run_bind_of_ok (run_atWord_word _ _), if_pos rfl, run_bind_of_ok (run_advance _),
    List.tail_cons, run_bind_of_ok (run_eatText_word _ _)]
  exact run_bind_of_ok hhandler _

theorem wordStatement_of_modifier {kind : String} (h : kind ∈ ["global", "local"]) :
    wordStatement false n expr statement kind = some <$> scopeStatement false expr kind := by
  simp only [List.mem_cons, List.not_mem_nil, or_false] at h
  rcases h with rfl | rfl <;> rfl

/-- Without a declaration after it, a modifier is a statement about the name alone. -/
theorem run_scopeStatement {kind : String} (name : String)
    (hrest : Stops (fun t => isWord "var" t ∨ isWord "let" t) rest) :
    (scopeStatement false expr kind).run (wordToken kind :: wordToken name :: rest) =
      .ok (.intent kind name, rest) := by
  have hvar := run_atWord_of_stops "var" (hrest.mono fun _ => .inl)
  have hlet := run_atWord_of_stops "let" (hrest.mono fun _ => .inr)
  rw [scopeStatement, run_bind_of_ok (run_advance _), List.tail_cons,
    run_bind_of_ok (run_eatText_word _ _), run_bind_of_ok hvar, run_bind_of_ok hlet]
  rfl

def conditionalTokens (us vs : List Token) : List Token :=
  wordToken "if" :: TokenKind.lparen.token :: (us ++ TokenKind.rparen.token :: vs)

section Conditional

variable {vs ws : List Token} {k : Nat}
  (hcond : (condition false expr).run us = .ok (e, vs))
  (hbody : (braces false n statement).run vs = .ok (body, ws))

include hcond hbody

theorem run_conditional_then (hws : Stops opensBranch (skipped ws)) :
    (conditional false n expr statement (k + 1)).run (wordToken "if" :: us) =
      .ok (.ifStmt e (.block body) .absent, skipped ws) := by
  have helse := run_atWord_of_stops "else" (hws.mono fun _ => .inl)
  have helif := run_atWord_of_stops "elif" (hws.mono fun _ => .inr)
  rw [conditional, run_bind_of_ok (run_eat_word _ _), run_bind_of_ok hcond, run_bind_of_ok hbody,
    run_bind_of_ok (run_skipSemicolons ws), run_bind_of_ok helse]
  exact run_bind_of_ok helif _

/-- A conditional with a block for the other case. -/
theorem run_conditional_else {xs ys : List Token} {other : List Node}
    (hws : ws = wordToken "else" :: xs) (hxs : Stops (fun t => t.kind = .name) xs)
    (hother : (braces false n statement).run xs = .ok (other, ys)) :
    (conditional false n expr statement (k + 1)).run (wordToken "if" :: us) =
      .ok (.ifStmt e (.block body) (.block other), ys) := by
  have hskip : skipped ws = wordToken "else" :: xs := by rw [hws]; rfl
  have hif := run_atWord_of_stops "if" (hxs.mono fun t ht => by simp [isWord] at ht; exact ht.1)
  rw [conditional, run_bind_of_ok (run_eat_word _ _), run_bind_of_ok hcond, run_bind_of_ok hbody,
    run_bind_of_ok (run_skipSemicolons ws), hskip, run_bind_of_ok (run_atWord_word _ _), if_pos rfl,
    run_bind_of_ok (run_advance _), List.tail_cons, run_bind_of_ok hif]
  exact run_bind_of_ok hother _

/-- A further conditional takes the place of the other block. -/
theorem run_conditional_elseIf {xs ys : List Token} {other : Node}
    (hws : ws = wordToken "else" :: wordToken "if" :: xs)
    (hother : (conditional false n expr statement k).run (wordToken "if" :: xs) = .ok (other, ys)) :
    (conditional false n expr statement (k + 1)).run (wordToken "if" :: us) =
      .ok (.ifStmt e (.block body) other, ys) := by
  have hskip : skipped ws = wordToken "else" :: wordToken "if" :: xs := by rw [hws]; rfl
  rw [conditional, run_bind_of_ok (run_eat_word _ _), run_bind_of_ok hcond, run_bind_of_ok hbody,
    run_bind_of_ok (run_skipSemicolons ws), hskip, run_bind_of_ok (run_atWord_word _ _), if_pos rfl,
    run_bind_of_ok (run_advance _), List.tail_cons, run_bind_of_ok (run_atWord_word _ _),
    if_pos rfl]
  exact run_bind_of_ok hother _

end Conditional

end Kinds

end Parse

end ScriptLang
