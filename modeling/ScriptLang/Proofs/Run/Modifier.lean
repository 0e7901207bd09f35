import Mathlib.Data.List.TakeWhile
import ScriptLang.Proofs.Parse.RoundTrip
import ScriptLang.Proofs.Parse.Sequence
import ScriptLang.Proofs.Parse.Silence
import ScriptLang.Proofs.Scope.Forest
import ScriptLang.Proofs.Scope.Nested

/-!
# Declarations after `global` and `local`

What `global var x = e` and `local var x = e` do. The word after the modifier is taken for the name
that is meant to be global or local, so that name is `var`, and what is left is the assignment
`x = e`. It writes the nearest binding of `x`, or binds `x` where `x` is meant to be; the modifier
has no part in it.

The intent comes first, but the value of `e` is the one that it has before the statement: an
expression without calls sees of the scopes only what names read as.
-/

namespace ScriptLang

open Grammar

namespace Lexeme

/-! ### Tokens -/

def IsName (s : String) : Prop :=
  ∃ c cs, s.toList = c :: cs ∧ isNameStart c = true ∧ ∀ d ∈ cs, isNameRest d = true

theorem isName_of_modifier {kind : String} (h : kind ∈ ["global", "local"]) : IsName kind := by
  simp only [List.mem_cons, List.not_mem_nil, or_false] at h
  rcases h with rfl | rfl
  · exact ⟨'g', ['l', 'o', 'b', 'a', 'l'], rfl, rfl, List.all_eq_true.1 rfl⟩
  · exact ⟨'l', ['o', 'c', 'a', 'l'], rfl, rfl, List.all_eq_true.1 rfl⟩

theorem toNat_lt_of_isNameStart {c : Char} (h : isNameStart c = true) : c.toNat < 128 := by
  have halpha : c.isAlpha = (decide (65 ≤ c.val ∧ c.val ≤ 90) ||
      (decide (97 ≤ c.val) && decide (c.val ≤ 122))) := rfl
  simp only [isNameStart, halpha, Bool.or_eq_true, Bool.and_eq_true, decide_eq_true_eq, beq_iff_eq,
    UInt32.le_iff_toNat_le] at h
  rcases h with (((h | h) | rfl) | rfl) | rfl
  · exact Nat.lt_of_le_of_lt h.2 (by decide)
  · exact Nat.lt_of_le_of_lt h.2 (by decide)
  all_goals decide

/-- A character that can start a name scans as a name. -/
theorem scan_of_isNameStart {c : Char} (h : isNameStart c = true) (cs : List Char) :
    scan c cs = (.name, run isNameRest cs) := by
  have hdecimal : Text.isDecimal c = false := by
    have hall : ∀ n < 128, isNameStart (Char.ofNat n) = true →
        Text.isDecimal (Char.ofNat n) = false := by decide
    have hc := hall c.toNat (toNat_lt_of_isNameStart h)
    rw [Char.ofNat_toNat] at hc
    exact hc h
  unfold scan
  split
  all_goals first
    | exact absurd h (by decide)
    | simp [hdecimal, h]

/-- The first lexeme of a text and the tokens of the rest, if the lexeme is on one line. -/
theorem tokenize_cons {c : Char} {cs : List Char} {kind : TokenKind} {n : Nat}
    (hscan : scan c cs = (kind, n)) (hline : '\n' ∉ c :: cs.take n) :
    tokenize (String.ofList (c :: cs)) =
      (if kind.isGap then [] else [⟨kind, String.ofList (c :: cs.take n), 1⟩]) ++
        tokenize (String.ofList (cs.drop n)) := by
  have hcount : (c :: cs.take n).count '\n' = 0 := List.count_eq_zero.2 hline
  simp only [tokenize, split, String.toList_ofList]
  rw [splitFrom_cons, hscan, toTokens_cons, newlines, hcount, isToken]
  cases kind.isGap <;> rfl

theorem tokenize_space {c : Char} (hc : c = ' ' ∨ c = '\t') (cs : List Char) :
    tokenize (String.ofList (c :: cs)) = tokenize (String.ofList cs) := by
  let blank (c : Char) : Bool := c == ' ' || c == '\t'
  have hskip {c : Char} (hc : c = ' ' ∨ c = '\t') (cs : List Char) :
      tokenize (String.ofList (c :: cs)) = tokenize (String.ofList (cs.drop (run blank cs))) := by
    have hline : '\n' ∉ c :: cs.take (run blank cs) := by
      rw [run, ← List.prefix_iff_eq_take.1 (List.takeWhile_prefix blank)]
      rintro (_ | ⟨_, hmem⟩)
      · simp at hc
      · exact absurd (List.mem_takeWhile_imp hmem) (by decide)
    have hscan : scan c cs = (.skip, run blank cs) := by obtain rfl | rfl := hc <;> rfl
    rw [tokenize_cons hscan hline]
    rfl
  rw [hskip hc]
  cases cs with
  | nil => rfl
  | cons d cs =>
    by_cases hd : d = ' ' ∨ d = '\t'
    · have hrun : run blank (d :: cs) = run blank cs + 1 := by simp [run, blank, hd]
      rw [hrun, hskip hd, List.drop_succ_cons]
    · have hrun : run blank (d :: cs) = 0 := by simp [run, blank, hd]
      rw [hrun, List.drop_zero]

/-- A name goes as far as it can. -/
theorem tokenize_name_append {s : String} (h : IsName s) {cs : List Char}
    (hcs : ∀ c ∈ cs.head?, isNameRest c = false) :
    tokenize (String.ofList (s.toList ++ cs)) = wordToken s :: tokenize (String.ofList cs) := by
  obtain ⟨c, ds, hs, hc, hds⟩ := h
  have hrun : run isNameRest (ds ++ cs) = ds.length := by
    have hnone : cs.takeWhile isNameRest = [] := by
      cases cs with
      | nil => rfl
      | cons d cs => rw [List.takeWhile_cons, hcs d rfl]; rfl
    simp [run, List.takeWhile_append_of_pos hds, hnone]
  have hline : '\n' ∉ c :: ds := by
    rintro (_ | ⟨_, hmem⟩)
    · exact absurd hc (by decide)
    · exact absurd (hds _ hmem) (by decide)
  have hscan := scan_of_isNameStart hc (ds ++ cs)
  rw [hrun] at hscan
  rw [hs, List.cons_append, tokenize_cons hscan (by rwa [List.take_left]), List.take_left,
    List.drop_left, ← hs, String.ofList_toList]
  rfl

/-- A name with a blank after it is one token. -/
theorem tokenize_name {s : String} (h : IsName s) (cs : List Char) :
    tokenize (String.ofList (s.toList ++ ' ' :: cs)) =
      wordToken s :: tokenize (String.ofList cs) := by
  rw [tokenize_name_append h (by simp; rfl), tokenize_space (.inl rfl)]

theorem tokenize_equal (cs : List Char) : tokenize (String.ofList ('=' :: ' ' :: cs)) =
    TokenKind.equal.token :: tokenize (String.ofList cs) := by
  have hscan : scan '=' (' ' :: cs) = (.equal, 0) := rfl
  rw [tokenize_cons hscan (by simp), List.drop_zero, tokenize_space (.inl rfl)]
  rfl

/-- The tokens of a declaration after a modifier. -/
theorem tokenize_modified {kind x : String} (hkind : kind ∈ ["global", "local"]) (hx : IsName x)
    (source : String) : tokenize (kind ++ " var " ++ x ++ " = " ++ source) =
      wordToken kind :: wordToken "var" :: wordToken x :: TokenKind.equal.token ::
        tokenize source := by
  have hvar : IsName "var" := ⟨'v', ['a', 'r'], rfl, rfl, List.all_eq_true.1 rfl⟩
  have hcode : kind ++ " var " ++ x ++ " = " ++ source = String.ofList (kind.toList ++ ' ' ::
      ("var".toList ++ ' ' :: (x.toList ++ ' ' :: '=' :: ' ' :: source.toList))) := by
    rw [← String.toList_inj]
    simp
  rw [hcode, tokenize_name (isName_of_modifier hkind), tokenize_name hvar, tokenize_name hx,
    tokenize_equal, String.ofList_toList]

end Lexeme

namespace Parse

/-! ### Statements -/

variable {kind x : String} {us : List Token} {node : Node}

/-- The word after a modifier is the name that the modifier is about. -/
theorem run_statement_modifier {n : Nat} (hkind : kind ∈ ["global", "local"])
    (hx : x ∉ ["var", "let"]) (hlen : us.length + 4 < n) :
    (Parse.statement false (n + 1)).run (wordToken kind :: wordToken "var" :: wordToken x :: us) =
      .ok (some (.intent kind "var"), wordToken x :: us) := by
  have hstart := startsWithPath_word kind (stops_word "var" (wordToken x :: us))
  have hrest : Stops (fun t => isWord "var" t ∨ isWord "let" t) (wordToken x :: us) := by
    refine stops_cons (fun h => hx ?_) us
    simpa [isWord, wordToken] using h
  rw [Parse.statement, run_statementWith_word (reads_expr n).complete hstart (by simp; omega),
    wordStatement_of_modifier hkind]
  exact run_some (run_scopeStatement "var" hrest)

/-- A declaration of `var` or `let` after the word has no name. -/
theorem run_statement_modifier_declaration {n : Nat} (hkind : kind ∈ ["global", "local"])
    (hx : x ∈ ["var", "let"]) {t : Token} (ht : t.kind ≠ .name) (hlen : us.length + 4 < n) :
    (Parse.statement false (n + 1)).run
      (wordToken kind :: wordToken "var" :: wordToken x :: t :: us) =
      .error (.reported (.expectedToken "ID" t.describe)) := by
  have hstart := startsWithPath_word kind (stops_word "var" (wordToken x :: t :: us))
  have hname : (eatText false .name).run (t :: us) =
      .error (.reported (.expectedToken "ID" t.describe)) := by
    rw [eatText, run_bind, run_eat_cons, if_neg ht]
    rfl
  have hdeclaration (forceGlobal forceLocal : Bool) :
      (declaration false (Parse.expr false n) forceGlobal forceLocal).run
        (wordToken x :: t :: us) = .error (.reported (.expectedToken "ID" t.describe)) := by
    rw [declaration, run_bind_of_ok (run_atWord _ _), run_bind_of_ok (run_advance _),
      List.tail_cons, run_bind, hname]
  have hword : (isWord "var" (wordToken x) || isWord "let" (wordToken x)) = true := by
    simpa [isWord, wordToken] using hx
  rw [Parse.statement, run_statementWith_word (reads_expr n).complete hstart (by simp; omega),
    wordStatement_of_modifier hkind, run_map, scopeStatement, run_bind_of_ok (run_advance _),
    List.tail_cons, run_bind_of_ok (run_eatText_word _ _), run_bind_of_ok (run_atWord _ _),
    run_bind_of_ok (run_atWord _ _)]
  simp only [List.head?_cons, Option.any_some, hword, if_true]
  rw [hdeclaration]

theorem run_statement_assign {n : Nat} (hus : Expr us node) (hlen : us.length + 2 < n) :
    (Parse.statement false (n + 1)).run (wordToken x :: TokenKind.equal.token :: us) =
      .ok (some (.assign (some x) node .absent {}), []) := by
  have hpath : Path Expr [wordToken x] (.name x) := .name rfl
  have hassign : (assignment? false n (Parse.expr false n)).run
      ([wordToken x] ++ TokenKind.equal.token :: (us ++ [])) =
      .ok (some (assignment (.name x) none node), []) :=
    run_assignment?_operator (reads_expr n).complete hpath rfl hus (by simp; omega)
      (by simp [Stops])
  rw [List.append_nil] at hassign
  exact run_bind_of_ok hassign _

/-- The modifier takes the word `var` for its name, and the rest is an assignment. -/
theorem parseTokens_modified (hkind : kind ∈ ["global", "local"]) (hx : x ∉ ["var", "let"])
    (hus : Expr us node) :
    parseTokens false (wordToken kind :: wordToken "var" :: wordToken x ::
      TokenKind.equal.token :: us) =
      .ok [.intent kind "var", .assign (some x) node .absent {}] := by
  refine parseTokens_eq_ok.2 ?_
  change (programFrom (Parse.statement false (us.length + 7)) (us.length + 7)).run _ = _
  rw [run_programFrom_cons _ _ rfl, run_bind_of_ok (run_statement_modifier hkind hx (by simp)),
    run_bind, run_programFrom_cons _ _ rfl,
    run_bind_of_ok (run_statement_assign hus (by omega)),
    run_bind_of_ok (run_programFrom_nil _ _ rfl)]
  rfl

/-- With `var` or `let` as the name, a declaration is read and refused. -/
theorem parseTokens_modified_declaration (hkind : kind ∈ ["global", "local"])
    (hx : x ∈ ["var", "let"]) (us : List Token) :
    parseTokens false (wordToken kind :: wordToken "var" :: wordToken x ::
      TokenKind.equal.token :: us) =
      .error (.reported (.expectedToken "ID" TokenKind.equal.token.describe)) := by
  have hrun : (programFrom (Parse.statement false (us.length + 7)) (us.length + 7)).run
      (wordToken kind :: wordToken "var" :: wordToken x :: TokenKind.equal.token :: us) =
      .error (.reported (.expectedToken "ID" TokenKind.equal.token.describe)) := by
    rw [run_programFrom_cons _ _ rfl, run_bind,
      run_statement_modifier_declaration hkind hx (by decide) (by omega)]
  change Prod.fst <$> (programFrom (Parse.statement false (us.length + 7))
    (us.length + 7)).run _ = _
  rw [hrun]
  rfl

end Parse

/-- An embedded expression that is read is one. -/
theorem expr_tokenize_of_parseEmbedded {source : String} {node : Node}
    (h : parseEmbedded false source = .ok node) : Expr (tokenize source) node := by
  obtain ⟨used, hused, hexpr, -⟩ := (Parse.reads_expr _).sound (parseEmbedded_eq_ok_iff.1 h)
  rwa [hused, List.append_nil]

namespace Scopes

/-! ### Intents and bindings -/

variable {α : Type} (ss : Scopes α) (e i : ScopeId) (name kind x : String)

/-- An intent changes no scope but for what is meant for it. -/
theorem scope_setIntent : ∃ intents, (ss.setIntent e name kind).scope i =
    { ss.scope i with intents } := by
  rw [setIntent, scope_update]
  split
  · exact ⟨_, rfl⟩
  · exact ⟨_, rfl⟩

@[simp] theorem vars_setIntent :
    ((ss.setIntent e name kind).scope i).vars = (ss.scope i).vars := by
  obtain ⟨_, h⟩ := ss.scope_setIntent e i name kind
  rw [h]

@[simp] theorem binding?_setIntent :
    ((ss.setIntent e name kind).scope i).binding? x = (ss.scope i).binding? x := by
  obtain ⟨_, h⟩ := ss.scope_setIntent e i name kind
  rw [h]
  rfl

@[simp] theorem chain_setIntent : (ss.setIntent e name kind).chain i = ss.chain i := by
  obtain ⟨_, h⟩ := ss.scope_setIntent e i name kind
  rw [chain, h, chain]

@[simp] theorem get?_setIntent : (ss.setIntent e name kind).get? i x = ss.get? i x := by
  simp only [get?, chain_setIntent, vars_setIntent]

@[simp] theorem holder?_setIntent : (ss.setIntent e name kind).holder? i x = ss.holder? i x := by
  simp only [holder?, chain_setIntent, vars_setIntent]

@[simp] theorem isReadOnly_setIntent :
    (ss.setIntent e name kind).isReadOnly i x = ss.isReadOnly i x := by
  rw [isReadOnly, holder?_setIntent, isReadOnly]
  cases ss.holder? i x with
  | none => rfl
  | some h =>
    obtain ⟨_, hscope⟩ := ss.scope_setIntent e h name kind
    simp only [hscope]
    rfl

variable {ss e i name kind x}

theorem intents_setIntent_of_ne (h : name ≠ x) :
    ((ss.setIntent e name kind).scope i).intents.get? x = (ss.scope i).intents.get? x := by
  rw [setIntent, scope_update]
  split
  · exact (Table.get?_set ..).trans (if_neg h)
  · rfl

/-- What is meant for one name does not tell where another is written. -/
theorem written_setIntent (h : name ≠ x) :
    (ss.setIntent e name kind).written i x = ss.written i x := by
  have hroot : (ss.setIntent e name kind).root i = ss.root i := by
    obtain ⟨_, h⟩ := ss.scope_setIntent e i name kind
    rw [root, h, root]
  have hintent : (ss.setIntent e name kind).intent? i x = ss.intent? i x := by
    simp only [intent?, chain_setIntent, intents_setIntent_of_ne h]
  rw [written, written, holder?_setIntent, home, home, hroot, hintent]

/-- What an assignment binds after an intent for another name. -/
theorem binding?_assign_setIntent (hname : name ≠ x) (hwritten : ss.written e x < ss.size)
    (kind : String) (v : α) (i : ScopeId) (y : String) :
    (((ss.setIntent e name kind).assign e x v).scope i).binding? y =
      if i = ss.written e x ∧ x = y then some (v, ss.isReadOnly e x)
      else (ss.scope i).binding? y := by
  have hlt : (ss.setIntent e name kind).written e x < (ss.setIntent e name kind).size := by
    rw [written_setIntent hname, setIntent, size_update]
    exact hwritten
  rw [binding?_assign hlt, written_setIntent hname, isReadOnly_setIntent, binding?_setIntent]

/-- What was just said about a name holds. -/
theorem intent?_setIntent_self (he : e < ss.size) :
    (ss.setIntent e name kind).intent? e name = some kind := by
  rw [intent?, chain, List.findSome?_cons, setIntent, scope_update, if_pos ⟨rfl, he⟩,
    Table.get?_set, if_pos rfl]

theorem intent?_assign (v : α) (y : String) :
    (ss.assign e x v).intent? i y = ss.intent? i y := by
  obtain ⟨f, hf, heq⟩ := ss.exists_assign_eq_update e x v
  rw [heq, intent?_update ss _ hf.intents hf.ancestors]

def SameBindings (ss ss' : Scopes α) : Prop :=
  ∀ i y, (ss'.scope i).binding? y = (ss.scope i).binding? y

/-- The scopes have the same bindings except that scope `t` now binds `x` to `v`. -/
structure BindsIn (t : ScopeId) (x : String) (v : α) (ss ss' : Scopes α) : Prop where
  value : (ss'.scope t).vars.get? x = some v
  others : ∀ i y, i ≠ t ∨ y ≠ x → (ss'.scope i).binding? y = (ss.scope i).binding? y

/-- The flag that an assignment keeps is that of the binding it writes, if there is one. -/
theorem isReadOnly_written (h : (ss.scope (ss.written e x)).vars.has x = true) :
    ss.isReadOnly e x = (ss.scope (ss.written e x)).isReadOnly x := by
  have hmem := ss.written_mem_chain e x
  cases hholder : ss.holder? e x with
  | none => exact absurd h (List.find?_eq_none.1 hholder _ hmem)
  | some i => rw [isReadOnly, written, hholder, Option.getD_some]

/-- Where an assignment binds its name: in the scope that it writes, and in another one only if both
had the value already. -/
theorem bindsIn_iff {v : α} {ss' : Scopes α} (hss' : ∀ i y, (ss'.scope i).binding? y =
      if i = ss.written e x ∧ x = y then some (v, ss.isReadOnly e x) else (ss.scope i).binding? y)
    (t : ScopeId) : BindsIn t x v ss ss' ↔ ss.written e x = t ∨
      (ss.scope t).vars.get? x = some v ∧ (ss.scope (ss.written e x)).vars.get? x = some v := by
  have hwritten := hss' (ss.written e x) x
  rw [if_pos ⟨rfl, rfl⟩] at hwritten
  constructor
  · intro h
    refine or_iff_not_imp_left.2 fun hne => ⟨?_, ?_⟩
    · have ht := hss' t x
      rw [if_neg fun h => hne h.1.symm] at ht
      rw [← Scope.map_fst_binding?, ← ht, Scope.map_fst_binding?]
      exact h.value
    · rw [← Scope.map_fst_binding?, ← h.others _ x (.inl hne), hwritten]
      rfl
  · rintro (rfl | ⟨ht, hw⟩)
    · refine ⟨by rw [← Scope.map_fst_binding?, hwritten]; rfl, fun i y h => ?_⟩
      rw [hss', if_neg fun hi => h.elim (fun h => h hi.1) fun h => h hi.2.symm]
    · -- the value is written once more, with the flag that it has
      have hhas : (ss.scope (ss.written e x)).vars.has x = true := by simp [Table.has, hw]
      have hkept : SameBindings ss ss' := by
        intro i y
        rw [hss']
        split
        · next h =>
            obtain ⟨rfl, rfl⟩ := h
            rw [Scope.binding?, hw, isReadOnly_written hhas, Option.map_some]
        · rfl
      refine ⟨?_, fun i y _ => hkept i y⟩
      rw [← Scope.map_fst_binding?, hkept, Scope.map_fst_binding?, ht]

end Scopes

namespace Exec

variable {kind x : String} {node : Node} {depth : Nat} {m m₁ : Machine} {e : ScopeId} {v : Value}

/-- An assignment of the value that its expression has; the name `_` is not assigned. -/
theorem run_execute_assign (hvalue :
      ((Engine.ofDepth depth).evaluate node e).run { m with current := e } = (.ok v, m₁)) :
    ((Engine.ofDepth (depth + 1)).execute (.assign (some x) node .absent {}) e).run m =
      (do
        if x ≠ "_" then assignName e x v
        pure Value.none : Exec Value).run m₁ := by
  have hscope : (inScope e).run m = (.ok (), { m with current := e }) := rfl
  change (executeStep (.ofDepth depth) (.assign (some x) node .absent {}) e).run m = _
  rw [executeStep, run_bind, hscope]
  dsimp only
  rw [executeAssign, run_bind, run_bind, hvalue]
  dsimp only
  by_cases hx : x = "_"
  · rw [if_neg (by simp [hx, Node.isAbsent]), if_neg (not_not_intro hx)]
    rfl
  · have habsent : ¬ (!Node.absent.isAbsent) = true := by decide
    rw [if_pos (by simp [hx]), if_pos hx, if_neg Bool.false_ne_true, if_neg habsent,
      if_neg Bool.false_ne_true, run_bind]
    rfl

section Modified

variable (hfree : node.CallFree) (hvalue :
    ((Engine.ofDepth depth).evaluate node e).run { m with current := e } = (.ok v, m₁))
  (name kind : String)

include hfree hvalue

/-- An intent for another name and an assignment, whose value is the one before the intent. -/
theorem run_modified :
    ((Engine.ofDepth (depth + 1)).executeAll e
      [.intent kind name, .assign (some x) node .absent {}]).run m =
      (do
        if x ≠ "_" then assignName e x v
        pure Value.none : Exec Value).run
        { m₁ with scopes := m.scopes.setIntent e name kind } := by
  have hswap := (readsNames_evaluate depth hfree e { m with current := e }).2
    (m.scopes.setIntent e name kind) fun _ => Scopes.get?_setIntent ..
  rw [hvalue] at hswap
  have hintent : ((Engine.ofDepth (depth + 1)).execute (.intent kind name) e).run m =
      (.ok .none, { m with current := e, scopes := m.scopes.setIntent e name kind }) := rfl
  change ((Engine.ofDepth (depth + 1)).execute (.intent kind name) e >>= fun _ =>
    (Engine.ofDepth (depth + 1)).execute (.assign (some x) node .absent {}) e).run m = _
  rw [run_bind, hintent]
  exact run_execute_assign hswap

/-- The value that is not wanted is dropped, after the modifier has taken its effect. -/
theorem run_modified_skip (hx : x = "_") :
    ((Engine.ofDepth (depth + 1)).executeAll e
      [.intent kind name, .assign (some x) node .absent {}]).run m =
      (.ok .none, { m₁ with scopes := m.scopes.setIntent e name kind }) := by
  rw [run_modified hfree hvalue, if_neg (not_not_intro hx)]
  rfl

/-- A read-only name ends the program with a notice, after the modifier has taken its effect. -/
theorem run_modified_readOnly (hx : x ≠ "_") (hquiet : m₁.isQuiet = false)
    (hro : m.scopes.isReadOnly e x = true) :
    ((Engine.ofDepth (depth + 1)).executeAll e
      [.intent kind name, .assign (some x) node .absent {}]).run m =
      (.error (.exit (.int 1)), { m₁ with
        scopes := m.scopes.setIntent e name kind
        world := m₁.world.emit ((Notice.readOnly x).event m₁.reader) }) := by
  let m₂ : Machine := { m₁ with scopes := m.scopes.setIntent e name kind }
  have hro₂ : m₂.scopes.isReadOnly e x = true := (Scopes.isReadOnly_setIntent ..).trans hro
  rw [run_modified hfree hvalue, if_pos hx, run_bind,
    run_assignName_readOnly (m := m₂) hquiet hro₂ v]

/-- Any other name is assigned after the modifier has taken its effect. -/
theorem run_modified_write (hx : x ≠ "_") (hro : m.scopes.isReadOnly e x = false) :
    ((Engine.ofDepth (depth + 1)).executeAll e
      [.intent kind name, .assign (some x) node .absent {}]).run m =
      (.ok .none, { m₁ with scopes := (m.scopes.setIntent e name kind).assign e x v }) := by
  let m₂ : Machine := { m₁ with scopes := m.scopes.setIntent e name kind }
  have hro₂ : m₂.scopes.isReadOnly e x = false := (Scopes.isReadOnly_setIntent ..).trans hro
  rw [run_modified hfree hvalue, if_pos hx, run_bind, run_assignName (m := m₂) hro₂]
  rfl

end Modified

end Exec

open Exec Scopes in
/-- What a declaration after a modifier does. A variable that is called `var` or `let` cannot be
declared so. Otherwise the modifier is noted for the name `var`, and then `x` is assigned: `_` not
at all, a read-only name with an end of the program, and every other name in the scope that a bare
assignment writes. So the scope that the modifier asks for is written exactly if the bare assignment
writes it too, or if there is nothing to change. -/
theorem modified_declaration_iff {kind x source : String} {node : Node}
    (hkind : kind ∈ ["global", "local"]) (hx : Lexeme.IsName x)
    (hsource : parseEmbedded false source = .ok node) (hfree : node.CallFree) :
    let program := parseProgram false (kind ++ " var " ++ x ++ " = " ++ source)
    let statements := [Node.intent kind "var", .assign (some x) node .absent {}]
    (x ∈ ["var", "let"] → program =
      .error (.reported (.expectedToken "ID" TokenKind.equal.token.describe))) ∧
    (x ∉ ["var", "let"] → program = .ok statements ∧
      ∀ (depth : Nat) (m m₁ : Machine) (e : ScopeId) (v : Value),
        (∀ i ∈ m.scopes.chain e, i < m.scopes.size) → m₁.isQuiet = false →
        ((Engine.ofDepth depth).evaluate node e).run { m with current := e } = (.ok v, m₁) →
        let run := ((Engine.ofDepth (depth + 1)).executeAll e statements).run m
        let target := if kind = "global" then m.scopes.root e else e
        run.2.scopes.intent? e "var" = some kind ∧
        (x = "_" → run.1 = .ok .none ∧ SameBindings m.scopes run.2.scopes) ∧
        (x ≠ "_" → m.scopes.isReadOnly e x = true →
          run.1 = .error (.exit (.int 1)) ∧ SameBindings m.scopes run.2.scopes) ∧
        (x ≠ "_" → m.scopes.isReadOnly e x = false → run.1 = .ok .none ∧
          BindsIn (m.scopes.written e x) x v m.scopes run.2.scopes ∧
          (BindsIn target x v m.scopes run.2.scopes ↔ m.scopes.written e x = target ∨
            (m.scopes.scope target).vars.get? x = some v ∧
              (m.scopes.scope (m.scopes.written e x)).vars.get? x = some v))) := by
  intro program statements
  have hprogram : program = parseTokens false _ :=
    congrArg (parseTokens false) (Lexeme.tokenize_modified hkind hx source)
  rw [hprogram]
  refine ⟨fun hword => Parse.parseTokens_modified_declaration hkind hword _, fun hword => ⟨?_, ?_⟩⟩
  · exact Parse.parseTokens_modified hkind hword (expr_tokenize_of_parseEmbedded hsource)
  intro depth m m₁ e v hchain hquiet hvalue run target
  have hvar : "var" ≠ x := fun h => hword (by simp [← h])
  have hintent : (m.scopes.setIntent e "var" kind).intent? e "var" = some kind :=
    intent?_setIntent_self (hchain e List.mem_cons_self)
  have hsame : SameBindings m.scopes (m.scopes.setIntent e "var" kind) :=
    fun i y => binding?_setIntent ..
  by_cases hskip : x = "_"
  · have hrun : run = _ := run_modified_skip hfree hvalue "var" kind hskip
    rw [hrun]
    exact ⟨hintent, fun _ => ⟨rfl, hsame⟩, fun h => absurd hskip h, fun h => absurd hskip h⟩
  cases hro : m.scopes.isReadOnly e x with
  | true =>
    have hrun : run = _ := run_modified_readOnly hfree hvalue "var" kind hskip hquiet hro
    rw [hrun]
    exact ⟨hintent, fun h => absurd h hskip, fun _ _ => ⟨rfl, hsame⟩,
      fun _ h => absurd h.symm Bool.false_ne_true⟩
  | false =>
    have hrun : run = _ := run_modified_write hfree hvalue "var" kind hskip hro
    have hlt : m.scopes.written e x < m.scopes.size := hchain _ (m.scopes.written_mem_chain e x)
    have hbinding := binding?_assign_setIntent hvar hlt kind v
    rw [hrun]
    refine ⟨(intent?_assign v "var").trans hintent, fun h => absurd h hskip,
      fun _ h => absurd h Bool.false_ne_true, fun _ _ => ⟨rfl, ?_, bindsIn_iff hbinding target⟩⟩
    exact (bindsIn_iff hbinding _).2 (.inl rfl)

open Exec Scopes in
/-- A function declares a global: the variable is its own, and the outermost scope has none. -/
theorem modified_declaration_iff_function :
    let m : Machine := { scopes := #[{}, { ancestors := [0] }] }
    let statements := [Node.intent "global" "var", .assign (some "x") (.number (.int 5)) .absent {}]
    let run := ((Engine.ofDepth 2).executeAll 1 statements).run m
    parseProgram false ("global" ++ " var " ++ "x" ++ " = " ++ "5") = .ok statements ∧
      run.1 = .ok .none ∧ BindsIn 1 "x" (.int 5) m.scopes run.2.scopes ∧
      ¬ BindsIn 0 "x" (.int 5) m.scopes run.2.scopes := by
  intro m statements run
  have hname : Lexeme.IsName "x" := ⟨'x', [], rfl, rfl, List.all_eq_true.1 rfl⟩
  have hsource : parseEmbedded false "5" = .ok (.number (.int 5)) := rfl
  have hkind : "global" ∈ ["global", "local"] := List.mem_cons_self
  obtain ⟨hprogram, hruns⟩ :=
    (modified_declaration_iff hkind hname hsource (.number _)).2 (by decide)
  have hvalue : ((Engine.ofDepth 1).evaluate (.number (.int 5)) 1).run { m with current := 1 } =
      (.ok (.int 5), { m with current := 1 }) := rfl
  obtain ⟨-, -, -, hwrite⟩ := hruns 1 m { m with current := 1 } 1 (.int 5) (by decide) (by decide)
    hvalue
  obtain ⟨hok, hbinds, hiff⟩ := hwrite (by decide) (by decide)
  refine ⟨hprogram, hok, hbinds, fun h => ?_⟩
  rcases hiff.1 h with heq | ⟨hget, -⟩
  · exact absurd heq (by decide)
  · cases hget

end ScriptLang
