import ScriptLang.Proofs.Parse.Basic

/-!
# Parsing expressions

Each level of the parser of expressions reads the phrases of its level, given a parser that reads
the expressions inside. By induction on the bound the parser reads exactly the expressions of the
grammar.
-/

namespace ScriptLang

open Grammar

namespace Parse

/-! ### Operators -/

theorem orOperator?_eq_some (t : Token) (op : BinaryOp) :
    orOperator? t = some op ↔ orOp t op := by
  simp [orOperator?, orOp, eq_comm]

theorem andOperator?_eq_some (t : Token) (op : BinaryOp) :
    andOperator? t = some op ↔ andOp t op := by
  simp [andOperator?, andOp, eq_comm]

theorem comparison?_eq_some (t : Token) (op : BinaryOp) :
    comparison? t = some op ↔ comparisonOp t op := by
  unfold comparison? comparisonOp comparisonKinds
  cases t.kind <;> simp [eq_comm]

theorem sumOperator?_eq_some (t : Token) (op : BinaryOp) :
    sumOperator? t = some op ↔ sumOp t op := by
  unfold sumOperator? sumOp
  grind

theorem productOperator?_eq_some (t : Token) (op : BinaryOp) :
    productOperator? t = some op ↔ productOp t op := by
  unfold productOperator? productOp
  grind

theorem signOperator?_eq_some (t : Token) (op : UnaryOp) :
    signOperator? t = some op ↔ signOp t op := by
  unfold signOperator? signOp
  grind

theorem notOperator?_eq_some (t : Token) (op : UnaryOp) :
    notOperator? t = some op ↔ notOp t op := by
  simp [notOperator?, notOp, eq_comm]

/-! ### First tokens -/

/-- Every phrase has a first token, which is one of `S`. -/
def Begins {α : Type} (S : Token → Prop) (D : Phrase α) : Prop :=
  ∀ ts a, D ts a → ∃ t us, ts = t :: us ∧ S t

def opensPrimary (t : Token) : Prop :=
  t.kind ∈ [.number, .string, .longString, .name, .lbracket, .lbrace, .lparen]

def opensExpr (t : Token) : Prop := t.kind = .not ∨ t.kind = .op ∨ opensPrimary t

section Begins

variable {α : Type} {S S' : Token → Prop} {D E : Phrase Node}

theorem Begins.mono {D : Phrase α} (h : Begins S D) (hS : ∀ t, S t → S' t) : Begins S' D := by
  intro ts a hts
  obtain ⟨t, us, rfl, ht⟩ := h ts a hts
  exact ⟨t, us, rfl, hS t ht⟩

theorem Begins.ne_nil {D : Phrase α} (h : Begins S D) (ts : List Token) (a : α) (hts : D ts a) :
    ts ≠ [] := by
  obtain ⟨t, us, rfl, -⟩ := h ts a hts
  exact List.cons_ne_nil t us

theorem Begins.chain {B : Token → BinaryOp → Prop} (h : Begins S D) : Begins S (Chain B D) := by
  intro ts a hts
  induction hts with
  | one hD => exact h _ _ hD
  | more _ _ _ ih =>
    obtain ⟨t, us, rfl, ht⟩ := ih
    exact ⟨t, _, rfl, ht⟩

theorem Begins.prefixed {U : Token → UnaryOp → Prop} (h : Begins S D) :
    Begins (fun t => (∃ op, U t op) ∨ S t) (Prefixed U D) := by
  intro ts a hts
  cases hts with
  | one hD => exact h.mono (fun _ => .inr) _ _ hD
  | more hU _ => exact ⟨_, _, rfl, .inl ⟨_, hU⟩⟩

theorem begins_enclosed {opening closing : TokenKind} {D : Phrase α} :
    Begins (fun t => t.kind = opening) (Enclosed opening closing D) := by
  rintro _ _ ⟨ho, -, -⟩
  exact ⟨_, _, rfl, ho⟩

/-- Every primary expression has a first token that tells which one it is. -/
theorem begins_primary : Begins opensPrimary (Primary E) := by
  intro ts a hts
  cases hts with
  | number h _ => exact ⟨_, _, rfl, by simp [opensPrimary, h]⟩
  | text h _ => exact ⟨_, _, rfl, by rcases h with h | h <;> simp [opensPrimary, h]⟩
  | name h => exact ⟨_, _, rfl, by simp [opensPrimary, h]⟩
  | list h => exact begins_enclosed.mono (fun t ht => by simp [opensPrimary, ht]) _ _ h
  | dict h => exact begins_enclosed.mono (fun t ht => by simp [opensPrimary, ht]) _ _ h
  | group h => exact begins_enclosed.mono (fun t ht => by simp [opensPrimary, ht]) _ _ h

theorem begins_postfixed : Begins opensPrimary (Postfixed E) := by
  intro ts a hts
  induction hts with
  | one h => exact begins_primary _ _ h
  | member _ _ _ ih | call _ _ ih | index _ _ ih =>
    obtain ⟨t, us, rfl, ht⟩ := ih
    exact ⟨t, _, rfl, ht⟩

theorem begins_unary :
    Begins (fun t => t.kind = .op ∨ opensPrimary t) (Unary E) :=
  begins_postfixed.prefixed.mono fun _ ht => ht.imp_left fun ⟨_, h, _⟩ => h

theorem begins_comparison :
    Begins (fun t => t.kind = .op ∨ opensPrimary t) (Comparison E) :=
  begins_unary.chain.chain.chain

theorem begins_disjunction : Begins opensExpr (Disjunction E) := by
  refine begins_comparison.prefixed.chain.chain.mono ?_
  rintro t (⟨op, ht, -⟩ | ht)
  · exact .inl ht
  · exact .inr ht

/-- Every expression starts with a token that can start one. -/
theorem begins_expr : Begins opensExpr Expr := by
  rintro ts a ⟨hts | ⟨hts, -, -, -, -⟩⟩
  · exact begins_disjunction _ _ hts
  · obtain ⟨t, us, rfl, ht⟩ := begins_disjunction _ _ hts
    exact ⟨t, _, rfl, ht⟩

theorem begins_argument : Begins opensExpr (Argument Expr) := by
  rintro ts a (hts | ⟨hn, -, -⟩)
  · exact begins_expr _ _ hts
  · exact ⟨_, _, rfl, .inr (.inr (by simp [opensPrimary, hn]))⟩

theorem begins_entry :
    Begins (fun t => t.kind ∈ [.string, .longString, .name]) (DictEntry E) := by
  rintro _ _ ⟨hk, -, -⟩
  refine ⟨_, _, rfl, ?_⟩
  rcases hk with ⟨hk | hk, -⟩ | hk <;> simp [hk]

theorem expr_name {t : Token} (h : t.kind = .name) : Expr [t] (.name t.text) :=
  .intro (.plain (.one (.one (.one (.one (.one (.one (.one (.one (.name h))))))))))

end Begins

/-! ### Parts of expressions -/

section Parts

variable {N : Nat} {E : Phrase Node} {F : Token → Prop} {expr : Parse Node}

theorem run_argument_named {t e : Token} (ht : t.kind = .name) (he : e.kind = .equal)
    (ts : List Token) : (argument false expr).run (t :: e :: ts) =
      (Node.keyword t.text <$> expr).run ts := by
  have hname : (eatText false .name).run (t :: e :: ts) = .ok (t.text, e :: ts) :=
    run_eatText_eq_ok.2 ⟨t, ht, rfl, rfl⟩
  have hequal : (eat false .equal).run (e :: ts) = .ok (some e, ts) :=
    run_eat_eq_ok.2 ⟨e, he, rfl, rfl⟩
  change (if t.kind = .name ∧ e.kind = .equal then _ else expr : Parse Node).run _ = _
  rw [if_pos ⟨ht, he⟩, run_bind_of_ok hname, run_bind_of_ok hequal, map_eq_pure_bind]

theorem run_argument_positional {ts : List Token}
    (h : ∀ t e us, ts = t :: e :: us → ¬ (t.kind = .name ∧ e.kind = .equal)) :
    (argument false expr).run ts = expr.run ts := by
  rcases ts with _ | ⟨t, _ | ⟨e, ts⟩⟩
  · rfl
  · rfl
  · change (if t.kind = .name ∧ e.kind = .equal then _ else expr : Parse Node).run _ = _
    rw [if_neg (h t e ts rfl)]

theorem Sound.argument (h : Sound E F expr) : Sound (Argument E) F (argument false expr) := by
  intro ts a rest hrun
  by_cases hnamed : ∃ t e us, ts = t :: e :: us ∧ t.kind = .name ∧ e.kind = .equal
  · obtain ⟨t, e, us, rfl, ht, he⟩ := hnamed
    rw [run_argument_named ht he, map_eq_pure_bind] at hrun
    obtain ⟨b, vs, hb, hpure⟩ := run_bind_eq_ok.1 hrun
    cases hpure
    obtain ⟨used, rfl, hused, hrest⟩ := h hb
    exact ⟨t :: e :: used, rfl, .named ht he hused, hrest⟩
  · rw [run_argument_positional fun t e us hts hte => hnamed ⟨t, e, us, hts, hte⟩] at hrun
    obtain ⟨used, hts, hused, hrest⟩ := h hrun
    exact ⟨used, hts, .positional hused, hrest⟩

/-- A name before an equals sign is not read as an expression of its own. -/
theorem Complete.argument (h : Complete N E F expr)
    (hname : ∀ t : Token, t.kind = .name → E [t] (.name t.text))
    (hequal : ∀ t : Token, t.kind = .equal → ¬ F t) :
    Complete N (Argument E) (fun t => t.kind = .equal ∨ F t) (argument false expr) := by
  intro ts a rest hlen hts hrest
  cases hts with
  | named ht he hts =>
    rw [List.cons_append, List.cons_append, run_argument_named ht he, run_map, h _ hts]
    · exact hrest.mono fun _ => .inr
    · simp at hlen ⊢
      omega
  | positional hts =>
    have hrun := h hlen hts (hrest.mono fun _ => .inr)
    rw [run_argument_positional, hrun]
    rintro t e us heq ⟨ht, he⟩
    -- the name alone can be read as well, so the equals sign would be what is left over
    rw [heq] at hlen hrun
    cases hrun.symm.trans (h hlen (hname t ht) (stops_cons (hequal e he) us))
    exact hrest e rfl (.inl he)

theorem Reports.argument (h : Reports N expr) : Reports N (argument false expr) := by
  intro ts e hlen hdecodes hrun
  by_cases hnamed : ∃ t e us, ts = t :: e :: us ∧ t.kind = .name ∧ e.kind = .equal
  · obtain ⟨t, e, us, rfl, ht, he⟩ := hnamed
    rw [run_argument_named ht he, map_eq_pure_bind] at hrun
    rcases run_bind_eq_error.1 hrun with hrun | ⟨_, _, -, hpure⟩
    · refine h ?_ (fun u hu => hdecodes u (by simp [hu])) hrun
      simp at hlen
      omega
    · cases hpure
  · rw [run_argument_positional fun t e us hts hte => hnamed ⟨t, e, us, hts, hte⟩] at hrun
    exact h hlen hdecodes hrun

/-! ### Dictionary entries -/

theorem run_decode (body : String) (ts : List Token) : (decode body).run ts =
    match Text.unescapeText body with
    | .ok s => .ok (s, ts)
    | .error e => .error (.failed (.badEscape e)) := by
  unfold decode
  cases Text.unescapeText body <;> rfl

theorem run_dictKey_text (previous : Option String) {t : Token}
    (h : t.kind = .string ∨ t.kind = .longString) (ts : List Token) :
    (dictKey false previous).run (t :: ts) = (some <$> decode (keyBody t.text)).run ts := by
  unfold dictKey
  rw [run_bind_of_ok (run_current _)]
  rcases h with h | h <;> simp only [List.head?_cons, h] <;>
    exact run_bind_of_ok (run_advance (t :: ts)) _

theorem run_dictKey_name (previous : Option String) {t : Token} (h : t.kind = .name)
    (ts : List Token) : (dictKey false previous).run (t :: ts) = .ok (some t.text, ts) := by
  unfold dictKey
  rw [run_bind_of_ok (run_current _)]
  simp only [List.head?_cons, h]
  rfl

/-- A token that is neither a text nor a name is reported as no key. -/
theorem run_dictKey_other (previous : Option String) {t : Token}
    (ht : ¬ (t.kind = .string ∨ t.kind = .longString)) (hn : t.kind ≠ .name) (ts : List Token) :
    (dictKey false previous).run (t :: ts) =
      .error (.reported (.badDictKey t.describe)) := by
  unfold dictKey
  rw [run_bind_of_ok (run_current _)]
  simp only [List.head?_cons]
  split
  · next h => exact absurd (.inl h) ht
  · next h => exact absurd (.inr h) ht
  · next h => exact absurd h hn
  · rfl

/-- A key is read whatever the key before it was. -/
theorem run_dictKey_eq_ok {previous k : Option String} {ts rest : List Token} :
    (dictKey false previous).run ts = .ok (k, rest) ↔
      ∃ t key, ts = t :: rest ∧ Key t key ∧ k = some key := by
  constructor
  · intro h
    rcases ts with _ | ⟨t, ts⟩
    · cases h
    by_cases ht : t.kind = .string ∨ t.kind = .longString
    · rw [run_dictKey_text previous ht, run_map, run_decode] at h
      cases hs : Text.unescapeText (keyBody t.text) <;> rw [hs] at h <;> cases h
      exact ⟨t, _, rfl, .text ht hs, rfl⟩
    by_cases hn : t.kind = .name
    · rw [run_dictKey_name previous hn] at h
      cases h
      exact ⟨t, t.text, rfl, .name hn, rfl⟩
    · rw [run_dictKey_other previous ht hn] at h
      cases h
  · rintro ⟨t, key, rfl, hkey, rfl⟩
    cases hkey with
    | text ht hs => rw [run_dictKey_text previous ht, run_map, run_decode, hs]
    | name hn => rw [run_dictKey_name previous hn]

/-- Unless notices are silenced, the key before has no part in a key. -/
theorem run_dictKey_previous (previous previous' : Option String) (ts : List Token) :
    (dictKey false previous).run ts = (dictKey false previous').run ts := by
  rcases ts with _ | ⟨t, ts⟩
  · rfl
  by_cases ht : t.kind = .string ∨ t.kind = .longString
  · rw [run_dictKey_text _ ht, run_dictKey_text _ ht]
  by_cases hn : t.kind = .name
  · rw [run_dictKey_name _ hn, run_dictKey_name _ hn]
  · rw [run_dictKey_other _ ht hn, run_dictKey_other _ ht hn]

theorem reports_dictKey (N : Nat) (previous : Option String) :
    Reports N (dictKey false previous) := by
  intro ts e _ hdecodes hrun
  rcases ts with _ | ⟨t, ts⟩
  · cases hrun
    exact ⟨_, rfl⟩
  by_cases ht : t.kind = .string ∨ t.kind = .longString
  · obtain ⟨s, hs⟩ := ((hdecodes t List.mem_cons_self).2 ht).2
    rw [run_dictKey_text previous ht, run_map, run_decode, hs] at hrun
    cases hrun
  by_cases hn : t.kind = .name
  · rw [run_dictKey_name previous hn] at hrun
    cases hrun
  · rw [run_dictKey_other previous ht hn] at hrun
    cases hrun
    exact ⟨_, rfl⟩

def entry (expr : Parse Node) : Parse (String × Node) := do
  let key ← dictKey false none
  let _ ← eat false .colon
  let value ← expr
  pure (key.getD "", value)

/-- The entries of a dictionary are read one by one. -/
theorem run_dictEntries (n : Nat) (previous : Option String) (ts : List Token) :
    (dictEntries false expr n previous).run ts = (commaSeparated (entry expr) n).run ts := by
  induction n generalizing previous ts with
  | zero => rfl
  | succ n ih =>
    unfold dictEntries commaSeparated
    rw [entry, bind_assoc, run_bind, run_bind, run_dictKey_previous previous none]
    rcases hkey : (dictKey false none).run ts with _ | ⟨k, us⟩
    · rfl
    · obtain ⟨t, key, -, -, rfl⟩ := run_dictKey_eq_ok.1 hkey
      simp only [bind_assoc, pure_bind, Option.getD_some]
      refine run_bind_congr (fun _ us => run_bind_congr (fun value us => ?_) us) us
      refine run_bind_congr (fun comma us => ?_) us
      cases comma
      · rfl
      · refine run_bind_congr (fun _ us => ?_) us
        rw [run_bind, ih, run_bind]
        rfl

theorem sound_entry (h : Sound E F expr) : Sound (DictEntry E) F (entry expr) := by
  intro ts b rest hrun
  obtain ⟨k, us, hdict, hcolon⟩ := run_bind_eq_ok.1 hrun
  obtain ⟨t, key, rfl, hkey, rfl⟩ := run_dictKey_eq_ok.1 hdict
  obtain ⟨_, vs, heat, hexpr⟩ := run_bind_eq_ok.1 hcolon
  obtain ⟨c, hc, rfl, -⟩ := run_eat_eq_ok.1 heat
  obtain ⟨a, ws, ha, hpure⟩ := run_bind_eq_ok.1 hexpr
  cases hpure
  obtain ⟨used, rfl, hused, hrest⟩ := h ha
  exact ⟨t :: c :: used, rfl, .intro hkey hc hused, hrest⟩

theorem complete_entry (h : Complete N E F expr) : Complete N (DictEntry E) F (entry expr) := by
  rintro _ _ rest hlen ⟨hkey, hc, hts⟩ hrest
  rename_i k c key ts a
  rw [entry, List.cons_append, List.cons_append,
    run_bind_of_ok (run_dictKey_eq_ok.2 ⟨k, key, rfl, hkey, rfl⟩),
    run_bind_of_ok (run_eat_eq_ok.2 ⟨c, hc, rfl, rfl⟩), run_bind_of_ok (h _ hts hrest)]
  · rfl
  · simp at hlen ⊢
    omega

theorem reports_entry (h : Reports N expr) (htakes : Takes 1 expr) : Reports N (entry expr) := by
  have hkey : Takes 0 (dictKey false none) := by
    intro ts k rest hrun
    obtain ⟨t, key, rfl, -⟩ := run_dictKey_eq_ok.1 hrun
    exact ⟨[t], rfl, Nat.zero_le _⟩
  have hvalue (key : Option String) :
      Reports (N - 0 - 1) (expr >>= fun value => pure (key.getD "", value) : Parse _) :=
    (h.mono (by omega)).bind htakes fun _ => reports_pure _ _
  exact (reports_dictKey N none).bind hkey fun key =>
    (reports_eat _ _).bind (takes_eat _) fun _ => hvalue key

end Parts

/-! ### Primary expressions -/

/-- Tokens that end an expression or divide it from the next one. -/
theorem not_extending {t : Token} (h : t.kind ∈ [.comma, .colon, .equal, .rparen, .rbrace,
    .rbracket, .lbrace, .semi]) : ¬ extending t := by
  unfold extending comparisonKinds
  simp only [List.mem_cons, List.not_mem_nil, or_false] at h
  rcases h with h | h | h | h | h | h | h | h <;> simp [h]

section Primary

variable {n : Nat} {expr : Parse Node}

/-- A dictionary is read as a list of entries between braces. -/
theorem run_dictLiteral (ts : List Token) : (dictLiteral false n expr).run ts = (do
    let _ ← eat false .lbrace
    let pairs ← itemsUntil n .rbrace (entry expr)
    let _ ← eat false .rbrace
    pure (Node.dict pairs) : Parse Node).run ts := by
  unfold dictLiteral itemsUntil
  simp only [bind_assoc]
  refine run_bind_congr (fun _ us => run_bind_congr (fun t us => ?_) us) ts
  rcases t with _ | t
  · rfl
  · by_cases ht : t.kind = .rbrace
    · simp only [ht, if_pos]
    · simp only [ht, if_false]
      rw [run_bind, run_dictEntries, run_bind]

theorem sound_text {E : Phrase Node} {t : Token} {ts rest : List Token} {a : Node}
    (ht : t.kind = .string ∨ t.kind = .longString)
    (hrun : (advance >>= fun _ => Node.text <$> decode (stringBody t.text) : Parse Node).run
      (t :: ts) = .ok (a, rest)) : ∃ used, t :: ts = used ++ rest ∧ Primary E used a := by
  rw [run_bind_of_ok (run_advance _), run_map, run_decode] at hrun
  cases hs : Text.unescapeText (stringBody t.text) <;> rw [hs] at hrun <;> cases hrun
  exact ⟨[t], rfl, .text ht hs⟩

/-- What is read as a primary expression is spelled by the tokens that were taken. -/
theorem sound_primary (h : Sound Expr extending expr) :
    Sound (Primary Expr) (fun _ => False) (primary false n expr) := by
  intro ts a rest hrun
  suffices ∃ used, ts = used ++ rest ∧ Primary Expr used a by
    obtain ⟨used, hts, hused⟩ := this
    exact ⟨used, hts, hused, fun _ _ => id⟩
  rcases ts with _ | ⟨t, ts⟩
  · cases hrun
  rw [primary, run_bind_of_ok (run_current _)] at hrun
  simp only [List.head?_cons] at hrun
  split at hrun
  · next ht =>
    rw [run_bind_of_ok (run_advance _)] at hrun
    split at hrun
    · next v hv =>
      cases hrun
      exact ⟨[t], rfl, .number ht hv⟩
    · cases hrun
  · next ht => exact sound_text (.inl ht) hrun
  · next ht => exact sound_text (.inr ht) hrun
  · next ht =>
    rw [listLiteral, run_bind_of_ok (run_eat_eq_ok.2 ⟨t, ht, rfl, rfl⟩)] at hrun
    obtain ⟨used, items, c, us, rfl, hused, hc, hpure⟩ :=
      (h.itemsUntil n .rbracket).run_closed hrun
    cases hpure
    exact ⟨t :: used ++ [c], by simp, .list (.intro ht hused hc)⟩
  · next ht =>
    rw [run_dictLiteral, run_bind_of_ok (run_eat_eq_ok.2 ⟨t, ht, rfl, rfl⟩)] at hrun
    obtain ⟨used, pairs, c, us, rfl, hused, hc, hpure⟩ :=
      ((sound_entry h).itemsUntil n .rbrace).run_closed hrun
    cases hpure
    exact ⟨t :: used ++ [c], by simp, .dict (.intro ht hused hc)⟩
  · next ht =>
    rw [run_bind_of_ok (run_advance _)] at hrun
    cases hrun
    exact ⟨[t], rfl, .name ht⟩
  · next ht =>
    rw [run_bind_of_ok (run_advance _)] at hrun
    obtain ⟨used, b, c, us, rfl, hused, hc, hpure⟩ := h.run_closed hrun
    cases hpure
    exact ⟨t :: used ++ [c], by simp, .group (.intro ht hused hc)⟩
  · cases hrun

theorem Complete.before {k : Nat} {closing : TokenKind} (h : Complete k Expr extending expr)
    (hclosing : closing ∈ [.comma, .colon, .equal, .rparen, .rbrace, .rbracket, .lbrace, .semi]) :
    Complete k Expr (fun t => t.kind ≠ closing) expr :=
  h.mono (Nat.le_refl k) fun _ ht hk => not_extending (hk ▸ hclosing) ht

theorem complete_items (h : Complete n Expr extending expr) :
    Complete n (Listed Expr) (fun t => t.kind ≠ .rbracket) (itemsUntil n .rbracket expr) := by
  refine h.itemsUntil (fun t ht => not_extending (by simp [ht])) (Nat.le_refl n) ?_ ?_
  · exact fun t ht => ⟨not_extending (by simp [ht]), by simp [ht]⟩
  · refine begins_expr.mono fun t ht hk => ?_
    simp [opensExpr, opensPrimary, hk] at ht

theorem complete_entries (h : Complete n Expr extending expr) :
    Complete n (Listed (DictEntry Expr)) (fun t => t.kind ≠ .rbrace)
      (itemsUntil n .rbrace (entry expr)) := by
  refine (complete_entry h).itemsUntil (fun t ht => not_extending (by simp [ht]))
    (Nat.le_refl n) ?_ ?_
  · exact fun t ht => ⟨not_extending (by simp [ht]), by simp [ht]⟩
  · refine begins_entry.mono fun t ht hk => ?_
    simp [hk] at ht

/-- Every primary expression is read, whatever comes after it. -/
theorem complete_primary (h : Complete n Expr extending expr) :
    Complete (n + 1) (Primary Expr) (fun _ => False) (primary false n expr) := by
  intro ts a rest hlen hts _
  cases hts with
  | @number t v ht hv =>
    rw [List.singleton_append, primary, run_bind_of_ok (run_current _)]
    simp only [List.head?_cons, ht]
    rw [run_bind_of_ok (run_advance _)]
    simp only [hv]
    rfl
  | @text t v ht hs =>
    rw [List.singleton_append, primary, run_bind_of_ok (run_current _)]
    rcases ht with ht | ht <;> simp only [List.head?_cons, ht] <;>
      rw [run_bind_of_ok (run_advance _), run_map, run_decode, hs] <;> rfl
  | @name t ht =>
    rw [List.singleton_append, primary, run_bind_of_ok (run_current _)]
    simp only [List.head?_cons, ht]
    rfl
  | list hts =>
    obtain @⟨o, c, ts, items, ho, hts, hc⟩ := hts
    rw [List.append_assoc, List.cons_append, primary, run_bind_of_ok (run_current _)]
    simp only [List.head?_cons, ho]
    rw [listLiteral, run_bind_of_ok (run_eat_eq_ok.2 ⟨o, ho, rfl, rfl⟩)]
    refine (complete_items h).run_closed ?_ hts hc
    simp at hlen ⊢
    omega
  | dict hts =>
    obtain @⟨o, c, ts, items, ho, hts, hc⟩ := hts
    rw [List.append_assoc, List.cons_append, primary, run_bind_of_ok (run_current _)]
    simp only [List.head?_cons, ho]
    rw [run_dictLiteral, run_bind_of_ok (run_eat_eq_ok.2 ⟨o, ho, rfl, rfl⟩)]
    refine (complete_entries h).run_closed ?_ hts hc
    simp at hlen ⊢
    omega
  | group hts =>
    obtain @⟨o, c, ts, items, ho, hts, hc⟩ := hts
    rw [List.append_assoc, List.cons_append, primary, run_bind_of_ok (run_current _)]
    simp only [List.head?_cons, ho]
    rw [run_bind_of_ok (run_advance _)]
    refine (h.before (by simp)).run_closed ?_ hts hc
    simp at hlen ⊢
    omega

theorem reports_text {t : Token} {ts : List Token} {e : ParseStop}
    (ht : t.kind = .string ∨ t.kind = .longString) (hdecodes : Decodes t) :
    (advance >>= fun _ => Node.text <$> decode (stringBody t.text) : Parse Node).run (t :: ts) ≠
      .error e := by
  obtain ⟨s, hs⟩ := (hdecodes.2 ht).1
  rw [run_bind_of_ok (run_advance _), run_map, run_decode, hs]
  nofun

/-- A primary expression is read, or a notice says why not. -/
theorem reports_primary (hsound : Sound Expr extending expr) (h : Reports n expr) :
    Reports (n + 1) (primary false n expr) := by
  have htakes := hsound.takes begins_expr.ne_nil
  intro ts e hlen hdecodes hrun
  rcases ts with _ | ⟨t, ts⟩
  · cases hrun
    exact ⟨_, rfl⟩
  have hlen' : ts.length < n := Nat.lt_of_succ_lt_succ hlen
  have hdecodes' : ∀ u ∈ ts, Decodes u := fun u hu => hdecodes u (List.mem_cons_of_mem t hu)
  rw [primary, run_bind_of_ok (run_current _)] at hrun
  simp only [List.head?_cons] at hrun
  split at hrun
  · next ht =>
    obtain ⟨v, hv⟩ := (hdecodes t List.mem_cons_self).1 ht
    rw [run_bind_of_ok (run_advance _), hv] at hrun
    cases hrun
  · next ht => exact absurd hrun (reports_text (.inl ht) (hdecodes t List.mem_cons_self))
  · next ht => exact absurd hrun (reports_text (.inr ht) (hdecodes t List.mem_cons_self))
  · next ht =>
    rw [listLiteral, run_bind_of_ok (run_eat_eq_ok.2 ⟨t, ht, rfl, rfl⟩)] at hrun
    have hitems := h.itemsUntil htakes (Nat.le_refl n) .rbracket
    exact hitems.closed (hsound.itemsUntil n _) (fun _ => reports_pure _ _) hlen' hdecodes' hrun
  · next ht =>
    rw [run_dictLiteral, run_bind_of_ok (run_eat_eq_ok.2 ⟨t, ht, rfl, rfl⟩)] at hrun
    have hentry := (sound_entry hsound).takes begins_entry.ne_nil
    have hitems := (reports_entry h htakes).itemsUntil hentry (Nat.le_refl n) .rbrace
    exact hitems.closed ((sound_entry hsound).itemsUntil n _) (fun _ => reports_pure _ _) hlen'
      hdecodes' hrun
  · rw [run_bind_of_ok (run_advance _)] at hrun
    cases hrun
  · rw [run_bind_of_ok (run_advance _)] at hrun
    exact h.closed hsound (fun _ => reports_pure _ _) hlen' hdecodes' hrun
  · cases hrun
    exact ⟨_, rfl⟩

end Primary

/-! ### Attributes, calls and subscripts -/

section Postfixed

variable {n : Nat} {expr : Parse Node}

def opensPostfix (t : Token) : Prop := t.kind ∈ [.dot, .lparen, .lbracket]

/-- The expression that was read so far stands for the tokens so far, and grows by each attribute,
call and subscript. -/
theorem sound_postfixes (h : Sound Expr extending expr) (k : Nat) {a b : Node}
    {front ts rest : List Token} (ha : Postfixed Expr front a)
    (hrun : (postfixes false expr k a).run ts = .ok (b, rest)) :
    ∃ used, ts = used ++ rest ∧ Postfixed Expr (front ++ used) b ∧ Stops opensPostfix rest := by
  induction k generalizing a front ts with
  | zero => cases hrun
  | succ k ih =>
    rw [postfixes, run_bind_of_ok (run_current _)] at hrun
    rcases ts with _ | ⟨t, ts⟩
    · cases hrun
      exact ⟨[], rfl, by simpa using ha, by simp [Stops]⟩
    simp only [List.head?_cons, Option.map_some] at hrun
    split at hrun
    · next ht =>
      rw [run_bind_of_ok (run_advance _), List.tail_cons] at hrun
      obtain ⟨_, us, hname, hfrom⟩ := run_bind_eq_ok.1 hrun
      obtain ⟨m, hm, rfl, rfl⟩ := run_eatText_eq_ok.1 hname
      obtain ⟨used, rfl, hused, hrest⟩ := ih (ha.member (Option.some.inj ht) hm) hfrom
      exact ⟨t :: m :: used, rfl, by simpa using hused, hrest⟩
    · next ht =>
      rw [run_bind_of_ok (run_advance _), List.tail_cons] at hrun
      obtain ⟨args, _, c, us, rfl, hargs, hc, hfrom⟩ :=
        (h.argument.itemsUntil k .rparen).run_closed hrun
      obtain ⟨used, rfl, hused, hrest⟩ :=
        ih (ha.call (.intro (Option.some.inj ht) hargs hc)) hfrom
      exact ⟨t :: args ++ c :: used, by simp, by simpa using hused, hrest⟩
    · next ht =>
      rw [run_bind_of_ok (run_advance _), List.tail_cons] at hrun
      obtain ⟨index, _, c, us, rfl, hindex, hc, hfrom⟩ := h.run_closed hrun
      obtain ⟨used, rfl, hused, hrest⟩ :=
        ih (ha.index (.intro (Option.some.inj ht) hindex hc)) hfrom
      exact ⟨t :: index ++ c :: used, by simp, by simpa using hused, hrest⟩
    · next hdot hparen hbracket =>
      cases hrun
      refine ⟨[], rfl, by simpa using ha, stops_cons ?_ ts⟩
      simp only [Option.some.injEq] at hdot hparen hbracket
      simpa [opensPostfix] using ⟨hdot, hparen, hbracket⟩

theorem sound_atom (h : Sound Expr extending expr) :
    Sound (Postfixed Expr) opensPostfix (atom false n expr) := by
  intro ts a rest hrun
  obtain ⟨b, us, hprimary, hfrom⟩ := run_bind_eq_ok.1 hrun
  obtain ⟨front, rfl, hfront, -⟩ := sound_primary h hprimary
  obtain ⟨used, rfl, hused, hrest⟩ := sound_postfixes h n (.one hfront) hfrom
  exact ⟨front ++ used, by simp, hused, hrest⟩

theorem complete_arguments (h : Complete n Expr extending expr) :
    Complete n (Listed (Argument Expr)) (fun t => t.kind ≠ .rparen)
      (itemsUntil n .rparen (argument false expr)) := by
  have hargument := h.argument (fun _ => expr_name) fun t ht => not_extending (by simp [ht])
  refine hargument.itemsUntil ?_ (Nat.le_refl n) ?_ ?_
  · exact fun t ht => not_or.2 ⟨by simp [ht], not_extending (by simp [ht])⟩
  · exact fun t ht => ⟨not_or.2 ⟨by simp [ht], not_extending (by simp [ht])⟩, by simp [ht]⟩
  · refine begins_argument.mono fun t ht hk => ?_
    simp [opensExpr, opensPrimary, hk] at ht

/-- Where a phrase ends, its parser goes on with the tree of the phrase. -/
theorem run_atom (h : Complete n Expr extending expr) {ts rest : List Token} {a : Node}
    (hts : Postfixed Expr ts a) (hlen : (ts ++ rest).length < n + 1) :
    ∃ k, rest.length < k ∧ k ≤ n ∧
      (atom false n expr).run (ts ++ rest) = (postfixes false expr k a).run rest := by
  induction hts generalizing rest with
  | one hts =>
    refine ⟨n, ?_, Nat.le_refl n, run_bind_of_ok (complete_primary h hlen hts fun _ _ => id) _⟩
    have hpos := List.length_pos_iff.2 (begins_primary.ne_nil _ _ hts)
    rw [List.length_append] at hlen
    omega
  | @member ts a d m _ hd hm ih =>
    rw [List.append_assoc, List.cons_append, List.cons_append] at hlen ⊢
    obtain ⟨k, hk, hkn, hrun⟩ := ih hlen
    obtain ⟨k, rfl⟩ : ∃ k', k = k' + 1 := ⟨k - 1, by omega⟩
    refine ⟨k, by simp at hk; omega, by omega, ?_⟩
    rw [hrun, postfixes, run_bind_of_ok (run_current _)]
    simp only [List.head?_cons, Option.map_some, hd]
    rw [run_bind_of_ok (run_advance _)]
    exact run_bind_of_ok (run_eatText_eq_ok.2 ⟨m, hm, rfl, rfl⟩) _
  | @call ts us a args _ hargs ih =>
    obtain @⟨o, c, us, args, ho, hargs, hc⟩ := hargs
    rw [List.append_assoc, List.append_assoc, List.cons_append] at hlen ⊢
    obtain ⟨k, hk, hkn, hrun⟩ := ih hlen
    obtain ⟨k, rfl⟩ : ∃ k', k = k' + 1 := ⟨k - 1, by omega⟩
    refine ⟨k, by simp at hk; omega, by omega, ?_⟩
    rw [hrun, postfixes, run_bind_of_ok (run_current _)]
    simp only [List.head?_cons, Option.map_some, ho]
    rw [run_bind_of_ok (run_advance _)]
    have hexpr : Complete k Expr extending expr := h.mono (by omega) fun _ => id
    exact (complete_arguments hexpr).run_closed (by simp at hk ⊢; omega) hargs hc
  | @index ts us a i _ hindex ih =>
    obtain @⟨o, c, us, i, ho, hindex, hc⟩ := hindex
    rw [List.append_assoc, List.append_assoc, List.cons_append] at hlen ⊢
    obtain ⟨k, hk, hkn, hrun⟩ := ih hlen
    obtain ⟨k, rfl⟩ : ∃ k', k = k' + 1 := ⟨k - 1, by omega⟩
    refine ⟨k, by simp at hk; omega, by omega, ?_⟩
    rw [hrun, postfixes, run_bind_of_ok (run_current _)]
    simp only [List.head?_cons, Option.map_some, ho]
    rw [run_bind_of_ok (run_advance _)]
    exact (h.before (by simp)).run_closed (by simp at hk ⊢; omega) hindex hc

/-- Every primary expression with attributes, calls and subscripts is read to its end. -/
theorem complete_atom (h : Complete n Expr extending expr) :
    Complete (n + 1) (Postfixed Expr) opensPostfix (atom false n expr) := by
  intro ts a rest hlen hts hrest
  obtain ⟨k, hk, -, hrun⟩ := run_atom h hts hlen
  obtain ⟨k, rfl⟩ : ∃ k', k = k' + 1 := ⟨k - 1, by omega⟩
  rw [hrun, postfixes, run_bind_of_ok (run_current _)]
  rcases rest with _ | ⟨t, rest⟩
  · rfl
  · have ht := hrest t rfl
    simp only [opensPostfix, List.mem_cons, List.not_mem_nil, or_false, not_or] at ht
    simp only [List.head?_cons, Option.map_some]
    split
    · next h => exact absurd (Option.some.inj h) ht.1
    · next h => exact absurd (Option.some.inj h) ht.2.1
    · next h => exact absurd (Option.some.inj h) ht.2.2
    · rfl

theorem reports_postfixes (hsound : Sound Expr extending expr) (h : Reports n expr) {k : Nat}
    (hk : k ≤ n) (a : Node) : Reports k (postfixes false expr k a) := by
  have htakes := hsound.takes begins_expr.ne_nil
  induction k generalizing a with
  | zero => exact fun ts e hlen => by omega
  | succ k ih =>
    intro ts e hlen hdecodes hrun
    rw [postfixes, run_bind_of_ok (run_current _)] at hrun
    rcases ts with _ | ⟨t, ts⟩
    · cases hrun
    have hlen' : ts.length < k := Nat.lt_of_succ_lt_succ hlen
    have hdecodes' : ∀ u ∈ ts, Decodes u := fun u hu => hdecodes u (List.mem_cons_of_mem t hu)
    have hnext (b : Node) : Reports (k - 1) (postfixes false expr k b) :=
      (ih (by omega) b).mono (by omega)
    simp only [List.head?_cons, Option.map_some] at hrun
    split at hrun
    · rw [run_bind_of_ok (run_advance _)] at hrun
      exact (reports_eatText k _).bind (takes_eatText _) (fun _ => hnext _) hlen' hdecodes' hrun
    · rw [run_bind_of_ok (run_advance _)] at hrun
      have hargument : Reports k (argument false expr) := h.argument.mono (by omega)
      have hargs := hargument.itemsUntil (hsound.argument.takes begins_argument.ne_nil)
        (Nat.le_refl k) .rparen
      exact hargs.closed (hsound.argument.itemsUntil k _) (fun _ => hnext _) hlen' hdecodes' hrun
    · rw [run_bind_of_ok (run_advance _)] at hrun
      exact (h.mono (by omega)).closed hsound (fun _ => hnext _) hlen' hdecodes' hrun
    · cases hrun

theorem reports_atom (hsound : Sound Expr extending expr) (h : Reports n expr) :
    Reports (n + 1) (atom false n expr) :=
  (reports_primary hsound h).bind ((sound_primary hsound).takes begins_primary.ne_nil) fun a =>
    reports_postfixes hsound h (Nat.le_refl n) a

/-- Attributes, calls and subscripts are read exactly as the grammar has them. -/
theorem Reads.atom (h : Reads n Expr extending expr) :
    Reads (n + 1) (Postfixed Expr) opensPostfix (atom false n expr) :=
  ⟨sound_atom h.sound, complete_atom h.complete, reports_atom h.sound h.reports⟩

end Postfixed

/-! ### Levels of operators -/

section Levels

variable {n : Nat} {expr : Parse Node}

def extendsDisjunction (t : Token) : Prop :=
  (∃ op, orOp t op) ∨ (∃ op, andOp t op) ∨ (∃ op, comparisonOp t op) ∨ (∃ op, sumOp t op) ∨
    (∃ op, productOp t op) ∨ opensPostfix t

theorem extending_iff (t : Token) :
    extending t ↔ t.kind = .question ∨ extendsDisjunction t := by
  simp [extending, extendsDisjunction, orOp, andOp, comparisonOp, sumOp, productOp, opensPostfix]
  grind

theorem Reads.factor (h : Reads n Expr extending expr) :
    Reads (n + 1) (Factor Expr) (fun t => (∃ op, productOp t op) ∨ opensPostfix t)
      (factor false n expr) := by
  have hunary := h.atom.unaryLevel signOperator?_eq_some <| begins_postfixed.mono <| by
    rintro t ht op ⟨hop, -⟩
    simp [opensPrimary, hop] at ht
  refine hunary.chain productOperator?_eq_some ?_ begins_unary.ne_nil
  rintro t op ⟨hop, -⟩
  simp [opensPostfix, hop]

theorem Reads.term (h : Reads n Expr extending expr) :
    Reads (n + 1) (Term Expr)
      (fun t => (∃ op, sumOp t op) ∨ (∃ op, productOp t op) ∨ opensPostfix t)
      (term false n expr) := by
  refine h.factor.chain sumOperator?_eq_some ?_ begins_unary.chain.ne_nil
  rintro t op ⟨hop, htext⟩
  rcases htext with ⟨htext, -⟩ | ⟨htext, -⟩ <;> simp [productOp, opensPostfix, hop, htext]

theorem Reads.comparison (h : Reads n Expr extending expr) :
    Reads (n + 1) (Comparison Expr)
      (fun t => (∃ op, comparisonOp t op) ∨ (∃ op, sumOp t op) ∨ (∃ op, productOp t op) ∨
        opensPostfix t)
      (comparison false n expr) := by
  refine h.term.chain comparison?_eq_some ?_ begins_unary.chain.chain.ne_nil
  rintro t op ⟨hop, -⟩
  simp only [comparisonKinds, List.mem_cons, List.not_mem_nil, or_false] at hop
  rcases hop with hop | hop | hop | hop | hop | hop <;> simp [sumOp, productOp, opensPostfix, hop]

theorem Reads.conjunction (h : Reads n Expr extending expr) :
    Reads (n + 1) (Conjunction Expr)
      (fun t => (∃ op, andOp t op) ∨ (∃ op, comparisonOp t op) ∨ (∃ op, sumOp t op) ∨
        (∃ op, productOp t op) ∨ opensPostfix t)
      (conjunction false n expr) := by
  have hnot := h.comparison.unaryLevel notOperator?_eq_some <| begins_comparison.mono <| by
    rintro t ht op ⟨hop, -⟩
    simp [opensPrimary, hop] at ht
  refine hnot.chain andOperator?_eq_some ?_ begins_comparison.prefixed.ne_nil
  rintro t op ⟨hop, -⟩
  simp [comparisonOp, comparisonKinds, sumOp, productOp, opensPostfix, hop]

theorem Reads.disjunction (h : Reads n Expr extending expr) :
    Reads (n + 1) (Disjunction Expr) extendsDisjunction (disjunction false n expr) := by
  refine h.conjunction.chain orOperator?_eq_some ?_ begins_comparison.prefixed.chain.ne_nil
  rintro t op ⟨hop, -⟩
  simp [andOp, comparisonOp, comparisonKinds, sumOp, productOp, opensPostfix, hop]

/-! ### Choices and whole expressions -/

theorem run_exprWith_of_ok {ts us : List Token} {a : Node}
    (h : (disjunction false n expr).run ts = .ok (a, us)) :
    (exprWith false n expr).run ts =
      if us.head?.any fun t => t.kind == .question then (do
        let ifTrue ← expr
        let _ ← eat false .colon
        Node.ternary a ifTrue <$> expr : Parse Node).run us.tail
      else .ok (a, us) := by
  rw [exprWith, run_bind_of_ok h, run_bind_of_ok (run_atKind .question us)]
  split
  · simp only [map_eq_pure_bind]
    rw [run_bind_of_ok (run_advance us)]
  · rfl

/-- What is read as an expression is one, and the next token does not go on with it. -/
theorem sound_exprWith (h : Reads n Expr extending expr) :
    Sound Expr extending (exprWith false n expr) := by
  intro ts b rest hrun
  obtain ⟨a, us, ha, -⟩ := run_bind_eq_ok.1 hrun
  rw [run_exprWith_of_ok ha] at hrun
  obtain ⟨used, rfl, hused, hus⟩ := h.disjunction.sound ha
  split at hrun
  · next hq =>
    obtain ⟨q, us, rfl⟩ : ∃ q vs, us = q :: vs := by
      rcases us with _ | ⟨q, vs⟩
      · cases hq
      · exact ⟨q, vs, rfl⟩
    obtain ⟨vs, b, s, ws, hvs, hb, hs, hmap⟩ := h.sound.run_closed hrun
    rw [List.tail_cons] at hvs
    rw [map_eq_pure_bind] at hmap
    obtain ⟨c, _, hc, hpure⟩ := run_bind_eq_ok.1 hmap
    cases hpure
    obtain ⟨xs, rfl, hxs, hrest⟩ := h.sound hc
    subst hvs
    refine ⟨used ++ q :: vs ++ s :: xs, by simp, ?_, hrest⟩
    exact .intro (.choice hused (by simpa using hq) hb hs hxs)
  · next hq =>
    cases hrun
    refine ⟨used, rfl, .intro (.plain hused), fun t ht => ?_⟩
    rw [extending_iff, not_or]
    refine ⟨fun hk => hq ?_, hus t ht⟩
    rw [Option.mem_def.1 ht]
    simpa using hk

/-- Every expression is read, if the next token does not go on with it. -/
theorem complete_exprWith (h : Reads n Expr extending expr) :
    Complete (n + 1) Expr extending (exprWith false n expr) := by
  rintro ts a rest hlen ⟨hts⟩ hrest
  have hstop : Stops (fun t => t.kind = .question ∨ extendsDisjunction t) rest :=
    hrest.mono fun t => (extending_iff t).2
  cases hts with
  | plain hts =>
    have hquestion : Stops (fun t => t.kind = .question) rest := hstop.mono fun _ => .inl
    rw [run_exprWith_of_ok (h.disjunction.complete hlen hts (hstop.mono fun _ => .inr)),
      hquestion.any_kind]
    rfl
  | @choice ts us vs a b c q s hts hq hus hs hvs =>
    rw [List.append_assoc, List.append_assoc, List.cons_append, List.cons_append] at hlen ⊢
    have hdisjunction : (disjunction false n expr).run (ts ++ q :: (us ++ s :: (vs ++ rest))) =
        .ok (a, q :: (us ++ s :: (vs ++ rest))) := by
      refine h.disjunction.complete hlen hts (stops_cons ?_ _)
      simp [extendsDisjunction, orOp, andOp, comparisonOp, comparisonKinds, sumOp, productOp,
        opensPostfix, hq]
    have hbranch : (us ++ s :: (vs ++ rest)).length < n := by
      have hpos := List.length_pos_iff.2 (begins_disjunction.ne_nil _ _ hts)
      simp at hlen ⊢
      omega
    rw [run_exprWith_of_ok hdisjunction, if_pos (by simp [hq]), List.tail_cons,
      (h.complete.before (by simp)).run_closed hbranch hus hs, run_map, h.complete ?_ hvs hrest]
    simp at hbranch ⊢
    omega

theorem reports_exprWith (h : Reads n Expr extending expr) :
    Reports (n + 1) (exprWith false n expr) := by
  have htakes := h.disjunction.sound.takes begins_disjunction.ne_nil
  refine h.disjunction.reports.bind htakes fun a ts e hlen hdecodes hrun => ?_
  rw [run_bind_of_ok (run_atKind .question ts)] at hrun
  split at hrun
  · rw [run_bind_of_ok (run_advance ts)] at hrun
    have hlast (b : Node) : Reports (n - 1) (expr >>= fun c => pure (Node.ternary a b c)) :=
      (h.reports.mono (Nat.sub_le n 1)).bind (h.sound.takes begins_expr.ne_nil) fun _ =>
        reports_pure _ _
    refine h.reports.closed h.sound hlast ?_ (fun t ht => hdecodes t (List.mem_of_mem_tail ht)) hrun
    rw [List.length_tail]
    omega
  · cases hrun

/-- By induction on the bound: the parser reads exactly the expressions. -/
theorem reads_expr (n : Nat) : Reads n Expr extending (Parse.expr false n) := by
  induction n with
  | zero =>
    refine ⟨fun ts a rest hrun => ?_, fun ts a rest hlen => ?_, fun ts e hlen => ?_⟩
    · cases hrun
    · omega
    · omega
  | succ n ih => exact ⟨sound_exprWith ih, complete_exprWith ih, reports_exprWith ih⟩

end Levels

/-- The parser of expressions takes exactly a phrase of the grammar that no further token goes on
with. Where there is none it ends with a notice. -/
theorem expr_accepts_iff {ts : List Token} (hdecodes : ∀ t ∈ ts, Decodes t) {n : Nat}
    (hn : ts.length < n) :
    (∀ a rest, (Parse.expr false n).run ts = .ok (a, rest) ↔
      ∃ used, ts = used ++ rest ∧ Expr used a ∧ Stops extending rest) ∧
    ((¬ ∃ used rest a, ts = used ++ rest ∧ Expr used a ∧ Stops extending rest) →
      ∃ notice, (Parse.expr false n).run ts = .error (.reported notice)) := by
  have hreads := reads_expr n
  have haccepts (a : Node) (rest : List Token) : (Parse.expr false n).run ts = .ok (a, rest) ↔
      ∃ used, ts = used ++ rest ∧ Expr used a ∧ Stops extending rest := by
    refine ⟨fun hrun => hreads.sound hrun, ?_⟩
    rintro ⟨used, rfl, hused, hrest⟩
    exact hreads.complete hn hused hrest
  refine ⟨haccepts, fun hnone => ?_⟩
  rcases hrun : (Parse.expr false n).run ts with e | ⟨a, rest⟩
  · obtain ⟨notice, rfl⟩ := hreads.reports hn hdecodes hrun
    exact ⟨notice, rfl⟩
  · obtain ⟨used, h⟩ := (haccepts a rest).1 hrun
    exact absurd ⟨used, rest, a, h⟩ hnone

/-- The expression of `-f(k = 2)[i] ? {"s": x.y} : z;` ends before the semicolon. -/
theorem expr_accepts_choice :
    let used : List Token := [⟨.op, "-", 1⟩, ⟨.name, "f", 1⟩, ⟨.lparen, "(", 1⟩, ⟨.name, "k", 1⟩,
      ⟨.equal, "=", 1⟩, ⟨.number, "2", 1⟩, ⟨.rparen, ")", 1⟩, ⟨.lbracket, "[", 1⟩, ⟨.name, "i", 1⟩,
      ⟨.rbracket, "]", 1⟩, ⟨.question, "?", 1⟩, ⟨.lbrace, "\x7b", 1⟩, ⟨.string, "\"s\"", 1⟩,
      ⟨.colon, ":", 1⟩, ⟨.name, "x", 1⟩, ⟨.dot, ".", 1⟩, ⟨.name, "y", 1⟩, ⟨.rbrace, "\x7d", 1⟩,
      ⟨.colon, ":", 1⟩, ⟨.name, "z", 1⟩]
    let rest : List Token := [⟨.semi, ";", 1⟩]
    let call := Node.call (.name "f") [.keyword "k" (.number (.int 2))]
    (∀ t ∈ used ++ rest, Decodes t) ∧ (used ++ rest).length < 24 ∧
      ∃ us, used ++ rest = us ++ rest ∧
        Expr us (.ternary (.unary .neg (.binary call .index (.name "i")))
          (.dict [("s", .member (.name "x") "y")]) (.name "z")) ∧ Stops extending rest := by
  intro used rest call
  have hdecodes : ∀ t ∈ used ++ rest, Decodes t := by
    have htext : Text.unescapeText (stringBody "\"s\"") = .ok "s" := rfl
    have hkey : Text.unescapeText (keyBody "\"s\"") = .ok "s" := rfl
    have hnumber : numberLiteral "2" = .ok (.int 2) := rfl
    simp [used, rest, Decodes, htext, hkey, hnumber]
  have hlen : (used ++ rest).length < 24 := by decide
  exact ⟨hdecodes, hlen, ((expr_accepts_iff hdecodes hlen).1 _ _).1 rfl⟩

end Parse

end ScriptLang
