import ScriptLang.Proofs.Parse.Printed

/-!
# Brackets of programs

Tokens are well nested if every bracket is closed by one of its own kind, the last one opened first.
The grammar of expressions gives only such tokens, and every parser of a statement takes only such
tokens, although it may look further and go back. So a program that can be parsed is complete: the
prompt, which counts brackets, does not wait for more of it.
-/

namespace ScriptLang

open Grammar

variable {α β : Type}

namespace TokenKind

def brackets : List (TokenKind × TokenKind) :=
  [(.lbrace, .rbrace), (.lparen, .rparen), (.lbracket, .rbracket)]

def isBracket (kind : TokenKind) : Bool := brackets.any fun b => kind == b.1 || kind == b.2

end TokenKind

open TokenKind (brackets)

namespace Token

def isBracket (t : Token) : Bool := t.kind.isBracket

theorem not_isBracket_of_kind {t : Token} {kind : TokenKind} (h : t.kind = kind)
    (hkind : kind.isBracket = false) : ¬ t.isBracket := by
  simp [isBracket, h, hkind]

/-- Every bracket is closed by one of its own kind, the last one opened first. -/
inductive Nested : List Token → Prop where
  | nil : Nested []
  | plain {t : Token} {ts : List Token} : ¬ t.isBracket → Nested ts → Nested (t :: ts)
  | pair {o c : Token} {ts us : List Token} : (o.kind, c.kind) ∈ brackets → Nested ts →
      Nested us → Nested (o :: ts ++ c :: us)

namespace Nested

theorem append {ts us : List Token} (hts : Nested ts) (hus : Nested us) : Nested (ts ++ us) := by
  induction hts with
  | nil => exact hus
  | plain ht _ ih => exact .plain ht ih
  | pair hb hts _ _ ih =>
    rw [List.append_assoc, List.cons_append]
    exact .pair hb hts ih

theorem of_forall {ts : List Token} (h : ∀ t ∈ ts, ¬ t.isBracket) : Nested ts := by
  induction ts with
  | nil => exact .nil
  | cons t ts ih =>
    exact .plain (h t List.mem_cons_self) (ih fun u hu => h u (List.mem_cons_of_mem _ hu))

theorem enclosed {o c : Token} {ts : List Token} (hb : (o.kind, c.kind) ∈ brackets)
    (hts : Nested ts) : Nested (o :: ts ++ [c]) := .pair hb hts .nil

end Nested

theorem depth_cons (opening closing : TokenKind) (t : Token) (ts : List Token) :
    depth opening closing (t :: ts) =
      depthChange opening closing t + depth opening closing ts := rfl

theorem depth_append (opening closing : TokenKind) (ts us : List Token) :
    depth opening closing (ts ++ us) = depth opening closing ts + depth opening closing us := by
  induction ts with
  | nil => simp [depth]
  | cons t ts ih => rw [List.cons_append, depth_cons, depth_cons, ih, Int.add_assoc]

/-- A pair of brackets does not change the depth of any kind. -/
theorem depthChange_pair {opening closing : TokenKind} (h : (opening, closing) ∈ brackets)
    {o c : Token} (hb : (o.kind, c.kind) ∈ brackets) :
    depthChange opening closing o + depthChange opening closing c = 0 := by
  simp only [brackets, List.mem_cons, Prod.mk.injEq, List.not_mem_nil, or_false] at h hb
  rcases h with ⟨rfl, rfl⟩ | ⟨rfl, rfl⟩ | ⟨rfl, rfl⟩ <;>
    rcases hb with ⟨ho, hc⟩ | ⟨ho, hc⟩ | ⟨ho, hc⟩ <;> simp [depthChange, ho, hc]

/-- In well nested tokens there are as many opening brackets as closing ones of each kind. -/
theorem Nested.depth_eq_zero {opening closing : TokenKind} (h : (opening, closing) ∈ brackets)
    {ts : List Token} (hts : Nested ts) : depth opening closing ts = 0 := by
  induction hts with
  | nil => rfl
  | plain ht _ ih =>
    simp only [isBracket, TokenKind.isBracket, Bool.not_eq_true, List.any_eq_false, Bool.or_eq_true,
      beq_iff_eq, not_or] at ht
    obtain ⟨ho, hc⟩ := ht _ h
    simp [depth_cons, depthChange, ho, hc, ih]
  | @pair o c ts us hb _ _ ihts ihus =>
    have hpair := depthChange_pair h hb
    rw [depth_append, depth_cons, depth_cons, ihts, ihus]
    omega

end Token

open Token (Nested not_isBracket_of_kind)

namespace Grammar

/-! ### Expressions -/

def NestsBelow (n : Nat) (D : Phrase α) : Prop :=
  ∀ ⦃ts : List Token⦄ ⦃a : α⦄, ts.length < n → D ts a → Nested ts

theorem NestsBelow.chain {n : Nat} {B : Token → BinaryOp → Prop} {D : Phrase Node}
    (h : NestsBelow n D) (hB : ∀ t op, B t op → ¬ t.isBracket) : NestsBelow n (Chain B D) := by
  intro ts a hlen hts
  induction hts with
  | one hts => exact h hlen hts
  | more _ hop hus ih =>
    simp only [List.length_append, List.length_cons] at hlen
    exact (ih (by omega)).append (.plain (hB _ _ hop) (h (by omega) hus))

theorem NestsBelow.prefixed {n : Nat} {U : Token → UnaryOp → Prop} {D : Phrase Node}
    (h : NestsBelow n D) (hU : ∀ t op, U t op → ¬ t.isBracket) : NestsBelow n (Prefixed U D) := by
  intro ts a hlen hts
  induction hts with
  | one hts => exact h hlen hts
  | more hop _ ih => exact .plain (hU _ _ hop) (ih (Nat.lt_of_succ_lt hlen))

theorem NestsBelow.listed {n : Nat} {D : Phrase α} (h : NestsBelow n D) :
    NestsBelow n (Listed D) := by
  intro ts as hlen hts
  cases hts with
  | none => exact .nil
  | some hts =>
    induction hts with
    | one hts => exact h hlen hts
    | more hts hcomma _ ih =>
      simp only [List.length_append, List.length_cons] at hlen
      exact (h (by omega) hts).append (.plain (not_isBracket_of_kind hcomma rfl) (ih (by omega)))

/-- What stands between brackets is shorter. -/
theorem NestsBelow.enclosed {n : Nat} {opening closing : TokenKind} {D : Phrase α}
    (h : NestsBelow n D) (hb : (opening, closing) ∈ brackets) :
    NestsBelow (n + 1) (Enclosed opening closing D) := by
  rintro _ a hlen ⟨ho, hts, hc⟩
  simp only [List.length_append, List.length_cons, List.length_nil] at hlen
  exact .enclosed (by rwa [ho, hc]) (h (by omega) hts)

section

variable {n : Nat} {E : Phrase Node}

theorem NestsBelow.argument (h : NestsBelow n E) : NestsBelow n (Argument E) := by
  intro ts a hlen hts
  cases hts with
  | positional hts => exact h hlen hts
  | named hname hequal hts =>
    simp only [List.length_cons] at hlen
    have hvalue := Nested.plain (not_isBracket_of_kind hequal rfl) (h (by omega) hts)
    exact .plain (not_isBracket_of_kind hname rfl) hvalue

theorem NestsBelow.dictEntry (h : NestsBelow n E) : NestsBelow n (DictEntry E) := by
  rintro _ _ hlen ⟨hkey, hcolon, hts⟩
  simp only [List.length_cons] at hlen
  refine .plain ?_ (.plain (not_isBracket_of_kind hcolon rfl) (h (by omega) hts))
  cases hkey with
  | text hkind => exact hkind.elim (not_isBracket_of_kind · rfl) (not_isBracket_of_kind · rfl)
  | name hkind => exact not_isBracket_of_kind hkind rfl

/-- The brackets of a primary expression enclose shorter phrases. -/
theorem NestsBelow.primary (h : NestsBelow n E) : NestsBelow (n + 1) (Primary E) := by
  intro ts a hlen hts
  cases hts with
  | number hkind => exact .plain (not_isBracket_of_kind hkind rfl) .nil
  | text hkind =>
    exact .plain (hkind.elim (not_isBracket_of_kind · rfl) (not_isBracket_of_kind · rfl)) .nil
  | name hkind => exact .plain (not_isBracket_of_kind hkind rfl) .nil
  | list hts => exact h.listed.enclosed (by simp [brackets]) hlen hts
  | dict hts => exact h.dictEntry.listed.enclosed (by simp [brackets]) hlen hts
  | group hts => exact h.enclosed (by simp [brackets]) hlen hts

theorem NestsBelow.postfixed (h : NestsBelow n E) : NestsBelow (n + 1) (Postfixed E) := by
  intro ts a hlen hts
  induction hts with
  | one hts => exact h.primary hlen hts
  | member _ hdot hname ih =>
    rw [List.length_append] at hlen
    exact (ih (by omega)).append
      (.plain (not_isBracket_of_kind hdot rfl) (.plain (not_isBracket_of_kind hname rfl) .nil))
  | call _ hargs ih =>
    rw [List.length_append] at hlen
    exact (ih (by omega)).append (h.argument.listed.enclosed (by simp [brackets]) (by omega) hargs)
  | index _ hindex ih =>
    rw [List.length_append] at hlen
    exact (ih (by omega)).append (h.enclosed (by simp [brackets]) (by omega) hindex)

theorem NestsBelow.disjunction (h : NestsBelow n E) : NestsBelow (n + 1) (Disjunction E) := by
  have hunary : NestsBelow (n + 1) (Unary E) :=
    h.postfixed.prefixed fun t op hop => not_isBracket_of_kind hop.1 rfl
  have hcomparison : NestsBelow (n + 1) (Comparison E) := by
    refine ((hunary.chain ?_).chain ?_).chain ?_
    · exact fun t op hop => not_isBracket_of_kind hop.1 rfl
    · exact fun t op hop => not_isBracket_of_kind hop.1 rfl
    · intro t op hop
      have hkind := hop.1
      simp only [comparisonKinds, List.mem_cons, List.not_mem_nil, or_false] at hkind
      rcases hkind with hk | hk | hk | hk | hk | hk <;> exact not_isBracket_of_kind hk rfl
  have hnegation : NestsBelow (n + 1) (Negation E) :=
    hcomparison.prefixed fun t op hop => not_isBracket_of_kind hop.1 rfl
  refine (hnegation.chain ?_).chain ?_
  · exact fun t op hop => not_isBracket_of_kind hop.1 rfl
  · exact fun t op hop => not_isBracket_of_kind hop.1 rfl

end

/-- By induction on the number of tokens: an expression inside another one has fewer of them. -/
theorem nestsBelow_expr (n : Nat) : NestsBelow n Expr := by
  induction n with
  | zero => exact fun ts a hlen => absurd hlen (Nat.not_lt_zero _)
  | succ n ih =>
    rintro _ _ hlen ⟨hts⟩
    cases hts with
    | plain hts => exact ih.disjunction hlen hts
    | choice hts hquestion hus hcolon hvs =>
      simp only [List.length_append, List.length_cons] at hlen
      have hlast := Nested.plain (not_isBracket_of_kind hcolon rfl) (ih (by omega) hvs)
      have hbranches := (ih (by omega) hus).append hlast
      rw [List.append_assoc, List.cons_append]
      exact (ih.disjunction (by omega) hts).append
        (.plain (not_isBracket_of_kind hquestion rfl) hbranches)

/-- The tokens of an expression are well nested, by induction on their number. -/
theorem Expr.nested {ts : List Token} {a : Node} (h : Expr ts a) : Nested ts :=
  nestsBelow_expr _ (Nat.lt_succ_self _) h

end Grammar

namespace Parse

/-! ### Statements -/

def NestedAt (p : Parse α) (ts : List Token) : Prop :=
  ∀ ⦃a : α⦄ ⦃rest : List Token⦄, p.run ts = .ok (a, rest) → ∃ used, ts = used ++ rest ∧ Nested used

def TakesNested (p : Parse α) : Prop := ∀ ts, NestedAt p ts

theorem NestedAt.bind_of_ok {p : Parse α} {f : α → Parse β} (used : List Token) {ts : List Token}
    {a : α} (hused : Nested used) (hrun : p.run (used ++ ts) = .ok (a, ts))
    (h : NestedAt (f a) ts) : NestedAt (p >>= f) (used ++ ts) := by
  intro b rest hbind
  rw [run_bind_of_ok hrun] at hbind
  obtain ⟨more, rfl, hmore⟩ := h hbind
  exact ⟨used ++ more, by simp, hused.append hmore⟩

/-- Looking at tokens takes none. -/
theorem NestedAt.look {p : Parse α} {f : α → Parse β} {ts : List Token} {a : α}
    (hrun : p.run ts = .ok (a, ts)) (h : NestedAt (f a) ts) : NestedAt (p >>= f) ts :=
  .bind_of_ok [] .nil hrun h

theorem NestedAt.advance {f : Unit → Parse α} {ts : List Token}
    (hts : Stops (fun t => t.isBracket) ts) (h : TakesNested (f ())) :
    NestedAt (Parse.advance >>= f) ts := by
  cases ts with
  | nil => exact .look (run_advance []) (h [])
  | cons t ts => exact .bind_of_ok [t] (.plain (hts t rfl) .nil) (run_advance (t :: ts)) (h ts)

theorem stops_of_head? {kind : TokenKind} {t : Token} {ts : List Token} (h : ts.head? = some t)
    (ht : t.kind = kind) (hkind : kind.isBracket = false) : Stops (fun t => t.isBracket) ts := by
  rw [Stops, h]
  rintro _ ⟨⟩
  exact not_isBracket_of_kind ht hkind

theorem stops_of_atKind {kind : TokenKind} {ts : List Token}
    (h : (ts.head?.any fun t => t.kind == kind) = true) (hkind : kind.isBracket = false) :
    Stops (fun t => t.isBracket) ts := by
  intro t ht
  rw [Option.mem_def.1 ht, Option.any_some, beq_iff_eq] at h
  exact not_isBracket_of_kind h hkind

theorem stops_of_atWord {word : String} {ts : List Token}
    (h : ts.head?.any (isWord word) = true) : Stops (fun t => t.isBracket) ts := by
  intro t ht
  rw [Option.mem_def.1 ht, Option.any_some, isWord, Bool.and_eq_true, beq_iff_eq] at h
  exact not_isBracket_of_kind h.1 rfl

theorem TakesNested.pure (a : α) : TakesNested (pure a : Parse α) := by
  rintro ts _ _ ⟨⟩
  exact ⟨[], rfl, .nil⟩

theorem TakesNested.throw (e : ParseStop) : TakesNested (throw e : Parse α) := by
  rintro ts _ _ ⟨⟩

/-- What two parsers take after each other is well nested if each part is. -/
theorem TakesNested.bind {p : Parse α} {f : α → Parse β} (hp : TakesNested p)
    (hf : ∀ a, TakesNested (f a)) : TakesNested (p >>= f) := by
  intro ts b rest hrun
  obtain ⟨a, us, ha, hb⟩ := run_bind_eq_ok.1 hrun
  obtain ⟨used, rfl, hused⟩ := hp ts ha
  obtain ⟨more, rfl, hmore⟩ := hf a us hb
  exact ⟨used ++ more, by simp, hused.append hmore⟩

theorem NestedAt.map (f : α → β) {p : Parse α} {ts : List Token} (h : NestedAt p ts) :
    NestedAt (f <$> p) ts := by
  intro b rest hrun
  rw [map_eq_pure_bind] at hrun
  obtain ⟨a, us, ha, ⟨⟩⟩ := run_bind_eq_ok.1 hrun
  exact h ha

theorem TakesNested.map (f : α → β) {p : Parse α} (hp : TakesNested p) : TakesNested (f <$> p) :=
  fun ts => (hp ts).map f

theorem takesNested_eat {kind : TokenKind} (hkind : kind.isBracket = false) :
    TakesNested (eat false kind) := by
  intro ts r rest hrun
  obtain ⟨t, ht, rfl, -⟩ := run_eat_eq_ok.1 hrun
  exact ⟨[t], rfl, .plain (not_isBracket_of_kind ht hkind) .nil⟩

theorem takesNested_eatText {kind : TokenKind} (hkind : kind.isBracket = false) :
    TakesNested (eatText false kind) := by
  intro ts r rest hrun
  obtain ⟨t, ht, rfl, -⟩ := run_eatText_eq_ok.1 hrun
  exact ⟨[t], rfl, .plain (not_isBracket_of_kind ht hkind) .nil⟩

theorem takesNested_skipSemicolons : TakesNested skipSemicolons := by
  rintro ts _ _ ⟨⟩
  refine ⟨ts.takeWhile fun t => t.kind == .semi, List.takeWhile_append_dropWhile.symm, ?_⟩
  refine .of_forall fun t ht => ?_
  have hsemi : t.kind = .semi := by simpa using List.all_eq_true.1 List.all_takeWhile t ht
  exact not_isBracket_of_kind hsemi rfl

/-- Between an opening bracket that has been read and the closing one. -/
theorem NestedAt.enclosed {p : Parse α} {f : α → Parse β} {opening closing : TokenKind}
    (hb : (opening, closing) ∈ brackets) (hp : TakesNested p) (hf : ∀ a, TakesNested (f a))
    {o : Token} (ho : o.kind = opening) (ts : List Token) :
    NestedAt (do Parse.advance; let a ← p; let _ ← eat false closing; f a) (o :: ts) := by
  intro b rest hrun
  rw [run_bind_of_ok (run_advance (o :: ts)), List.tail_cons] at hrun
  obtain ⟨a, us, ha, hclosed⟩ := run_bind_eq_ok.1 hrun
  obtain ⟨_, vs, heat, hfa⟩ := run_bind_eq_ok.1 hclosed
  obtain ⟨c, hc, rfl, -⟩ := run_eat_eq_ok.1 heat
  obtain ⟨used, rfl, hused⟩ := hp ts ha
  obtain ⟨more, rfl, hmore⟩ := hf a vs hfa
  exact ⟨o :: used ++ c :: more, by simp, .pair (by rwa [ho, hc]) hused hmore⟩

/-- A parser between an opening and its closing bracket takes well nested tokens. -/
theorem TakesNested.enclosed {p : Parse α} {f : α → Parse β} {opening closing : TokenKind}
    (hb : (opening, closing) ∈ brackets) (hp : TakesNested p) (hf : ∀ a, TakesNested (f a)) :
    TakesNested (do let _ ← eat false opening; let a ← p; let _ ← eat false closing; f a) := by
  intro ts b rest hrun
  obtain ⟨_, us, heat, hclosed⟩ := run_bind_eq_ok.1 hrun
  obtain ⟨o, ho, rfl, -⟩ := run_eat_eq_ok.1 heat
  have hadvance := run_bind_of_ok (run_advance (o :: us))
    fun _ => (do let a ← p; let _ ← eat false closing; f a)
  exact NestedAt.enclosed hb hp hf ho us (hadvance.trans hclosed)

theorem TakesNested.itemsUntil {item : Parse α} (h : TakesNested item) (n : Nat)
    (closing : TokenKind) : TakesNested (itemsUntil n closing item) := by
  have hsound : Sound (fun ts _ => Nested ts) (fun _ => False) item := by
    intro ts a rest hrun
    obtain ⟨used, hts, hused⟩ := h ts hrun
    exact ⟨used, hts, hused, fun _ _ => id⟩
  intro ts as rest hrun
  obtain ⟨used, hts, hused, -⟩ := hsound.itemsUntil n closing hrun
  have hbelow : NestsBelow (used.length + 1) fun ts (_ : α) => Nested ts := fun _ _ _ => id
  exact ⟨used, hts, hbelow.listed (Nat.lt_succ_self _) hused⟩

/-- The parser of expressions takes well nested tokens, as it reads exactly the expressions. -/
theorem takesNested_expr (n : Nat) : TakesNested (expr false n) := by
  intro ts a rest hrun
  obtain ⟨used, hts, hused, -⟩ := (reads_expr n).sound hrun
  exact ⟨used, hts, hused.nested⟩

theorem takesNested_typeAfter {marker : TokenKind} (hmarker : marker.isBracket = false) :
    TakesNested (typeAfter false marker) := by
  intro ts
  refine .look (run_atKind marker ts) ?_
  split
  · next h => exact .advance (stops_of_atKind h hmarker) (takesNested_eatText rfl)
  · exact TakesNested.pure _ ts

section Statement

variable {n : Nat} {expr : Parse Node} {statement : Parse (Option Node)} {ts : List Token}

theorem takesNested_parameter (hexpr : TakesNested expr) : TakesNested (parameter false expr) := by
  refine .bind (takesNested_eatText rfl) fun name => ?_
  refine .bind (takesNested_typeAfter rfl) fun type ts => ?_
  refine .look (run_atKind .equal ts) ?_
  split
  · next h => exact .advance (stops_of_atKind h rfl) (hexpr.bind fun _ => .pure _)
  · exact TakesNested.pure _ ts

theorem nestedAt_declaration (hexpr : TakesNested expr)
    (hts : Stops (fun t => t.isBracket) ts) (forceGlobal forceLocal : Bool) :
    NestedAt (declaration false expr forceGlobal forceLocal) ts := by
  refine .look rfl (.advance hts ?_)
  refine .bind (takesNested_eatText rfl) fun name => ?_
  refine .bind (takesNested_typeAfter rfl) fun type => ?_
  exact .bind (takesNested_eat rfl) fun _ => hexpr.bind fun _ => .pure _

theorem nestedAt_scopeStatement (hexpr : TakesNested expr)
    (hts : Stops (fun t => t.isBracket) ts) (kind : String) :
    NestedAt (scopeStatement false expr kind) ts := by
  refine .advance hts (.bind (takesNested_eatText rfl) fun name us => ?_)
  refine .look rfl (.look rfl ?_)
  split
  · next h =>
    rw [Bool.or_eq_true] at h
    refine nestedAt_declaration hexpr ?_ _ _
    exact h.elim stops_of_atWord stops_of_atWord
  · exact TakesNested.pure _ us

theorem takesNested_statementsUntil (hstatement : TakesNested statement) (k : Nat) :
    TakesNested (statementsUntil statement k) := by
  induction k with
  | zero => exact .throw _
  | succ k ih =>
    refine takesNested_skipSemicolons.bind fun _ ts => .look (run_current ts) ?_
    split
    · exact TakesNested.pure _ ts
    · split
      · exact TakesNested.pure _ ts
      · exact (hstatement.bind fun node => takesNested_skipSemicolons.bind fun _ =>
          ih.bind fun rest => .pure _) ts

theorem takesNested_braces (hstatement : TakesNested statement) (n : Nat) :
    TakesNested (braces false n statement) :=
  .enclosed (by simp [brackets]) (takesNested_statementsUntil hstatement n) fun _ => .pure _

theorem nestedAt_function (hexpr : TakesNested expr) (hstatement : TakesNested statement)
    (hts : Stops (fun t => t.isBracket) ts) :
    NestedAt (function false n expr statement) ts := by
  refine .advance hts (.bind (takesNested_eatText rfl) fun name => ?_)
  have hparams := (takesNested_parameter hexpr).itemsUntil n .rparen
  refine .enclosed (by simp [brackets]) hparams fun params => ?_
  refine .bind (takesNested_typeAfter rfl) fun returns => ?_
  exact (takesNested_braces hstatement n).bind fun _ => .pure _

theorem nestedAt_template (hstatement : TakesNested statement)
    (hts : Stops (fun t => t.isBracket) ts) : NestedAt (template false n statement) ts :=
  .advance hts (.bind (takesNested_eatText rfl) fun _ =>
    (takesNested_braces hstatement n).bind fun _ => .pure _)

theorem nestedAt_classDecl (hstatement : TakesNested statement)
    (hts : Stops (fun t => t.isBracket) ts) : NestedAt (classDecl false n statement) ts := by
  refine .advance hts (.bind (takesNested_eatText rfl) fun name us => ?_)
  refine .look (run_atKind .colon us) ?_
  have hbody (base : Option String) :
      TakesNested (do
        let body ← braces false n statement
        pure (Node.cls name base body)) :=
    (takesNested_braces hstatement n).bind fun _ => .pure _
  split
  · next h =>
    exact .advance (stops_of_atKind h rfl) (.bind (.map some (takesNested_eatText rfl)) hbody)
  · exact TakesNested.bind (.pure none) hbody us

theorem takesNested_condition (hexpr : TakesNested expr) :
    TakesNested (condition false expr) := by
  intro ts
  refine .look (run_atKind .lparen ts) ?_
  split
  · next h =>
    rcases ts with _ | ⟨o, ts⟩
    · cases h
    · have ho : o.kind = .lparen := by simpa using h
      exact .enclosed (by simp [brackets]) hexpr (fun _ => .pure _) ho ts
  · exact hexpr ts

theorem takesNested_conditional (hexpr : TakesNested expr) (hstatement : TakesNested statement)
    (k : Nat) : TakesNested (conditional false n expr statement k) := by
  have hbraces := takesNested_braces hstatement n
  induction k with
  | zero => exact .throw _
  | succ k ih =>
    refine .bind (takesNested_eat rfl) fun _ => (takesNested_condition hexpr).bind fun test => ?_
    refine hbraces.bind fun thenBlock => takesNested_skipSemicolons.bind fun _ ts => ?_
    refine .look (run_atWord "else" ts) ?_
    split
    · next h =>
      refine .advance (stops_of_atWord h) fun us => .look (run_atWord "if" us) ?_
      split
      · exact (ih.bind fun _ => .pure _) us
      · exact (hbraces.bind fun _ => .pure _) us
    · refine .look (run_atWord "elif" ts) ?_
      split
      · next h => exact .advance (stops_of_atWord h) (ih.bind fun _ => .pure _)
      · exact TakesNested.pure _ ts

theorem nestedAt_forLoop (hexpr : TakesNested expr) (hstatement : TakesNested statement)
    (hts : Stops (fun t => t.isBracket) ts) :
    NestedAt (forLoop false n expr statement) ts := by
  refine .advance hts (.bind (takesNested_eatText rfl) fun binder us => ?_)
  refine .look (run_atWord "in" us) ?_
  have hrest : TakesNested (do
      let _ ← eat false .name
      let iterable ← expr
      let body ← braces false n statement
      pure (Node.forStmt binder iterable (.block body))) :=
    .bind (takesNested_eat rfl) fun _ => hexpr.bind fun _ =>
      (takesNested_braces hstatement n).bind fun _ => .pure _
  split
  · exact TakesNested.throw _ us
  · exact hrest us

theorem nestedAt_whileLoop (hexpr : TakesNested expr) (hstatement : TakesNested statement)
    (hts : Stops (fun t => t.isBracket) ts) :
    NestedAt (whileLoop false n expr statement) ts :=
  .advance hts ((takesNested_condition hexpr).bind fun _ =>
    (takesNested_braces hstatement n).bind fun _ => .pure _)

theorem nestedAt_guarded (hstatement : TakesNested statement)
    (hts : Stops (fun t => t.isBracket) ts) : NestedAt (guarded false n statement) ts := by
  have hbraces := takesNested_braces hstatement n
  refine .advance hts (hbraces.bind fun tryBlock us => .look (run_atWord "catch" us) ?_)
  split
  · next h =>
    exact .advance (stops_of_atWord h)
      (.bind (takesNested_eatText rfl) fun _ => hbraces.bind fun _ => .pure _)
  · exact TakesNested.throw _ us

/-- Each statement that a word opens takes well nested tokens. -/
theorem nestedAt_wordStatement (hexpr : TakesNested expr) (hstatement : TakesNested statement)
    (hts : Stops (fun t => t.isBracket) ts) (word : String) :
    NestedAt (wordStatement false n expr statement word) ts := by
  unfold wordStatement
  split
  · exact (nestedAt_scopeStatement hexpr hts _).map some
  · exact (nestedAt_scopeStatement hexpr hts _).map some
  · exact (nestedAt_template hstatement hts).map some
  · exact (nestedAt_classDecl hstatement hts).map some
  · exact nestedAt_guarded hstatement hts
  · exact (nestedAt_declaration hexpr hts _ _).map some
  · exact (nestedAt_declaration hexpr hts _ _).map some
  · exact (nestedAt_function hexpr hstatement hts).map some
  · exact (takesNested_conditional hexpr hstatement (n + 1) ts).map some
  · exact (nestedAt_forLoop hexpr hstatement hts).map some
  · exact (nestedAt_whileLoop hexpr hstatement hts).map some
  · exact .advance hts (hexpr.map _)
  · exact .advance hts (.pure _)
  · exact .advance hts (.pure _)
  · exact (hexpr ts).map _

theorem takesNested_lvalueFrom (hexpr : TakesNested expr) (k : Nat) (node : Node) :
    TakesNested (lvalueFrom false expr k node) := by
  induction k generalizing node with
  | zero => exact .throw _
  | succ k ih =>
    intro ts
    refine .look (run_current ts) ?_
    rcases ts with _ | ⟨t, ts⟩
    · exact TakesNested.pure _ []
    simp only [List.head?_cons, Option.map_some]
    split
    · next ht =>
      refine .advance (stops_of_head? rfl (Option.some.inj ht) rfl) fun us =>
        .look (run_current us) ?_
      split
      · next name hname =>
        split
        · next hkind => exact .advance (stops_of_head? hname hkind rfl) (ih _)
        · exact TakesNested.pure _ us
      · exact TakesNested.pure _ us
    · next ht => exact .enclosed (by simp [brackets]) hexpr (fun _ => ih _) (Option.some.inj ht) ts
    · exact TakesNested.pure _ _
    · exact TakesNested.pure _ _

theorem takesNested_lvalue (hexpr : TakesNested expr) : TakesNested (lvalue false n expr) := by
  intro ts
  refine .look (run_current ts) ?_
  split
  · next t ht =>
    split
    · next hname =>
      exact .advance (stops_of_head? ht hname rfl) (takesNested_lvalueFrom hexpr n _)
    · exact TakesNested.pure _ ts
  · exact TakesNested.pure _ ts

theorem not_isBracket_of_assignOperator? {t : Token} {op : Option AssignOp}
    (h : assignOperator? t.kind = some op) : ¬ t.isBracket := by
  revert h
  unfold Token.isBracket assignOperator?
  cases t.kind <;> simp [TokenKind.isBracket, brackets]

/-- An assignment takes its target and its value; if there is none, what was read is given back. -/
theorem takesNested_assignment? (hexpr : TakesNested expr) :
    TakesNested (assignment? false n expr) := by
  intro ts r rest hrun
  have hget : (get : Parse (List Token)).run ts = .ok (ts, ts) := rfl
  rw [assignment?, run_bind_of_ok hget] at hrun
  obtain ⟨target, us, hlvalue, hrun⟩ := run_bind_eq_ok.1 hrun
  obtain ⟨used, rfl, hused⟩ := takesNested_lvalue hexpr ts hlvalue
  rw [run_bind_of_ok (run_current us)] at hrun
  split at hrun
  · next target op hop =>
    obtain ⟨t, us, rfl⟩ : ∃ t vs, us = t :: vs := by
      rcases us with _ | ⟨t, us⟩
      · cases hop
      · exact ⟨t, us, rfl⟩
    rw [run_bind_of_ok (run_advance _)] at hrun
    obtain ⟨rhs, vs, hrhs, ⟨⟩⟩ := run_bind_eq_ok.1 hrun
    obtain ⟨more, hmore, hnested⟩ := hexpr _ hrhs
    rw [List.tail_cons] at hmore
    subst hmore
    refine ⟨used ++ t :: more, by simp, hused.append (.plain ?_ hnested)⟩
    exact not_isBracket_of_assignOperator? hop
  · cases hrun
    exact ⟨[], rfl, .nil⟩

/-- One statement takes well nested tokens if its parts do. -/
theorem takesNested_statementWith (hexpr : TakesNested expr) (hstatement : TakesNested statement) :
    TakesNested (statementWith false n expr statement) := by
  refine (takesNested_assignment? hexpr).bind fun assigned => ?_
  split
  · exact .pure _
  · intro ts
    refine .look (run_current ts) ?_
    split
    · next t ht =>
      split
      · next hname =>
        exact nestedAt_wordStatement hexpr hstatement (stops_of_head? ht hname rfl) _
      · next hshell => exact .advance (stops_of_head? ht hshell rfl) (.pure _)
      · exact (hexpr ts).map _
    · exact (hexpr ts).map _

end Statement

/-- By induction on the bound: every statement takes well nested tokens. -/
theorem takesNested_statement (n : Nat) : TakesNested (statement false n) := by
  induction n with
  | zero => exact .throw _
  | succ n ih => exact takesNested_statementWith (takesNested_expr n) ih

/-- A program takes all its tokens. -/
theorem nested_of_programFrom {statement : Parse (Option Node)} (hstatement : TakesNested statement)
    (k : Nat) {ts rest : List Token} {nodes : List Node}
    (hrun : (programFrom statement k).run ts = .ok (nodes, rest)) : Nested ts := by
  induction k generalizing ts nodes with
  | zero => cases hrun
  | succ k ih =>
    obtain ⟨_, us, hskip, hnext⟩ := run_bind_eq_ok.1 hrun
    obtain ⟨semis, rfl, hsemis⟩ := takesNested_skipSemicolons ts hskip
    refine hsemis.append ?_
    rcases us with _ | ⟨t, us⟩
    · exact .nil
    · rw [run_bind_of_ok (run_current _)] at hnext
      obtain ⟨node, vs, hnode, hafter⟩ := run_bind_eq_ok.1 hnext
      obtain ⟨used, hused, hnested⟩ := hstatement _ hnode
      obtain ⟨_, ws, hsemis, hlast⟩ := run_bind_eq_ok.1 hafter
      obtain ⟨more, rfl, hmore⟩ := takesNested_skipSemicolons vs hsemis
      obtain ⟨nodes, _, hrest, hpure⟩ := run_bind_eq_ok.1 hlast
      cases hpure
      rw [hused]
      exact hnested.append (hmore.append (ih hrest))

end Parse

/-- The tokens of a program that can be parsed are well nested, so the prompt takes the program for
complete. -/
theorem parseProgram_nested {code : String} {nodes : List Node}
    (h : parseProgram false code = .ok nodes) :
    Nested (tokenize code) ∧ isComplete code = true := by
  have hnested : Nested (tokenize code) := by
    unfold parseProgram parseTokens at h
    rcases hrun : (Parse.programFrom (Parse.statement false (Parse.bound (tokenize code)))
      (Parse.bound (tokenize code))).run (tokenize code) with e | ⟨a, rest⟩
    · rw [hrun] at h
      cases h
    · exact Parse.nested_of_programFrom (Parse.takesNested_statement _) _ hrun
  refine ⟨hnested, ?_⟩
  simp only [isComplete, Bool.and_eq_true, beq_iff_eq]
  exact ⟨⟨hnested.depth_eq_zero (by simp [brackets]), hnested.depth_eq_zero (by simp [brackets])⟩,
    hnested.depth_eq_zero (by simp [brackets])⟩

/-- A function whose body assigns a dictionary to an item of a list. -/
theorem parseProgram_nested_func :
    let code := "func f(x) \x7b x[0] = \x7bk: x\x7d \x7d"
    (∃ nodes, parseProgram false code = .ok nodes) ∧ Nested (tokenize code) ∧
      isComplete code = true := by
  intro code
  have htokens : tokenize code = [⟨.name, "func", 1⟩, ⟨.name, "f", 1⟩, ⟨.lparen, "(", 1⟩,
      ⟨.name, "x", 1⟩, ⟨.rparen, ")", 1⟩, ⟨.lbrace, "\x7b", 1⟩, ⟨.name, "x", 1⟩,
      ⟨.lbracket, "[", 1⟩, ⟨.number, "0", 1⟩, ⟨.rbracket, "]", 1⟩, ⟨.equal, "=", 1⟩,
      ⟨.lbrace, "\x7b", 1⟩, ⟨.name, "k", 1⟩, ⟨.colon, ":", 1⟩, ⟨.name, "x", 1⟩,
      ⟨.rbrace, "\x7d", 1⟩, ⟨.rbrace, "\x7d", 1⟩] := by
    decide +kernel
  have hparse : parseProgram false code = .ok [.func "f" [("x", "auto", .absent)] "auto"
      [.assign none (.dict [("k", .name "x")])
        (.binary (.name "x") .index (.number (.int 0))) {}]] := by
    rw [parseProgram, htokens]
    rfl
  exact ⟨⟨_, hparse⟩, parseProgram_nested hparse⟩

end ScriptLang
