import ScriptLang.Proofs.Parse.Printed
import ScriptLang.Proofs.Run.Basic
import ScriptLang.Run.Interpreter

/-!
# Programs in a row

Two programs with a semicolon between them are parsed to the statements of the one and then those
of the other. Each parser must do at a semicolon what it does at the end of the tokens. Nearly all
of them leave the semicolon alone; only a conditional looks behind it, for a further branch.

The comparison is between a parser on some tokens and another one, with larger bounds, on the same
tokens with others after them. With nothing after them it says that larger bounds make no
difference.
-/

namespace ScriptLang

open Grammar

variable {α β : Type}

namespace Parse

/-- Nothing follows, or a semicolon and then no further branch of a conditional. -/
structure Apart (tail : List Token) : Prop where
  head : Stops (fun t => t.kind ≠ .semi) tail
  branch : Stops opensBranch (skipped tail)

theorem apart_nil : Apart [] := ⟨nofun, nofun⟩

theorem Apart.kind_eq {tail : List Token} (h : Apart tail) {t : Token} (ht : tail.head? = some t) :
    t.kind = .semi :=
  Decidable.not_not.1 (h.head t ht)

/-- Looking for a kind of token finds the same with the tail as without it. -/
theorem Apart.any_kind {tail : List Token} (h : Apart tail) {kind : TokenKind}
    (hkind : kind ≠ .semi) (ts : List Token) : ((ts ++ tail).head?.any fun t => t.kind == kind) =
      ts.head?.any fun t => t.kind == kind := by
  rcases ts with _ | ⟨t, ts⟩
  · rcases tail with _ | ⟨t, tail⟩
    · rfl
    · simp [h.kind_eq rfl, hkind.symm]
  · rfl

theorem Apart.any_isWord {tail : List Token} (h : Apart tail) (word : String) (ts : List Token) :
    (ts ++ tail).head?.any (isWord word) = ts.head?.any (isWord word) := by
  rcases ts with _ | ⟨t, ts⟩
  · rcases tail with _ | ⟨t, tail⟩
    · rfl
    · simp [isWord, h.kind_eq rfl]
  · rfl

theorem skipped_cons (t : Token) (ts : List Token) :
    skipped (t :: ts) = if t.kind = .semi then skipped ts else t :: ts := by
  simp only [skipped, List.dropWhile_cons, beq_iff_eq]

theorem skipped_append_of_ne_nil {ts : List Token} (h : skipped ts ≠ []) (tail : List Token) :
    skipped (ts ++ tail) = skipped ts ++ tail := by
  induction ts with
  | nil => exact absurd rfl h
  | cons t ts ih =>
    rw [skipped_cons] at h
    rw [List.cons_append, skipped_cons, skipped_cons]
    split at h
    · next ht => rw [if_pos ht, if_pos ht, ih h]
    · next ht => rw [if_neg ht, if_neg ht, List.cons_append]

theorem skipped_append_of_eq_nil {ts : List Token} (h : skipped ts = []) (tail : List Token) :
    skipped (ts ++ tail) = skipped tail := by
  induction ts with
  | nil => rfl
  | cons t ts ih =>
    rw [skipped_cons] at h
    rw [List.cons_append, skipped_cons]
    split at h
    · next ht => rw [if_pos ht, ih h]
    · cases h

theorem length_skipped_le (ts : List Token) : (skipped ts).length ≤ ts.length :=
  (List.dropWhile_suffix _).length_le

/-! ### Agreement -/

/-- If `p` gives a result on the tokens, it takes at least `k` of them, and `q` gives the same
result with the tail after them. The tokens and the tail are fewer than `N`. -/
def AgreesAt (N : Nat) (tail : List Token) (k : Nat) (p q : Parse α) (ts : List Token) : Prop :=
  ∀ ⦃a : α⦄ ⦃rest : List Token⦄, (ts ++ tail).length < N → p.run ts = .ok (a, rest) →
    rest.length + k ≤ ts.length ∧ q.run (ts ++ tail) = .ok (a, rest ++ tail)

def Agrees (N : Nat) (tail : List Token) (k : Nat) (p q : Parse α) : Prop :=
  ∀ ts, AgreesAt N tail k p q ts

variable {N k : Nat} {tail ts : List Token}

theorem AgreesAt.weaken {p q : Parse α} (h : AgreesAt N tail k p q ts) : AgreesAt N tail 0 p q ts :=
  fun _ _ hlen hrun => ⟨Nat.le_trans (Nat.le_add_right _ k) (h hlen hrun).1, (h hlen hrun).2⟩

theorem Agrees.weaken {p q : Parse α} (h : Agrees N tail k p q) : Agrees N tail 0 p q :=
  fun ts => (h ts).weaken

theorem Agrees.pure (a : α) : Agrees N tail 0 (pure a) (pure a) := by
  rintro ts _ _ - ⟨⟩
  exact ⟨Nat.le_refl _, rfl⟩

theorem Agrees.throw (e : ParseStop) (q : Parse α) : Agrees N tail k (throw e) q := by
  rintro ts _ _ - ⟨⟩

theorem AgreesAt.bind {p q : Parse α} {f g : α → Parse β} (hp : AgreesAt N tail k p q ts)
    (hf : ∀ a, Agrees (N - k) tail 0 (f a) (g a)) : AgreesAt N tail k (p >>= f) (q >>= g) ts := by
  intro b rest hlen hrun
  obtain ⟨a, us, ha, hb⟩ := run_bind_eq_ok.1 hrun
  obtain ⟨hus, hq⟩ := hp hlen ha
  rw [List.length_append] at hlen
  obtain ⟨hrest, hg⟩ := hf a us (by rw [List.length_append]; omega) hb
  refine ⟨by omega, ?_⟩
  rw [run_bind_of_ok hq, hg]

theorem Agrees.mono {M : Nat} {p q : Parse α} (h : Agrees N tail k p q) (hM : M ≤ N) :
    Agrees M tail k p q :=
  fun ts _ _ hlen => h ts (Nat.lt_of_lt_of_le hlen hM)

theorem Agrees.bind {p q : Parse α} {f g : α → Parse β} (hp : Agrees N tail k p q)
    (hf : ∀ a, Agrees N tail 0 (f a) (g a)) : Agrees N tail k (p >>= f) (q >>= g) :=
  fun ts => (hp ts).bind fun a => (hf a).mono (Nat.sub_le N k)

theorem AgreesAt.map (f : α → β) {p q : Parse α} (h : AgreesAt N tail k p q ts) :
    AgreesAt N tail k (f <$> p) (f <$> q) ts := by
  rw [map_eq_pure_bind, map_eq_pure_bind]
  exact h.bind fun a => .pure (f a)

/-- Looking at tokens takes none. -/
theorem AgreesAt.look {p q : Parse α} {f g : α → Parse β} {a : α} (hp : p.run ts = .ok (a, ts))
    (hq : q.run (ts ++ tail) = .ok (a, ts ++ tail)) (h : AgreesAt N tail k (f a) (g a) ts) :
    AgreesAt N tail k (p >>= f) (q >>= g) ts := by
  intro b rest hlen hrun
  rw [run_bind_of_ok hp] at hrun
  rw [run_bind_of_ok hq]
  exact h hlen hrun

theorem AgreesAt.advance {f g : Unit → Parse α} {t : Token}
    (h : Agrees (N - 1) tail 0 (f ()) (g ())) :
    AgreesAt N tail 1 (Parse.advance >>= f) (Parse.advance >>= g) (t :: ts) := by
  have htakes : AgreesAt N tail 1 Parse.advance Parse.advance (t :: ts) := by
    rintro _ _ - ⟨⟩
    exact ⟨Nat.le_refl _, rfl⟩
  exact htakes.bind fun _ => h

/-- A parser that asks for the current token, which may be missing or a semicolon instead. -/
theorem Agrees.current (htail : Apart tail) {f g : Option Token → Parse α}
    (hcons : ∀ t us, AgreesAt N tail k (f (some t)) (g (some t)) (t :: us))
    (hnil : ∀ o : Option Token, (∀ t, o = some t → t.kind = .semi) →
      AgreesAt N tail k (f none) (g o) []) :
    Agrees N tail k (Parse.current >>= f) (Parse.current >>= g) := by
  intro ts a rest hlen hrun
  rw [run_bind_of_ok (run_current _)] at hrun ⊢
  rcases ts with _ | ⟨t, ts⟩
  · exact hnil _ (fun t ht => htail.kind_eq ht) hlen hrun
  · exact hcons t ts hlen hrun

/-- A parser that asks for a kind of token. -/
theorem Agrees.ifKind (htail : Apart tail) {kind : TokenKind} (hkind : kind ≠ .semi)
    {f g : Unit → Parse α} {p q : Parse α} (hf : Agrees (N - 1) tail 0 (f ()) (g ()))
    (hp : Agrees N tail 0 p q) :
    Agrees N tail 0 (do if ← atKind kind then Parse.advance >>= f else p)
      (do if ← atKind kind then Parse.advance >>= g else q) := by
  intro ts
  refine .look (run_atKind kind ts) (by rw [run_atKind, htail.any_kind hkind]) ?_
  split
  · next h =>
    rcases ts with _ | ⟨t, ts⟩
    · cases h
    · exact (AgreesAt.advance hf).weaken
  · exact hp ts

theorem agrees_eat (kind : TokenKind) : Agrees N tail 1 (eat false kind) (eat false kind) := by
  intro ts r rest _ hrun
  obtain ⟨t, ht, rfl, rfl⟩ := run_eat_eq_ok.1 hrun
  exact ⟨Nat.le_refl _, run_eat_eq_ok.2 ⟨t, ht, rfl, rfl⟩⟩

theorem agrees_eatText (kind : TokenKind) :
    Agrees N tail 1 (eatText false kind) (eatText false kind) := by
  intro ts r rest _ hrun
  obtain ⟨t, ht, rfl, rfl⟩ := run_eatText_eq_ok.1 hrun
  exact ⟨Nat.le_refl _, run_eatText_eq_ok.2 ⟨t, ht, rfl, rfl⟩⟩

/-- Expressions go on neither at the end nor at a semicolon. -/
theorem agrees_expr (htail : Apart tail) (n : Nat) {m : Nat} (hm : N ≤ m) :
    Agrees N tail 1 (expr false n) (expr false m) := by
  intro ts a rest hlen hrun
  obtain ⟨used, rfl, hused, hrest⟩ := (reads_expr n).sound hrun
  obtain ⟨t, us, rfl, -⟩ := begins_expr used a hused
  have hstops : Stops extending (rest ++ tail) := by
    rcases rest with _ | ⟨u, rest⟩
    · exact fun u hu => not_extending (by simp [htail.kind_eq hu])
    · exact hrest
  rw [List.append_assoc] at hlen ⊢
  exact ⟨by simp, (reads_expr m).complete (Nat.lt_of_lt_of_le hlen hm) hused hstops⟩

theorem agrees_typeAfter (htail : Apart tail) {marker : TokenKind} (hmarker : marker ≠ .semi) :
    Agrees N tail 0 (typeAfter false marker) (typeAfter false marker) :=
  .ifKind htail hmarker (agrees_eatText .name).weaken (.pure _)

/-! ### Items -/

/-- Items are read alike before the tail: no comma starts it. -/
theorem agrees_commaSeparated (htail : Apart tail) {item item' : Parse α}
    (hitem : Agrees N tail 0 item item') {n m : Nat} (hnm : n ≤ m) :
    Agrees N tail 0 (commaSeparated item n) (commaSeparated item' m) := by
  induction n generalizing m with
  | zero => exact .throw _ _
  | succ n ih =>
    obtain ⟨m, rfl⟩ : ∃ k, m = k + 1 := ⟨m - 1, by omega⟩
    refine hitem.bind fun x => .ifKind htail (by decide) ?_ (.pure _)
    exact ((ih (Nat.le_of_succ_le_succ hnm)).mono (Nat.sub_le N 1)).bind fun rest => .pure _

/-- Without a closing token there is no result, so the end of the tokens does not matter. -/
theorem agrees_itemsUntil (htail : Apart tail) {item item' : Parse α}
    (hitem : Agrees N tail 0 item item') {n m : Nat} (hnm : n ≤ m) (closing : TokenKind)
    {f g : List α → Parse β} (hf : ∀ items, Agrees N tail 0 (f items) (g items)) :
    Agrees N tail 0 (do
        let items ← itemsUntil n closing item
        let _ ← eat false closing
        f items) (do
        let items ← itemsUntil m closing item'
        let _ ← eat false closing
        g items) := by
  have hclosed (items : List α) : Agrees N tail 0
      (eat false closing >>= fun _ => f items) (eat false closing >>= fun _ => g items) :=
    (agrees_eat closing).weaken.bind fun _ => hf items
  intro ts
  rcases ts with _ | ⟨t, ts⟩
  · intro b rest _ hrun
    obtain ⟨items, us, hitems, hrun⟩ := run_bind_eq_ok.1 hrun
    cases hitems
    cases hrun
  · have hitems : AgreesAt N tail 0 (itemsUntil n closing item) (itemsUntil m closing item')
        (t :: ts) := by
      intro items rest hlen hrun
      rw [run_itemsUntil_cons] at hrun
      rw [List.cons_append, run_itemsUntil_cons]
      split at hrun
      · next ht =>
        cases hrun
        exact ⟨Nat.le_refl _, by rw [if_pos ht]; rfl⟩
      · next ht =>
        rw [if_neg ht]
        exact agrees_commaSeparated htail hitem hnm _ hlen hrun
    exact hitems.bind hclosed

/-! ### Statements -/

/-- As `AgreesAt`, but if the parser has taken all tokens the other one may have skipped the
semicolons of the tail. -/
def JoinsAt (N : Nat) (tail : List Token) (k : Nat) (p q : Parse α) (ts : List Token) : Prop :=
  ∀ ⦃a : α⦄ ⦃rest : List Token⦄, (ts ++ tail).length < N → p.run ts = .ok (a, rest) →
    rest.length + k ≤ ts.length ∧ ∃ rest', q.run (ts ++ tail) = .ok (a, rest') ∧
      (rest' = rest ++ tail ∨ rest = [] ∧ rest' = skipped tail)

def Joins (N : Nat) (tail : List Token) (k : Nat) (p q : Parse α) : Prop :=
  ∀ ts, JoinsAt N tail k p q ts

theorem AgreesAt.joins {p q : Parse α} (h : AgreesAt N tail k p q ts) : JoinsAt N tail k p q ts :=
  fun _ _ hlen hrun => ⟨(h hlen hrun).1, _, (h hlen hrun).2, .inl rfl⟩

theorem JoinsAt.weaken {p q : Parse α} (h : JoinsAt N tail k p q ts) : JoinsAt N tail 0 p q ts :=
  fun _ _ hlen hrun => ⟨Nat.le_trans (Nat.le_add_right _ k) (h hlen hrun).1, (h hlen hrun).2⟩

/-- After a part that agrees, the rest may join. -/
theorem AgreesAt.bind_joins {p q : Parse α} {f g : α → Parse β} (hp : AgreesAt N tail k p q ts)
    (hf : ∀ a, Joins N tail 0 (f a) (g a)) : JoinsAt N tail k (p >>= f) (q >>= g) ts := by
  intro b rest hlen hrun
  obtain ⟨a, us, ha, hb⟩ := run_bind_eq_ok.1 hrun
  obtain ⟨hus, hq⟩ := hp hlen ha
  rw [List.length_append] at hlen
  obtain ⟨hrest, rest', hg, hrest'⟩ := hf a us (by rw [List.length_append]; omega) hb
  exact ⟨by omega, rest', by rw [run_bind_of_ok hq, hg], hrest'⟩

theorem JoinsAt.map (f : α → β) {p q : Parse α} (h : JoinsAt N tail k p q ts) :
    JoinsAt N tail k (f <$> p) (f <$> q) ts := by
  intro b rest hlen hrun
  rw [map_eq_pure_bind] at hrun ⊢
  obtain ⟨a, us, ha, ⟨⟩⟩ := run_bind_eq_ok.1 hrun
  obtain ⟨hrest, rest', hq, hrest'⟩ := h hlen ha
  exact ⟨hrest, rest', run_bind_of_ok hq _, hrest'⟩

theorem JoinsAt.bind_pure (f : α → β) {p q : Parse α} (h : JoinsAt N tail k p q ts) :
    JoinsAt N tail k (do let a ← p; pure (f a)) (do let a ← q; pure (f a)) ts := by
  rw [← map_eq_pure_bind, ← map_eq_pure_bind]
  exact h.map f

theorem JoinsAt.look {p q : Parse α} {f g : α → Parse β} {a : α} (hp : p.run ts = .ok (a, ts))
    (hq : q.run (ts ++ tail) = .ok (a, ts ++ tail)) (h : JoinsAt N tail k (f a) (g a) ts) :
    JoinsAt N tail k (p >>= f) (q >>= g) ts := by
  intro b rest hlen hrun
  rw [run_bind_of_ok hp] at hrun
  rw [run_bind_of_ok hq]
  exact h hlen hrun

theorem JoinsAt.advance {f g : Unit → Parse α} {t : Token} (h : Joins N tail 0 (f ()) (g ())) :
    JoinsAt N tail 1 (Parse.advance >>= f) (Parse.advance >>= g) (t :: ts) := by
  have htakes : AgreesAt N tail 1 Parse.advance Parse.advance (t :: ts) := by
    rintro _ _ - ⟨⟩
    exact ⟨Nat.le_refl _, rfl⟩
  exact htakes.bind_joins fun _ => h

/-- After skipping semicolons there is a token, or both are past all semicolons. -/
theorem Joins.skip {f g : Unit → Parse α}
    (hcons : ∀ t us, JoinsAt N tail 0 (f ()) (g ()) (t :: us))
    (hnil : ∀ a rest, (f ()).run [] = .ok (a, rest) →
      rest = [] ∧ (g ()).run (skipped tail) = .ok (a, skipped tail)) :
    Joins N tail 0 (skipSemicolons >>= f) (skipSemicolons >>= g) := by
  intro ts a rest hlen hrun
  have hskip := length_skipped_le ts
  rw [run_bind_of_ok (run_skipSemicolons _)] at hrun ⊢
  rcases hts : skipped ts with _ | ⟨t, us⟩
  · rw [hts] at hrun
    obtain ⟨rfl, hg⟩ := hnil a rest hrun
    exact ⟨Nat.zero_le _, _, by rw [skipped_append_of_eq_nil hts, hg], .inr ⟨rfl, rfl⟩⟩
  · rw [hts] at hrun hskip
    rw [List.length_append] at hlen
    rw [skipped_append_of_ne_nil (by simp [hts]), hts]
    obtain ⟨hrest, hjoined⟩ := hcons t us (by rw [List.length_append]; omega) hrun
    exact ⟨Nat.le_trans hrest hskip, hjoined⟩

theorem run_skip_statementsUntil (p : Parse (Option Node)) (n : Nat) (ts : List Token) :
    (statementsUntil p n).run (skipped ts) = (statementsUntil p n).run ts := by
  cases n with
  | zero => rfl
  | succ n =>
    rw [statementsUntil, run_bind_of_ok (run_skipSemicolons _),
      run_bind_of_ok (run_skipSemicolons _), skipped_skipped]

section Statement

variable {n m : Nat} {expr expr' : Parse Node} {statement statement' : Parse (Option Node)}

theorem run_statementsUntil_cons (p : Parse (Option Node)) (n : Nat) {ts us : List Token}
    {t : Token} (hts : skipped ts = t :: us) (ht : t.kind ≠ .rbrace) :
    (statementsUntil p (n + 1)).run ts = (do
      let node ← p
      let rest ← statementsUntil p n
      Pure.pure (node.toList ++ rest)).run (t :: us) := by
  rw [statementsUntil, run_bind_of_ok (run_skipSemicolons _), hts,
    run_bind_of_ok (run_current _)]
  simp only [List.head?_cons, ht, if_false]
  refine run_bind_congr (fun node vs => ?_) _
  rw [run_bind_of_ok (run_skipSemicolons _), run_bind, run_bind, run_skip_statementsUntil]

/-- Statements before a token that ends them; at the end of the tokens they would go on with the
tail. -/
theorem run_statementsUntil_append (hstatement : Joins N tail 1 statement statement')
    (hnm : n ≤ m) {ts rest : List Token} {nodes : List Node} (hlen : (ts ++ tail).length < N)
    (hrun : (statementsUntil statement n).run ts = .ok (nodes, rest)) (hrest : rest ≠ []) :
    rest.length ≤ ts.length ∧
      (statementsUntil statement' m).run (ts ++ tail) = .ok (nodes, rest ++ tail) := by
  induction n generalizing m ts nodes with
  | zero => cases hrun
  | succ n ih =>
    obtain ⟨m, rfl⟩ : ∃ k, m = k + 1 := ⟨m - 1, by omega⟩
    have hskip := length_skipped_le ts
    rcases hts : skipped ts with _ | ⟨t, us⟩
    · rw [statementsUntil, run_bind_of_ok (run_skipSemicolons _), hts] at hrun
      cases hrun
      exact absurd rfl hrest
    have hjoined : skipped (ts ++ tail) = t :: (us ++ tail) := by
      rw [skipped_append_of_ne_nil (by simp [hts]), hts, List.cons_append]
    rw [hts] at hskip
    by_cases ht : t.kind = .rbrace
    · rw [statementsUntil, run_bind_of_ok (run_skipSemicolons _), hts,
        run_bind_of_ok (run_current _)] at hrun
      simp only [List.head?_cons, ht, if_true] at hrun
      cases hrun
      refine ⟨hskip, ?_⟩
      rw [statementsUntil, run_bind_of_ok (run_skipSemicolons _), hjoined,
        run_bind_of_ok (run_current _)]
      simp only [List.head?_cons, ht, if_true]
      rfl
    · rw [run_statementsUntil_cons _ _ hts ht] at hrun
      obtain ⟨node, vs, hnode, hrun⟩ := run_bind_eq_ok.1 hrun
      obtain ⟨more, ws, hmore, ⟨⟩⟩ := run_bind_eq_ok.1 hrun
      rw [List.length_append] at hlen
      obtain ⟨hless, rest', hq, hrest'⟩ :=
        hstatement (t :: us) (by rw [List.length_append]; omega) hnode
      -- had the statement taken all tokens, there would be no token left at the end
      have hvs : vs ≠ [] := by
        rintro rfl
        cases n with
        | zero => cases hmore
        | succ n =>
          cases hmore
          exact hrest rfl
      obtain rfl : rest' = vs ++ tail := hrest'.resolve_right fun h => hvs h.1
      obtain ⟨hle, htail⟩ := ih (Nat.le_of_succ_le_succ hnm)
        (by rw [List.length_append]; omega) hmore
      refine ⟨by omega, ?_⟩
      rw [run_statementsUntil_cons _ _ hjoined ht, ← List.cons_append, run_bind_of_ok hq,
        run_bind_of_ok htail]
      rfl

/-- Statements between braces are read alike before the tail. -/
theorem agrees_braces (hstatement : Joins (N - 1) tail 1 statement statement') (hnm : n ≤ m) :
    Agrees N tail 1 (braces false n statement) (braces false m statement') := by
  refine fun ts => (agrees_eat .lbrace ts).bind fun _ us b rest hlen hrun => ?_
  obtain ⟨body, vs, hbody, hrun⟩ := run_bind_eq_ok.1 hrun
  obtain ⟨_, ws, heat, ⟨⟩⟩ := run_bind_eq_ok.1 hrun
  obtain ⟨c, hc, rfl, -⟩ := run_eat_eq_ok.1 heat
  obtain ⟨hle, hbody'⟩ := run_statementsUntil_append hstatement hnm hlen hbody (by simp)
  rw [List.length_cons] at hle
  refine ⟨by omega, ?_⟩
  rw [run_bind_of_ok hbody', List.cons_append,
    run_bind_of_ok (run_eat_eq_ok.2 ⟨c, hc, rfl, rfl⟩)]
  rfl

theorem agreesAt_declaration (htail : Apart tail) (hexpr : Agrees N tail 1 expr expr') (t : Token)
    (ts : List Token) (forceGlobal forceLocal : Bool) :
    AgreesAt N tail 1 (declaration false expr forceGlobal forceLocal)
      (declaration false expr' forceGlobal forceLocal) (t :: ts) := by
  refine .look (run_atWord "let" _) (run_atWord "let" _) (.advance ?_)
  refine Agrees.mono ?_ (Nat.sub_le N 1)
  refine (agrees_eatText .name).weaken.bind fun name => ?_
  refine (agrees_typeAfter htail (by decide)).bind fun type => ?_
  exact (agrees_eat .equal).weaken.bind fun _ => hexpr.weaken.bind fun _ => .pure _

theorem agreesAt_scopeStatement (htail : Apart tail) (hexpr : Agrees N tail 1 expr expr')
    (t : Token) (ts : List Token) (kind : String) :
    AgreesAt N tail 1 (scopeStatement false expr kind) (scopeStatement false expr' kind)
      (t :: ts) := by
  refine .advance (Agrees.mono ?_ (Nat.sub_le N 1))
  refine (agrees_eatText .name).weaken.bind fun name us => ?_
  refine .look (run_atWord "var" _) (by rw [run_atWord, htail.any_isWord]) ?_
  refine .look (run_atWord "let" _) (by rw [run_atWord, htail.any_isWord]) ?_
  split
  · next h =>
    rcases us with _ | ⟨u, us⟩
    · cases h
    · exact (agreesAt_declaration htail hexpr u us _ _).weaken
  · exact Agrees.pure _ us

theorem agrees_parameter (htail : Apart tail) (hexpr : Agrees N tail 1 expr expr') :
    Agrees N tail 0 (parameter false expr) (parameter false expr') := by
  refine (agrees_eatText .name).weaken.bind fun name => ?_
  refine (agrees_typeAfter htail (by decide)).bind fun type => ?_
  refine .ifKind htail (by decide) ?_ (.pure _)
  exact Agrees.mono (hexpr.weaken.bind fun _ => .pure _) (Nat.sub_le N 1)

theorem agreesAt_function (htail : Apart tail) (hnm : n ≤ m) (hexpr : Agrees N tail 1 expr expr')
    (hstatement : Joins (N - 1) tail 1 statement statement') (t : Token) (ts : List Token) :
    AgreesAt N tail 1 (function false n expr statement) (function false m expr' statement')
      (t :: ts) := by
  refine .advance (Agrees.mono ?_ (Nat.sub_le N 1))
  refine (agrees_eatText .name).weaken.bind fun name => (agrees_eat .lparen).weaken.bind fun _ => ?_
  refine agrees_itemsUntil htail (agrees_parameter htail hexpr) hnm .rparen fun params => ?_
  refine (agrees_typeAfter htail (by decide)).bind fun returns => ?_
  exact (agrees_braces hstatement hnm).weaken.bind fun _ => .pure _

theorem agreesAt_template (hnm : n ≤ m) (hstatement : Joins (N - 1) tail 1 statement statement')
    (t : Token) (ts : List Token) :
    AgreesAt N tail 1 (template false n statement) (template false m statement') (t :: ts) := by
  refine .advance (Agrees.mono ?_ (Nat.sub_le N 1))
  exact (agrees_eatText .name).weaken.bind fun name =>
    (agrees_braces hstatement hnm).weaken.bind fun _ => .pure _

theorem agreesAt_classDecl (htail : Apart tail) (hnm : n ≤ m)
    (hstatement : Joins (N - 1) tail 1 statement statement') (t : Token) (ts : List Token) :
    AgreesAt N tail 1 (classDecl false n statement) (classDecl false m statement') (t :: ts) := by
  have hbody (name : String) (base : Option String) : Agrees N tail 0
      (do let body ← braces false n statement; pure (Node.cls name base body))
      (do let body ← braces false m statement'; pure (Node.cls name base body)) :=
    (agrees_braces hstatement hnm).weaken.bind fun _ => .pure _
  refine .advance (Agrees.mono ?_ (Nat.sub_le N 1))
  refine (agrees_eatText .name).weaken.bind fun name => ?_
  refine .ifKind htail (by decide) ?_ (.bind (.pure none) (hbody name))
  refine Agrees.mono (.bind (fun us => ?_) (hbody name)) (Nat.sub_le N 1)
  exact ((agrees_eatText .name us).map some).weaken

theorem agrees_condition (htail : Apart tail) (hexpr : Agrees N tail 1 expr expr') :
    Agrees N tail 0 (condition false expr) (condition false expr') := by
  refine .ifKind htail (by decide) (Agrees.mono ?_ (Nat.sub_le N 1)) hexpr.weaken
  exact hexpr.weaken.bind fun _ => (agrees_eat .rparen).weaken.bind fun _ => .pure _

/-- A conditional without a further branch looks behind the semicolons after it. -/
theorem joins_conditional (htail : Apart tail) (hnm : n ≤ m) (hexpr : Agrees N tail 1 expr expr')
    (hstatement : Joins (N - 1) tail 1 statement statement') {k l : Nat} (hkl : k ≤ l) :
    Joins N tail 1 (conditional false n expr statement k)
      (conditional false m expr' statement' l) := by
  have hbraces := agrees_braces hstatement hnm
  induction k generalizing l with
  | zero => rintro ts _ _ - ⟨⟩
  | succ k ih =>
    obtain ⟨l, rfl⟩ : ∃ j, l = j + 1 := ⟨l - 1, by omega⟩
    have hrest := ih (Nat.le_of_succ_le_succ hkl)
    refine fun ts => (agrees_eat .name ts).bind_joins fun _ ts => ?_
    refine (agrees_condition htail hexpr ts).bind_joins fun test ts => ?_
    refine (hbraces.weaken ts).bind_joins fun thenBlock => .skip (fun t us => ?_) ?_
    · refine .look (run_atWord "else" _) (run_atWord "else" _) ?_
      split
      · refine (JoinsAt.advance fun us => ?_).weaken
        refine .look (run_atWord "if" _) (by rw [run_atWord, htail.any_isWord]) ?_
        split
        · exact ((hrest us).bind_pure _).weaken
        · exact ((hbraces us).joins.bind_pure _).weaken
      · refine .look (run_atWord "elif" _) (run_atWord "elif" _) ?_
        split
        · exact (JoinsAt.advance fun us => ((hrest us).bind_pure _).weaken).weaken
        · exact (Agrees.pure _ _).joins
    · rintro a rest ⟨⟩
      refine ⟨rfl, ?_⟩
      rw [run_bind_of_ok (run_atWord_of_stops "else" (htail.branch.mono fun _ => .inl))]
      exact run_bind_of_ok (run_atWord_of_stops "elif" (htail.branch.mono fun _ => .inr)) _

theorem agreesAt_forLoop (htail : Apart tail) (hnm : n ≤ m) (hexpr : Agrees N tail 1 expr expr')
    (hstatement : Joins (N - 1) tail 1 statement statement') (t : Token) (ts : List Token) :
    AgreesAt N tail 1 (forLoop false n expr statement) (forLoop false m expr' statement')
      (t :: ts) := by
  refine .advance (Agrees.mono ?_ (Nat.sub_le N 1))
  refine (agrees_eatText .name).weaken.bind fun binder us => ?_
  refine .look (run_atWord "in" _) (by rw [run_atWord, htail.any_isWord]) ?_
  have hrest : Agrees N tail 0 (do
      let _ ← eat false .name
      let iterable ← expr
      let body ← braces false n statement
      pure (Node.forStmt binder iterable (.block body))) (do
      let _ ← eat false .name
      let iterable ← expr'
      let body ← braces false m statement'
      pure (Node.forStmt binder iterable (.block body))) :=
    (agrees_eat .name).weaken.bind fun _ => hexpr.weaken.bind fun _ =>
      (agrees_braces hstatement hnm).weaken.bind fun _ => .pure _
  split
  · exact Agrees.throw _ _ us
  · exact hrest us

theorem agreesAt_whileLoop (htail : Apart tail) (hnm : n ≤ m) (hexpr : Agrees N tail 1 expr expr')
    (hstatement : Joins (N - 1) tail 1 statement statement') (t : Token) (ts : List Token) :
    AgreesAt N tail 1 (whileLoop false n expr statement) (whileLoop false m expr' statement')
      (t :: ts) := by
  refine .advance (Agrees.mono ?_ (Nat.sub_le N 1))
  exact (agrees_condition htail hexpr).bind fun test =>
    (agrees_braces hstatement hnm).weaken.bind fun _ => .pure _

theorem agreesAt_guarded (htail : Apart tail) (hnm : n ≤ m)
    (hstatement : Joins (N - 1) tail 1 statement statement') (t : Token) (ts : List Token) :
    AgreesAt N tail 1 (guarded false n statement) (guarded false m statement') (t :: ts) := by
  have hbraces := (agrees_braces hstatement hnm).weaken
  refine .advance (Agrees.mono ?_ (Nat.sub_le N 1))
  refine hbraces.bind fun tryBlock us => ?_
  refine .look (run_atWord "catch" _) (by rw [run_atWord, htail.any_isWord]) ?_
  split
  · next h =>
    rcases us with _ | ⟨u, us⟩
    · cases h
    · refine (AgreesAt.advance (Agrees.mono ?_ (Nat.sub_le N 1))).weaken
      exact (agrees_eatText .name).weaken.bind fun _ => hbraces.bind fun _ => .pure _
  · exact Agrees.throw _ _ us

/-- A statement that a word opens is read alike before the tail, by the word. -/
theorem joinsAt_wordStatement (htail : Apart tail) (hnm : n ≤ m)
    (hexpr : Agrees N tail 1 expr expr') (hstatement : Joins (N - 1) tail 1 statement statement')
    (word : String) (t : Token) (ts : List Token) :
    JoinsAt N tail 1 (wordStatement false n expr statement word)
      (wordStatement false m expr' statement' word) (t :: ts) := by
  unfold wordStatement
  split
  · exact ((agreesAt_scopeStatement htail hexpr t ts _).map some).joins
  · exact ((agreesAt_scopeStatement htail hexpr t ts _).map some).joins
  · exact ((agreesAt_template hnm hstatement t ts).map some).joins
  · exact ((agreesAt_classDecl htail hnm hstatement t ts).map some).joins
  · exact (agreesAt_guarded htail hnm hstatement t ts).joins
  · exact ((agreesAt_declaration htail hexpr t ts _ _).map some).joins
  · exact ((agreesAt_declaration htail hexpr t ts _ _).map some).joins
  · exact ((agreesAt_function htail hnm hexpr hstatement t ts).map some).joins
  · exact (joins_conditional htail hnm hexpr hstatement (Nat.succ_le_succ hnm) _).map some
  · exact ((agreesAt_forLoop htail hnm hexpr hstatement t ts).map some).joins
  · exact ((agreesAt_whileLoop htail hnm hexpr hstatement t ts).map some).joins
  · refine (AgreesAt.advance (Agrees.mono ?_ (Nat.sub_le N 1))).joins
    exact fun us => (hexpr.weaken us).map _
  · exact (AgreesAt.advance (Agrees.pure (some Node.breakStmt))).joins
  · exact (AgreesAt.advance (Agrees.pure (some Node.continueStmt))).joins
  · exact ((hexpr _).map _).joins

/-! ### Assignments -/

/-- A parser that gives up where there is no name. -/
theorem Agrees.nameHere (htail : Apart tail) {f g : String → Parse (Option α)}
    (hf : ∀ name, Agrees N tail 0 (f name) (g name)) :
    Agrees N tail 0 (do
        match ← Parse.current with
        | some t => if t.kind = .name then Parse.advance >>= fun _ => f t.text else Pure.pure none
        | none => Pure.pure none) (do
        match ← Parse.current with
        | some t => if t.kind = .name then Parse.advance >>= fun _ => g t.text else Pure.pure none
        | none => Pure.pure none) := by
  refine .current htail (fun t us => ?_) (fun o ho => ?_)
  · dsimp only
    split
    · exact (AgreesAt.advance ((hf _).mono (Nat.sub_le N 1))).weaken
    · exact Agrees.pure _ _
  · rcases o with _ | t
    · exact Agrees.pure _ _
    · dsimp only
      rw [if_neg (by simp [ho t rfl])]
      exact Agrees.pure _ _

theorem agrees_lvalueFrom (htail : Apart tail) (hexpr : Agrees N tail 1 expr expr') {k l : Nat}
    (hkl : k ≤ l) (node : Node) :
    Agrees N tail 0 (lvalueFrom false expr k node) (lvalueFrom false expr' l node) := by
  induction k generalizing l node with
  | zero => exact .throw _ _
  | succ k ih =>
    obtain ⟨l, rfl⟩ : ∃ j, l = j + 1 := ⟨l - 1, by omega⟩
    have hnext := fun node => ih (Nat.le_of_succ_le_succ hkl) node
    refine .current htail (fun t us => ?_) (fun o ho => ?_)
    · dsimp only [Option.map_some]
      split
      · have hmember := Agrees.nameHere htail fun name => hnext (.member node name)
        exact (AgreesAt.advance (hmember.mono (Nat.sub_le N 1))).weaken
      · refine (AgreesAt.advance (Agrees.mono ?_ (Nat.sub_le N 1))).weaken
        exact hexpr.weaken.bind fun _ => (agrees_eat .rbracket).weaken.bind fun _ => hnext _
      · exact Agrees.pure _ _
      · exact Agrees.pure _ _
    · rcases o with _ | t
      · exact Agrees.pure _ _
      · simp only [Option.map_some, ho t rfl]
        exact Agrees.pure _ _

theorem agrees_lvalue (htail : Apart tail) (hnm : n ≤ m) (hexpr : Agrees N tail 1 expr expr') :
    Agrees N tail 0 (lvalue false n expr) (lvalue false m expr') :=
  .nameHere htail fun name => agrees_lvalueFrom htail hexpr hnm (.name name)

/-- What is no assignment is left unread. -/
theorem run_assignment?_append (htail : Apart tail) (hnm : n ≤ m)
    (hexpr : Agrees N tail 1 expr expr') {rest : List Token} {node : Option Node}
    (hlen : (ts ++ tail).length < N)
    (hrun : (assignment? false n expr).run ts = .ok (node, rest)) :
    (assignment? false m expr').run (ts ++ tail) = .ok (node, rest ++ tail) ∧
      (node = none ∧ rest = ts ∨ (∃ a, node = some a) ∧ rest.length < ts.length) := by
  have hget (us : List Token) : (get : Parse _).run us = .ok (us, us) := rfl
  rw [assignment?, run_bind_of_ok (hget _)] at hrun ⊢
  obtain ⟨target, us, htarget, hrun⟩ := run_bind_eq_ok.1 hrun
  obtain ⟨hus, htarget'⟩ := agrees_lvalue htail hnm hexpr ts hlen htarget
  have hop : ((us ++ tail).head?.bind fun t => assignOperator? t.kind) =
      us.head?.bind fun t => assignOperator? t.kind := by
    rcases us with _ | ⟨u, us⟩
    · rcases tail with _ | ⟨t, tail⟩
      · rfl
      · simp [htail.kind_eq rfl, assignOperator?]
    · rfl
  rw [run_bind_of_ok (run_current _)] at hrun
  rw [run_bind_of_ok htarget', run_bind_of_ok (run_current _), hop]
  split at hrun
  · next target op hop =>
    rcases us with _ | ⟨u, us⟩
    · cases hop
    · have hlen' : (u :: us ++ tail).length < N := by
        rw [List.length_append] at hlen ⊢
        omega
      have hrhs : AgreesAt N tail 1
          (do advance; let rhs ← expr; pure (some (assignment target op rhs)))
          (do advance; let rhs ← expr'; pure (some (assignment target op rhs))) (u :: us) :=
        .advance (Agrees.mono (hexpr.weaken.bind fun _ => .pure _) (Nat.sub_le N 1))
      obtain ⟨hrest, hrun'⟩ := hrhs hlen' hrun
      obtain ⟨_, _, -, hrun⟩ := run_bind_eq_ok.1 hrun
      obtain ⟨rhs, _, -, ⟨⟩⟩ := run_bind_eq_ok.1 hrun
      exact ⟨hrun', .inr ⟨⟨_, rfl⟩, by omega⟩⟩
  · cases hrun
    exact ⟨rfl, .inl ⟨rfl, rfl⟩⟩

/-- A statement is read alike before the tail, if its parts are. -/
theorem joins_statementWith (htail : Apart tail) (hnm : n ≤ m) (hexpr : Agrees N tail 1 expr expr')
    (hstatement : Joins (N - 1) tail 1 statement statement') :
    Joins N tail 1 (statementWith false n expr statement)
      (statementWith false m expr' statement') := by
  intro ts node rest hlen hrun
  obtain ⟨found, us, hfound, hnext⟩ := run_bind_eq_ok.1 hrun
  obtain ⟨hfound', hus⟩ := run_assignment?_append htail hnm hexpr hlen hfound
  rw [statementWith, run_bind_of_ok hfound']
  obtain ⟨rfl, rfl⟩ | ⟨⟨found, rfl⟩, hus⟩ := hus
  · rcases us with _ | ⟨t, us⟩
    · obtain ⟨hempty, -⟩ := (hexpr []).map (some ∘ Node.exprStmt) hlen hnext
      cases hempty
    · refine JoinsAt.look (run_current _) (run_current _) ?_ hlen hnext
      rw [List.head?_cons]
      dsimp only
      split
      · exact joinsAt_wordStatement htail hnm hexpr hstatement _ t us
      · exact (AgreesAt.advance (Agrees.pure (some (Node.shell (shellCommand t.text))))).joins
      · exact ((hexpr _).map _).joins
  · cases hnext
    exact ⟨hus, _, rfl, .inl rfl⟩

end Statement

/-- The depths need not be the same, as long as the one with the tail is large enough. -/
theorem joins_statement (htail : Apart tail) {n m : Nat} (hnm : n ≤ m) (hm : N < m) :
    Joins N tail 1 (statement false n) (statement false m) := by
  induction n generalizing m N with
  | zero => rintro ts _ _ - ⟨⟩
  | succ n ih =>
    rcases N with _ | N
    · exact fun ts _ _ hlen => absurd hlen (Nat.not_lt_zero _)
    · obtain ⟨m, rfl⟩ : ∃ j, m = j + 1 := ⟨m - 1, by omega⟩
      exact joins_statementWith htail (Nat.le_of_succ_le_succ hnm)
        (agrees_expr htail n (Nat.le_of_lt_succ hm)) (ih (by omega) (by omega))

/-! ### Programs -/

theorem run_skip_programFrom (p : Parse (Option Node)) (n : Nat) (ts : List Token) :
    (programFrom p n).run (skipped ts) = (programFrom p n).run ts := by
  cases n with
  | zero => rfl
  | succ n =>
    rw [programFrom, run_bind_of_ok (run_skipSemicolons _),
      run_bind_of_ok (run_skipSemicolons _), skipped_skipped]

/-- Nothing but semicolons is an empty program. -/
theorem run_programFrom_nil (p : Parse (Option Node)) (n : Nat) {ts : List Token}
    (hts : skipped ts = []) : (programFrom p (n + 1)).run ts = .ok ([], []) := by
  rw [programFrom, run_bind_of_ok (run_skipSemicolons _), hts]
  rfl

/-- A program that starts with a statement is that statement and then the rest. -/
theorem run_programFrom_cons (p : Parse (Option Node)) (n : Nat) {ts us : List Token}
    {t : Token} (hts : skipped ts = t :: us) :
    (programFrom p (n + 1)).run ts = (do
      let node ← p
      let rest ← programFrom p n
      Pure.pure (node.toList ++ rest)).run (t :: us) := by
  rw [programFrom, run_bind_of_ok (run_skipSemicolons _), hts, run_bind_of_ok (run_current _)]
  refine run_bind_congr (fun node vs => ?_) _
  rw [run_bind_of_ok (run_skipSemicolons _), run_bind, run_bind, run_skip_programFrom]

/-- A program is read to the end of its tokens. -/
theorem eq_nil_of_run_programFrom {p : Parse (Option Node)} {n : Nat} {ts rest : List Token}
    {nodes : List Node} (hrun : (programFrom p n).run ts = .ok (nodes, rest)) : rest = [] := by
  induction n generalizing ts nodes with
  | zero => cases hrun
  | succ n ih =>
    rcases hts : skipped ts with _ | ⟨t, us⟩
    · rw [run_programFrom_nil _ _ hts] at hrun
      cases hrun
      rfl
    · rw [run_programFrom_cons _ _ hts] at hrun
      obtain ⟨node, vs, -, hrun⟩ := run_bind_eq_ok.1 hrun
      obtain ⟨more, ws, hmore, ⟨⟩⟩ := run_bind_eq_ok.1 hrun
      exact ih hmore

/-- A program and the one after it, which is read with every bound from `j` on. -/
theorem run_programFrom_append {p q : Parse (Option Node)} (hpq : Joins N tail 1 p q) {k j : Nat}
    {ts : List Token} {nodes more : List Node} (hlen : (ts ++ tail).length < N)
    (hrun : (programFrom p k).run ts = .ok (nodes, []))
    (hmore : ∀ i, j ≤ i → (programFrom q i).run tail = .ok (more, [])) {i : Nat}
    (hi : ts.length + j ≤ i) :
    (programFrom q i).run (ts ++ tail) = .ok (nodes ++ more, []) := by
  induction k generalizing ts nodes i with
  | zero => cases hrun
  | succ k ih =>
    have hskip := length_skipped_le ts
    rcases hts : skipped ts with _ | ⟨t, us⟩
    · rw [run_programFrom_nil _ _ hts] at hrun
      cases hrun
      rw [← run_skip_programFrom, skipped_append_of_eq_nil hts, run_skip_programFrom]
      exact hmore i (by omega)
    · rw [hts, List.length_cons] at hskip
      rw [List.length_append] at hlen
      rw [run_programFrom_cons _ _ hts] at hrun
      obtain ⟨node, vs, hnode, hrun⟩ := run_bind_eq_ok.1 hrun
      obtain ⟨others, ws, hothers, ⟨⟩⟩ := run_bind_eq_ok.1 hrun
      obtain ⟨hless, rest', hq, hrest'⟩ :=
        hpq (t :: us) (by rw [List.length_append, List.length_cons]; omega) hnode
      rw [List.length_cons] at hless
      obtain ⟨i, rfl⟩ : ∃ l, i = l + 1 := ⟨i - 1, by omega⟩
      -- whether the semicolons of the tail are skipped already makes no difference
      have hsame : (programFrom q i).run rest' = (programFrom q i).run (vs ++ tail) := by
        obtain rfl | ⟨rfl, rfl⟩ := hrest'
        · rfl
        · exact run_skip_programFrom q i tail
      have hjoined : skipped (ts ++ tail) = t :: (us ++ tail) := by
        rw [skipped_append_of_ne_nil (by simp [hts]), hts, List.cons_append]
      have hrest := ih (i := i) (by rw [List.length_append]; omega) hothers (by omega)
      rw [run_programFrom_cons _ _ hjoined, ← List.cons_append, run_bind_of_ok hq,
        run_bind_of_ok (hsame.trans hrest), List.append_assoc]
      rfl

end Parse

open Parse

/-- A program is read exactly if its statements are, up to the last token. -/
theorem parseTokens_eq_ok {ts : List Token} {nodes : List Node} :
    parseTokens false ts = .ok nodes ↔
      (programFrom (statement false (bound ts)) (bound ts)).run ts = .ok (nodes, []) := by
  constructor
  · intro h
    unfold parseTokens at h
    rcases hrun : (programFrom (statement false (bound ts)) (bound ts)).run ts with _ | ⟨_, rest⟩
    · rw [hrun] at h
      cases h
    · rw [hrun] at h
      cases h
      rw [eq_nil_of_run_programFrom hrun]
  · intro h
    unfold parseTokens
    rw [h]
    rfl

/-- Larger bounds make no difference. -/
theorem run_programFrom_of_parseTokens {ts : List Token} {nodes : List Node} {m i : Nat}
    (h : parseTokens false ts = .ok nodes) (hm : bound ts ≤ m) (hi : ts.length < i) :
    (programFrom (statement false m) i).run ts = .ok (nodes, []) := by
  have hjoins : Joins (ts.length + 1) [] 1 (statement false (bound ts)) (statement false m) :=
    joins_statement apart_nil hm (by unfold bound at hm; omega)
  have hnil (i : Nat) (hi : 1 ≤ i) : (programFrom (statement false m) i).run [] = .ok ([], []) := by
    obtain ⟨i, rfl⟩ : ∃ l, i = l + 1 := ⟨i - 1, by omega⟩
    exact run_programFrom_nil _ _ rfl
  simpa using run_programFrom_append hjoins (by simp) (parseTokens_eq_ok.1 h) hnil hi

/-- Two programs with a semicolon between them are one program, if the second one does not start
with a further branch. -/
theorem parseTokens_semi {a b : List Token} {s : Token} {sa sb : List Node}
    (ha : parseTokens false a = .ok sa) (hb : parseTokens false b = .ok sb) (hs : s.kind = .semi)
    (hbranch : Stops opensBranch (skipped b)) :
    parseTokens false (a ++ s :: b) = .ok (sa ++ sb) := by
  have hskip : skipped (s :: b) = skipped b := by simp [skipped, hs]
  have htail : Apart (s :: b) := ⟨stops_cons (not_not_intro hs) b, by rwa [hskip]⟩
  have hlen : bound (a ++ s :: b) = a.length + b.length + 4 := by
    simp [bound]
    omega
  have hmore (i : Nat) (hi : b.length + 1 ≤ i) :
      (programFrom (statement false (bound (a ++ s :: b))) i).run (s :: b) = .ok (sb, []) := by
    rw [← run_skip_programFrom, hskip, run_skip_programFrom]
    exact run_programFrom_of_parseTokens hb (by rw [hlen, bound]; omega) hi
  have hjoins : Joins (a.length + b.length + 2) (s :: b) 1 (statement false (bound a))
      (statement false (bound (a ++ s :: b))) :=
    joins_statement htail (by rw [hlen, bound]; omega) (by omega)
  exact parseTokens_eq_ok.2 (run_programFrom_append hjoins (by simp; omega)
    (parseTokens_eq_ok.1 ha) hmore (by rw [hlen]; omega))

/-- Statements run one after the other; the result is that of the later ones, if there are any. -/
theorem Engine.interpretAll_append (g : Engine) (xs : List Node) {ys : List Node} (hys : ys ≠ []) :
    g.interpretAll (xs ++ ys) = (do
      let _ ← g.interpretAll xs
      g.interpretAll ys) := by
  obtain ⟨y, ys, rfl⟩ := List.exists_cons_of_ne_nil hys
  induction xs with
  | nil => exact (pure_bind (m := Exec) Value.none fun _ => g.interpretAll (y :: ys)).symm
  | cons x xs ih =>
    cases xs with
    | nil => exact (bind_assoc (m := Exec) get _ _).symm
    | cons x' xs =>
      calc g.interpretAll (x :: x' :: xs ++ y :: ys)
        _ = (do
            let m ← get
            let _ ← g.execute x m.root
            g.interpretAll (x' :: xs ++ y :: ys)) := rfl
        _ = (do
            let _ ← g.interpretAll (x :: x' :: xs)
            g.interpretAll (y :: ys)) := by
          rw [ih]
          exact ((bind_assoc (m := Exec) get _ _).trans (bind_congr fun m => bind_assoc ..)).symm

/-- A program, a semicolon and another program that opens no further branch of a conditional. -/
theorem programs_compose {a b : List Token} {s : Token} {sa sb : List Node}
    (ha : parseTokens false a = .ok sa) (hb : parseTokens false b = .ok sb) (hs : s.kind = .semi)
    (hbranch : Stops opensBranch (skipped b)) :
    parseTokens false (a ++ s :: b) = .ok (sa ++ sb) ∧
      ∀ (g : Engine) (m m₁ : Machine) (v : Value),
        (g.interpret (.block sa)).run m = (.ok v, m₁) →
          ((g.interpret (.block (sa ++ sb))).run m).2 = ((g.interpret (.block sb)).run m₁).2 ∧
          ((g.interpret (.block (sa ++ sb))).run m).1 =
            if sb = [] then .ok v else ((g.interpret (.block sb)).run m₁).1 := by
  refine ⟨parseTokens_semi ha hb hs hbranch, fun g m m₁ v hrun => ?_⟩
  change (g.interpretAll sa).run m = (.ok v, m₁) at hrun
  change ((g.interpretAll (sa ++ sb)).run m).2 = ((g.interpretAll sb).run m₁).2 ∧
    ((g.interpretAll (sa ++ sb)).run m).1 =
      if sb = [] then .ok v else ((g.interpretAll sb).run m₁).1
  by_cases hsb : sb = []
  · subst hsb
    rw [List.append_nil, hrun]
    exact ⟨rfl, rfl⟩
  · have hsplit : (g.interpretAll (sa ++ sb)).run m = (g.interpretAll sb).run m₁ := by
      rw [g.interpretAll_append sa hsb, Exec.run_bind, hrun]
    rw [hsplit, if_neg hsb]
    exact ⟨rfl, rfl⟩

/-- A conditional that assigns to a variable, two semicolons and an assignment of its value. -/
theorem programs_compose_conditional :
    let a : List Token := [⟨.name, "if", 1⟩, ⟨.name, "x", 1⟩, ⟨.lbrace, "\x7b", 1⟩, ⟨.name, "y", 1⟩,
      ⟨.equal, "=", 1⟩, ⟨.name, "x", 1⟩, ⟨.rbrace, "\x7d", 1⟩]
    let s : Token := ⟨.semi, ";", 1⟩
    let b : List Token := [s, ⟨.name, "x", 1⟩, ⟨.equal, "=", 1⟩, ⟨.name, "y", 1⟩]
    let sa := [Node.ifStmt (.name "x") (.block [.assign (some "y") (.name "x") .absent {}]) .absent]
    let sb := [Node.assign (some "x") (.name "y") .absent {}]
    let m : Machine := { scopes := #[{ vars := [("x", .int 1), ("y", .none)] }] }
    let m₁ := (((Engine.ofDepth 9).interpret (.block sa)).run m).2
    parseTokens false (a ++ s :: b) = .ok (sa ++ sb) ∧
      (((Engine.ofDepth 9).interpret (.block (sa ++ sb))).run m).2 =
        (((Engine.ofDepth 9).interpret (.block sb)).run m₁).2 := by
  intro a s b sa sb m m₁
  have ha : parseTokens false a = .ok sa := rfl
  have hb : parseTokens false b = .ok sb := rfl
  have hbranch : Stops opensBranch (skipped b) := stops_cons (by simp [opensBranch, isWord]) _
  obtain ⟨hparse, hrun⟩ := programs_compose (s := s) ha hb rfl hbranch
  exact ⟨hparse, (hrun (.ofDepth 9) m m₁ .none rfl).1⟩

end ScriptLang
