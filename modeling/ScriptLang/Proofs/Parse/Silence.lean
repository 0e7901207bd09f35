import ScriptLang.Proofs.Parse.Progress
import ScriptLang.Proofs.Token.Blank

/-!
# Silencing notices

An expression that the parser accepts is accepted when notices are silenced too, and it is the same
one: silencing a notice changes only what happens after it, and after a notice that is shown nothing
happens. On the way no token is taken that can stand in no expression, whether notices are silenced
or not. Hence blanks around an expression do not matter either.

The comparison is between a parser and the same parser with its notices silenced.
-/

namespace ScriptLang

namespace Parse

variable {α β σ : Type} {n : Nat} {quiet : Bool} {ts us : List Token}

/-! ### Parsers that carry over -/

/-- What `p` gives for some tokens, `q` gives too, and none of the tokens that it takes for it is
foreign. -/
def CarriesAt (p q : Parse α) (ts : List Token) : Prop :=
  ∀ ⦃a rest⦄, p.run ts = .ok (a, rest) → q.run ts = .ok (a, rest) ∧
    ∃ taken, ts = taken ++ rest ∧ ∀ t ∈ taken, t.kind.isForeign = false

def Carries (p q : Parse α) : Prop := ∀ ts, CarriesAt p q ts

section Rules

variable {p q : Parse α} {f g : α → Parse β}

theorem CarriesAt.pure (a : α) : CarriesAt (pure a) (pure a) ts := by
  rintro _ _ ⟨⟩
  exact ⟨rfl, [], rfl, nofun⟩

theorem CarriesAt.throw (e : ParseStop) : CarriesAt (throw e) q ts := by
  intro _ _ h
  cases h

theorem Carries.pure (a : α) : Carries (pure a) (pure a) := fun _ => .pure a

theorem Carries.throw (e : ParseStop) : Carries (throw e) q := fun _ => .throw e

theorem CarriesAt.bind (hp : CarriesAt p q ts) (hf : ∀ a, Carries (f a) (g a)) :
    CarriesAt (p >>= f) (q >>= g) ts := by
  intro b rest hrun
  obtain ⟨a, us, ha, hb⟩ := run_bind_eq_ok.1 hrun
  obtain ⟨ha', first, rfl, hfirst⟩ := hp ha
  obtain ⟨hb', second, rfl, hsecond⟩ := hf a us hb
  refine ⟨run_bind_eq_ok.2 ⟨a, _, ha', hb'⟩, first ++ second, (List.append_assoc ..).symm, ?_⟩
  intro t ht
  exact (List.mem_append.1 ht).elim (hfirst t) (hsecond t)

theorem Carries.bind (hp : Carries p q) (hf : ∀ a, Carries (f a) (g a)) :
    Carries (p >>= f) (q >>= g) :=
  fun ts => (hp ts).bind hf

theorem Carries.map {f : α → β} (h : Carries p q) : Carries (f <$> p) (f <$> q) := by
  rw [map_eq_pure_bind, map_eq_pure_bind]
  exact h.bind fun a => .pure (f a)

/-- Looking at the tokens takes none. -/
theorem CarriesAt.look {a : α} (hp : p.run ts = .ok (a, ts)) (h : CarriesAt (f a) (g a) ts) :
    CarriesAt (p >>= f) (p >>= g) ts := by
  intro b rest hrun
  rw [run_bind_of_ok hp] at hrun ⊢
  exact h hrun

end Rules

/-! ### Tokens -/

theorem CarriesAt.advance {f g : Unit → Parse α} {t : Token} (ht : t.kind.isForeign = false)
    (h : Carries (f ()) (g ())) :
    CarriesAt (Parse.advance >>= f) (Parse.advance >>= g) (t :: ts) := by
  intro a rest hrun
  rw [run_bind_of_ok (run_advance (t :: ts))] at hrun ⊢
  obtain ⟨hrun', taken, hts, htaken⟩ := h _ hrun
  refine ⟨hrun', t :: taken, congrArg (t :: ·) hts, ?_⟩
  intro u hu
  obtain rfl | hu := List.mem_cons.1 hu
  · exact ht
  · exact htaken u hu

/-- A notice ends the parser, unless it is silenced. -/
theorem carries_report (n : Notice) : Carries (report quiet n) (report true n) := by
  cases quiet with
  | true => exact .pure ()
  | false => exact .throw _

theorem carries_eat {kind : TokenKind} (hkind : kind.isForeign = false) :
    Carries (eat quiet kind) (eat true kind) := by
  intro ts
  by_cases hstops : Stops (fun t => t.kind = kind) ts
  · obtain ⟨n, hrun⟩ := run_eat_of_stops quiet hstops
    intro a rest ha
    rw [hrun] at ha
    have hend : a = none ∧ rest = ts := by
      cases quiet with
      | true => cases ha; exact ⟨rfl, rfl⟩
      | false => cases ha
    obtain ⟨rfl, rfl⟩ := hend
    obtain ⟨n', hrun'⟩ := run_eat_of_stops true hstops
    exact ⟨hrun', [], rfl, nofun⟩
  · obtain ⟨t, ht, rfl⟩ : ∃ t ∈ ts.head?, t.kind = kind := by simpa [Stops] using hstops
    obtain ⟨us, rfl⟩ := List.head?_eq_some_iff.1 ht
    intro a rest ha
    rw [run_eat_of_eq quiet rfl] at ha
    cases ha
    exact ⟨run_eat_of_eq true rfl us, [t], rfl, by simpa using hkind⟩

theorem carries_eatText {kind : TokenKind} (hkind : kind.isForeign = false) :
    Carries (eatText quiet kind) (eatText true kind) := by
  refine (carries_eat hkind).bind fun t => ?_
  cases t with
  | some t => exact .pure _
  | none => exact .throw _

theorem carries_decode (s : String) : Carries (decode s) (decode s) := by
  unfold decode
  split
  · exact .pure _
  · exact .throw _

/-- A parser that asks for the current token. -/
theorem Carries.current {f g : Option Token → Parse α}
    (hcons : ∀ t us, CarriesAt (f (some t)) (g (some t)) (t :: us))
    (hnil : CarriesAt (f none) (g none) []) :
    Carries (Parse.current >>= f) (Parse.current >>= g) := by
  intro ts
  refine .look (run_current ts) ?_
  rcases ts with _ | ⟨t, ts⟩
  · exact hnil
  · exact hcons t ts

/-- A parser that asks for a kind of token. -/
theorem Carries.ifKind {kind : TokenKind} (hkind : kind.isForeign = false)
    {f g : Unit → Parse α} {p q : Parse α} (hf : Carries (f ()) (g ())) (hp : Carries p q) :
    Carries (do if ← atKind kind then Parse.advance >>= f else p)
      (do if ← atKind kind then Parse.advance >>= g else q) := by
  intro ts
  refine .look (run_atKind kind ts) ?_
  split
  · next h =>
    rcases ts with _ | ⟨t, ts⟩
    · cases h
    · have ht : t.kind = kind := by simpa using h
      exact .advance (ht ▸ hkind) hf
  · exact hp ts

/-! ### Loops -/

/-- By induction on the rounds: what is carried in each round is carried in the loop. -/
theorem carries_rounds {round round' : Nat → σ → Parse (σ ⊕ β)}
    (h : ∀ n s, Carries (round n s) (round' n s)) (n : Nat) (s : σ) :
    Carries (rounds round n s) (rounds round' n s) := by
  induction n generalizing s with
  | zero => exact .throw _
  | succ n ih =>
    rw [rounds_succ, rounds_succ]
    refine (h n s).bind fun r => ?_
    cases r with
    | inl s => exact ih s
    | inr b => exact .pure b

section Expressions

variable {expr expr' : Parse Node}

theorem carries_chain {operator? : Token → Option BinaryOp} {operand operand' : Parse Node}
    (hop : ∀ t op, operator? t = some op → t.kind.isForeign = false)
    (h : Carries operand operand') :
    Carries (chain n operator? operand) (chain n operator? operand') := by
  have hround (k : Nat) (left : Node) :
      Carries (chainRound operator? operand k left) (chainRound operator? operand' k left) := by
    intro ts
    refine .look (a := ts) rfl ?_
    rcases hts : ts.head?.bind operator? with _ | op
    · exact .pure _
    · rcases ts with _ | ⟨t, ts⟩
      · cases hts
      · exact .advance (hop t op hts) (h.bind fun _ => .pure _)
  refine h.bind fun left => ?_
  rw [chainFrom_eq_rounds, chainFrom_eq_rounds]
  exact carries_rounds hround n left

theorem carries_unaryLevel {operator? : Token → Option UnaryOp} {operand operand' : Parse Node}
    (hop : ∀ t op, operator? t = some op → t.kind.isForeign = false)
    (h : Carries operand operand') :
    Carries (unaryLevel operator? operand) (unaryLevel operator? operand') := by
  have hleading (ts : List Token) : ∃ taken, ts = taken ++ (leadingOperators operator? ts).2 ∧
      ∀ t ∈ taken, t.kind.isForeign = false := by
    induction ts with
    | nil => exact ⟨[], rfl, nofun⟩
    | cons t ts ih =>
      rw [leadingOperators]
      split
      · next op ht =>
        obtain ⟨taken, hts, htaken⟩ := ih
        exact ⟨t :: taken, congrArg (t :: ·) hts, List.forall_mem_cons.2 ⟨hop t op ht, htaken⟩⟩
      · exact ⟨[], rfl, nofun⟩
  intro ts a rest hrun
  rw [run_unaryLevel] at hrun ⊢
  obtain ⟨first, hts, hfirst⟩ := hleading ts
  obtain ⟨hrun', second, hus, hsecond⟩ := h.map _ hrun
  refine ⟨hrun', first ++ second, by rw [List.append_assoc, ← hus, ← hts], ?_⟩
  intro t ht
  exact (List.mem_append.1 ht).elim (hfirst t) (hsecond t)

theorem carries_itemsUntil {item item' : Parse α} (h : Carries item item') (closing : TokenKind) :
    Carries (itemsUntil n closing item) (itemsUntil n closing item') := by
  have hcomma : Carries (commaSeparated item n) (commaSeparated item' n) := by
    have hitem := commaSeparated_eq_rounds item n []
    have hitem' := commaSeparated_eq_rounds item' n []
    simp only [List.nil_append, id_map'] at hitem hitem'
    rw [hitem, hitem']
    exact carries_rounds (fun _ items => h.bind fun _ => .ifKind rfl (.pure _) (.pure _)) n []
  refine .current (fun t us => ?_) (.pure _)
  dsimp only
  split
  · exact .pure _
  · exact hcomma _

theorem carries_listLiteral (h : Carries expr expr') :
    Carries (listLiteral quiet n expr) (listLiteral true n expr') :=
  (carries_eat rfl).bind fun _ => (carries_itemsUntil h .rbracket).bind fun _ =>
    (carries_eat rfl).bind fun _ => .pure _

/-- A key that is read is read alike if notices are silenced. -/
theorem carries_dictKey (previous : Option String) :
    Carries (dictKey quiet previous) (dictKey true previous) := by
  refine .current (fun t us => ?_) ((carries_report _ []).bind fun _ => .throw _)
  dsimp only
  split
  · next ht => exact .advance (by rw [ht]; rfl) (.map (carries_decode _))
  · next ht => exact .advance (by rw [ht]; rfl) (.map (carries_decode _))
  · next ht => exact .advance (by rw [ht]; rfl) (.pure _)
  · exact (carries_report _ _).bind fun _ => .pure _

theorem carries_entryRound (h : Carries expr expr') (s : Option String × List (String × Node)) :
    Carries (entryRound quiet expr n s) (entryRound true expr' n s) := by
  refine (carries_dictKey s.1).bind fun key => ?_
  refine (carries_eat rfl).bind fun _ => h.bind fun value => ?_
  cases key with
  | none => exact .throw _
  | some k => exact .ifKind rfl (.pure _) (.pure _)

theorem carries_dictLiteral (h : Carries expr expr') :
    Carries (dictLiteral quiet n expr) (dictLiteral true n expr') := by
  have hentries : Carries (dictEntries quiet expr n none) (dictEntries true expr' n none) := by
    have heq := dictEntries_eq_rounds quiet expr n (none, [])
    have heq' := dictEntries_eq_rounds true expr' n (none, [])
    simp only [List.nil_append, id_map'] at heq heq'
    rw [heq, heq']
    exact carries_rounds (fun _ s => carries_entryRound h s) n _
  have hclose (pairs : List (String × Node)) :
      Carries (do let _ ← eat quiet .rbrace; pure (Node.dict pairs))
        (do let _ ← eat true .rbrace; pure (Node.dict pairs)) :=
    (carries_eat rfl).bind fun _ => .pure _
  have hnone : Carries (pure [] : Parse (List (String × Node))) (pure []) := .pure _
  refine (carries_eat rfl).bind fun _ => .current (fun t us => ?_) (hnone.bind hclose [])
  dsimp only
  split
  · exact hnone.bind hclose _
  · exact hentries.bind hclose _

theorem carries_argument (h : Carries expr expr') :
    Carries (argument quiet expr) (argument true expr') := by
  intro ts
  refine .look (a := ts) rfl ?_
  split
  · split
    · exact (carries_eatText rfl).bind (fun _ => (carries_eat rfl).bind fun _ =>
        h.bind fun _ => .pure _) _
    · exact h _
  · exact h ts

theorem carries_postfixRound (h : Carries expr expr') (node : Node) :
    Carries (postfixRound quiet expr n node) (postfixRound true expr' n node) := by
  refine .current (fun t us => ?_) (.pure _)
  rw [Option.map_some]
  rcases hkind : t.kind with _ | _
  all_goals try exact .pure _
  · exact .advance (by rw [hkind]; rfl) ((carries_eatText rfl).bind fun _ => .pure _)
  · exact .advance (by rw [hkind]; rfl) ((carries_itemsUntil (carries_argument h) .rparen).bind
      fun _ => (carries_eat rfl).bind fun _ => .pure _)
  · exact .advance (by rw [hkind]; rfl) (h.bind fun _ => (carries_eat rfl).bind fun _ => .pure _)

/-- Without an expression there is no result, even if that is silenced. -/
theorem carries_noPrimary (t : Token) (us : List Token) :
    CarriesAt (noPrimary quiet t) (noPrimary true t) (t :: us) := by
  intro a rest hrun
  obtain ⟨_, _, -, hrun⟩ := run_bind_eq_ok.1 hrun
  split at hrun
  · obtain ⟨_, _, -, hrun⟩ := run_bind_eq_ok.1 hrun
    obtain ⟨_, _, -, hrun⟩ := run_bind_eq_ok.1 hrun
    cases hrun
  · cases hrun

theorem carries_primary (h : Carries expr expr') :
    Carries (primary quiet n expr) (primary true n expr') := by
  refine .current (fun t us => ?_) ((carries_report _ []).bind fun _ => .throw _)
  dsimp only
  split
  · next ht =>
    refine .advance (by rw [ht]; rfl) ?_
    split
    · exact .pure _
    · exact .throw _
  · next ht => exact .advance (by rw [ht]; rfl) (.map (carries_decode _))
  · next ht => exact .advance (by rw [ht]; rfl) (.map (carries_decode _))
  · exact carries_listLiteral h _
  · exact carries_dictLiteral h _
  · next ht => exact .advance (by rw [ht]; rfl) (.pure _)
  · next ht =>
    exact .advance (by rw [ht]; rfl) (h.bind fun _ => (carries_eat rfl).bind fun _ => .pure _)
  · exact carries_noPrimary t us

theorem carries_atom (h : Carries expr expr') :
    Carries (atom quiet n expr) (atom true n expr') := by
  refine (carries_primary h).bind fun node => ?_
  rw [postfixes_eq_rounds, postfixes_eq_rounds]
  exact carries_rounds (fun _ node => carries_postfixRound h node) n node

/-- An expression is read alike if notices are silenced, if its parts are. -/
theorem carries_exprWith (h : Carries expr expr') :
    Carries (exprWith quiet n expr) (exprWith true n expr') := by
  have hfactor : Carries (factor quiet n expr) (factor true n expr') :=
    carries_chain (by grind [productOperator?, TokenKind.isForeign])
      (carries_unaryLevel (by grind [signOperator?, TokenKind.isForeign]) (carries_atom h))
  have hcomparison : Carries (comparison quiet n expr) (comparison true n expr') :=
    carries_chain (by grind [comparison?, TokenKind.isForeign])
      (carries_chain (by grind [sumOperator?, TokenKind.isForeign]) hfactor)
  have hdisjunction : Carries (disjunction quiet n expr) (disjunction true n expr') :=
    carries_chain (by grind [orOperator?, TokenKind.isForeign])
      (carries_chain (by grind [andOperator?, TokenKind.isForeign])
        (carries_unaryLevel (by grind [notOperator?, TokenKind.isForeign]) hcomparison))
  exact hdisjunction.bind fun _ => .ifKind rfl (h.bind fun _ => (carries_eat rfl).bind fun _ =>
    h.bind fun _ => .pure _) (.pure _)

end Expressions

/-- By induction on the bound: an expression that is read is read alike if notices are silenced. -/
theorem carries_expr (n : Nat) : Carries (expr quiet n) (expr true n) := by
  induction n with
  | zero => exact .throw _
  | succ n ih => exact carries_exprWith ih

end Parse

/-! ### Embedded expressions -/

/-- An embedded expression is read exactly if all of its tokens spell one. -/
theorem parseEmbedded_eq_ok_iff {s : String} {quiet : Bool} {node : Node} :
    parseEmbedded quiet s = .ok node ↔
      (Parse.expr quiet (Parse.bound (tokenize s))).run (tokenize s) = .ok (node, []) := by
  unfold parseEmbedded
  generalize tokenize s = ts
  dsimp only
  rcases (Parse.expr quiet (Parse.bound ts)).run ts with e | ⟨node', _ | ⟨t, rest⟩⟩ <;> simp

/-- An expression that is accepted spells the same when notices are silenced, and no token of it is
foreign. -/
theorem parseEmbedded_silenced {s : String} {quiet : Bool} {node : Node}
    (h : parseEmbedded quiet s = .ok node) :
    parseEmbedded true s = .ok node ∧ ∀ t ∈ tokenize s, t.kind.isForeign = false := by
  obtain ⟨hrun, taken, hts, htaken⟩ := Parse.carries_expr _ _ (parseEmbedded_eq_ok_iff.1 h)
  refine ⟨parseEmbedded_eq_ok_iff.2 hrun, ?_⟩
  rw [hts, List.append_nil]
  exact htaken

/-- Blanks around an expression do not matter. -/
theorem parseEmbedded_strip {s : String} {quiet : Bool} {node : Node} (hline : '\n' ∉ s.toList)
    (h : parseEmbedded quiet s = .ok node) : parseEmbedded quiet (Text.strip s) = .ok node := by
  rw [parseEmbedded_eq_ok_iff, tokenize_strip hline (parseEmbedded_silenced h).2]
  exact parseEmbedded_eq_ok_iff.1 h

/-- All levels read the same expression. -/
theorem parseEmbedded_unique {s : String} {quiet quiet' : Bool} {node node' : Node}
    (h : parseEmbedded quiet s = .ok node) (h' : parseEmbedded quiet' s = .ok node') :
    node = node' :=
  Except.ok.inj ((parseEmbedded_silenced h).1.symm.trans (parseEmbedded_silenced h').1)

end ScriptLang
