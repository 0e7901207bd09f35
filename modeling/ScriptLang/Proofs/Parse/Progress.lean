import ScriptLang.Proofs.Parse.Printed
import ScriptLang.Proofs.Parse.Rounds

/-!
# Parsing goes forward and ends

Whether notices are shown or silenced, a parser that gives a result leaves an end of its tokens, and
most parsers have taken at least one. So every round of a loop that goes on has taken a token, also
where a token that was expected is missing and the parser goes on without it; and a bound on loops
and nesting that is above the number of tokens is never reached, and makes no difference.

The comparison is between a parser and one with a larger bound.
-/

namespace ScriptLang

namespace Parse

variable {α β σ : Type} {N M n m : Nat} {quiet : Bool} {ts us : List Token}

/-! ### Steady parsers -/

/-- A result leaves an end of the tokens, shorter by what it costs. On fewer than `N` tokens the
bound is not reached, and `q` does the same. -/
structure SteadyAt (N : Nat) (cost : α → Nat) (p q : Parse α) (ts : List Token) : Prop where
  takes : ∀ {a rest}, p.run ts = .ok (a, rest) → rest <:+ ts ∧ rest.length + cost a ≤ ts.length
  ends : ts.length < N → p.run ts ≠ .error .exhausted ∧ q.run ts = p.run ts

def Steady (N : Nat) (cost : α → Nat) (p q : Parse α) : Prop := ∀ ts, SteadyAt N cost p q ts

section Rules

variable {c d : α → Nat} {p q : Parse α}

theorem SteadyAt.mono (h : SteadyAt N c p q ts) (hM : M ≤ N) (hd : ∀ a, d a ≤ c a) :
    SteadyAt M d p q ts where
  takes {a rest} hrun := by
    obtain ⟨hsuffix, hlen⟩ := h.takes hrun
    exact ⟨hsuffix, Nat.le_trans (Nat.add_le_add_left (hd a) _) hlen⟩
  ends hlt := h.ends (Nat.lt_of_lt_of_le hlt hM)

theorem Steady.mono (h : Steady N c p q) (hM : M ≤ N) (hd : ∀ a, d a ≤ c a) : Steady M d p q :=
  fun ts => (h ts).mono hM hd

theorem Steady.bound (h : Steady N c p q) (hM : M ≤ N) : Steady M c p q :=
  h.mono hM fun _ => Nat.le_refl _

theorem Steady.free (h : Steady N c p q) : Steady N (fun _ => 0) p q :=
  h.mono (Nat.le_refl N) fun _ => Nat.zero_le _

theorem SteadyAt.pure {a : α} (h : c a = 0) : SteadyAt N c (pure a) (pure a) ts := by
  refine ⟨?_, fun _ => ⟨nofun, rfl⟩⟩
  rintro _ _ ⟨⟩
  exact ⟨List.suffix_refl ts, by simp [h]⟩

theorem SteadyAt.throw {e : ParseStop} (h : e ≠ .exhausted) :
    SteadyAt N c (throw e) (throw e) ts := by
  refine ⟨nofun, fun _ => ⟨?_, rfl⟩⟩
  rintro ⟨⟩
  exact h rfl

theorem Steady.pure {a : α} (h : c a = 0) : Steady N c (pure a) (pure a) := fun _ => .pure h

theorem Steady.throw {e : ParseStop} (h : e ≠ .exhausted) : Steady N c (throw e) (throw e) :=
  fun _ => .throw h

/-- Where no number of tokens is small enough, the bound may be reached. -/
theorem steady_exhausted : Steady 0 c (throw .exhausted) q := fun _ => ⟨nofun, nofun⟩

/-- A parser that first drops tokens. -/
theorem SteadyAt.drop {p' q' : Parse α} (h : SteadyAt N c p q us) (hus : us <:+ ts)
    (hp : p'.run ts = p.run us) (hq : q'.run ts = q.run us) : SteadyAt N c p' q' ts where
  takes {a rest} hrun := by
    obtain ⟨hsuffix, hlen⟩ := h.takes (hp ▸ hrun)
    exact ⟨hsuffix.trans hus, Nat.le_trans hlen hus.length_le⟩
  ends hlt := by
    rw [hp, hq]
    exact h.ends (Nat.lt_of_le_of_lt hus.length_le hlt)

variable {f g : α → Parse β} {e : β → Nat}

/-- What the first parser took need not be paid by the second. -/
theorem SteadyAt.bind_run (hp : SteadyAt N c p q ts) (hf : ∀ a us, p.run ts = .ok (a, us) →
    SteadyAt (N - c a) (fun b => e b - c a) (f a) (g a) us) :
    SteadyAt N e (p >>= f) (q >>= g) ts where
  takes {b rest} hrun := by
    obtain ⟨a, us, ha, hb⟩ := run_bind_eq_ok.1 hrun
    obtain ⟨hus, hlen⟩ := hp.takes ha
    obtain ⟨hrest, hlen'⟩ := (hf a us ha).takes hb
    exact ⟨hrest.trans hus, by omega⟩
  ends hlt := by
    obtain ⟨hne, heq⟩ := hp.ends hlt
    rw [run_bind, run_bind, heq]
    rcases ha : p.run ts with s | ⟨a, us⟩
    · refine ⟨?_, rfl⟩
      rintro ⟨⟩
      exact hne ha
    · have hlen := (hp.takes ha).2
      exact (hf a us ha).ends (by omega)

/-- The second part starts on fewer tokens, by what the first one costs. -/
theorem SteadyAt.bind (hp : SteadyAt N c p q ts)
    (hf : ∀ a, Steady (N - c a) (fun b => e b - c a) (f a) (g a)) :
    SteadyAt N e (p >>= f) (q >>= g) ts :=
  hp.bind_run fun a us _ => hf a us

theorem Steady.bind (hp : Steady N c p q)
    (hf : ∀ a, Steady (N - c a) (fun b => e b - c a) (f a) (g a)) :
    Steady N e (p >>= f) (q >>= g) :=
  fun ts => (hp ts).bind hf

theorem SteadyAt.map {f : α → β} (h : SteadyAt N (fun a => e (f a)) p q ts) :
    SteadyAt N e (f <$> p) (f <$> q) ts := by
  rw [map_eq_pure_bind, map_eq_pure_bind]
  exact h.bind fun a => .pure (Nat.sub_self _)

theorem Steady.map {f : α → β} (h : Steady N (fun a => e (f a)) p q) :
    Steady N e (f <$> p) (f <$> q) :=
  fun ts => (h ts).map

/-- Looking at the tokens takes none. -/
theorem SteadyAt.look {a : α} (hp : p.run ts = .ok (a, ts)) (h : SteadyAt N e (f a) (g a) ts) :
    SteadyAt N e (p >>= f) (p >>= g) ts :=
  h.drop (List.suffix_refl ts) (run_bind_of_ok hp f) (run_bind_of_ok hp g)

end Rules

/-! ### Tokens -/

theorem steadyAt_advance (t : Token) (ts : List Token) :
    SteadyAt N (fun _ => 1) advance advance (t :: ts) := by
  refine ⟨?_, fun _ => ⟨nofun, rfl⟩⟩
  rintro _ _ ⟨⟩
  exact ⟨List.suffix_cons t ts, Nat.le_refl _⟩

theorem steady_advance : Steady N (fun _ => 0) advance advance := by
  intro ts
  rcases ts with _ | ⟨t, ts⟩
  · exact SteadyAt.drop (p := pure ()) (.pure rfl) (List.suffix_refl []) rfl rfl
  · exact (steadyAt_advance t ts).mono (Nat.le_refl N) fun _ => Nat.zero_le 1

theorem steady_skipSemicolons : Steady N (fun _ => 0) skipSemicolons skipSemicolons := by
  refine fun ts => ⟨?_, fun _ => ⟨nofun, rfl⟩⟩
  rintro _ _ ⟨⟩
  exact ⟨List.dropWhile_suffix _, (List.dropWhile_suffix _).length_le⟩

theorem steady_report (n : Notice) : Steady N (fun _ => 0) (report quiet n) (report quiet n) := by
  cases quiet with
  | true => exact .pure rfl
  | false => exact .throw nofun

theorem run_eat_of_eq (quiet : Bool) {kind : TokenKind} {t : Token} (ht : t.kind = kind)
    (ts : List Token) : (eat quiet kind).run (t :: ts) = .ok (some t, ts) := by
  change (if t.kind = kind then (do set ts; pure (some t)) else
    (do report quiet _; pure none) : Parse (Option Token)).run (t :: ts) = _
  rw [if_pos ht]
  rfl

/-- A token that is missing is reported. If that is silenced, nothing is read. -/
theorem run_eat_of_stops (quiet : Bool) {kind : TokenKind} (h : Stops (fun t => t.kind = kind) ts) :
    ∃ n, (eat quiet kind).run ts = (do report quiet n; pure none).run ts := by
  rcases ts with _ | ⟨t, ts⟩
  · exact ⟨_, rfl⟩
  · refine ⟨.expectedToken kind.label (describeCurrent (t :: ts)), ?_⟩
    change (if t.kind = kind then (do set ts; pure (some t)) else
      (do report quiet _; pure none) : Parse (Option Token)).run (t :: ts) = _
    rw [if_neg (h t rfl)]

theorem steadyAt_eat {kind : TokenKind} {t : Token} (ht : t.kind = kind) (ts : List Token) :
    SteadyAt N (fun _ => 1) (eat quiet kind) (eat quiet kind) (t :: ts) := by
  have hrun := run_eat_of_eq quiet ht ts
  refine ⟨fun h => ?_, fun _ => ⟨by rw [hrun]; nofun, rfl⟩⟩
  rw [hrun] at h
  cases h
  exact ⟨List.suffix_cons t ts, Nat.le_refl _⟩

def readCost : Option α → Nat
  | some _ => 1
  | none => 0

theorem readCost_le (a : Option α) : readCost a ≤ 1 := by
  cases a <;> simp [readCost]

theorem steady_eat (kind : TokenKind) : Steady N readCost (eat quiet kind) (eat quiet kind) := by
  intro ts
  by_cases hstops : Stops (fun t => t.kind = kind) ts
  · obtain ⟨n, hrun⟩ := run_eat_of_stops quiet hstops
    refine SteadyAt.drop ?_ (List.suffix_refl ts) hrun hrun
    exact (steady_report n ts).bind fun _ => .pure rfl
  · obtain ⟨t, ht, hkind⟩ : ∃ t ∈ ts.head?, t.kind = kind := by simpa [Stops] using hstops
    rcases ts with _ | ⟨u, ts⟩
    · cases ht
    · cases ht
      exact (steadyAt_eat hkind ts).mono (Nat.le_refl N) readCost_le

theorem steady_eatText (kind : TokenKind) :
    Steady N (fun _ => 1) (eatText quiet kind) (eatText quiet kind) := by
  refine (steady_eat kind).bind fun t => ?_
  cases t with
  | some t => exact .pure rfl
  | none => exact .throw nofun

theorem steady_decode (s : String) : Steady N (fun _ => 0) (decode s) (decode s) := by
  unfold decode
  split
  · exact .pure rfl
  · exact .throw nofun

/-- A parser that asks for the current token. -/
theorem Steady.current {c : α → Nat} {f g : Option Token → Parse α}
    (hcons : ∀ t us, SteadyAt N c (f (some t)) (g (some t)) (t :: us))
    (hnil : SteadyAt N c (f none) (g none) []) :
    Steady N c (Parse.current >>= f) (Parse.current >>= g) := by
  intro ts
  refine .look (run_current ts) ?_
  rcases ts with _ | ⟨t, ts⟩
  · exact hnil
  · exact hcons t ts

theorem SteadyAt.advance {c : α → Nat} {f g : Unit → Parse α} {t : Token}
    (h : Steady (N - 1) (fun a => c a - 1) (f ()) (g ())) :
    SteadyAt N c (Parse.advance >>= f) (Parse.advance >>= g) (t :: ts) :=
  (steadyAt_advance t ts).bind fun _ => h

/-- A parser that asks for a kind of token. -/
theorem Steady.ifKind {c : α → Nat} {kind : TokenKind} {f g : Unit → Parse α} {p q : Parse α}
    (hf : Steady (N - 1) (fun a => c a - 1) (f ()) (g ())) (hp : Steady N c p q) :
    Steady N c (do if ← atKind kind then Parse.advance >>= f else p)
      (do if ← atKind kind then Parse.advance >>= g else q) := by
  intro ts
  refine .look (run_atKind kind ts) ?_
  split
  · next h =>
    rcases ts with _ | ⟨t, ts⟩
    · cases h
    · exact .advance hf
  · exact hp ts

/-! ### Loops -/

def roundCost : σ ⊕ β → Nat
  | .inl _ => 1
  | .inr _ => 0

/-- A loop whose bound is at least the number of tokens ends before its rounds run out. -/
theorem steady_rounds {round round' : Nat → σ → Parse (σ ⊕ β)}
    (h : ∀ {M n m} s, M ≤ N → M ≤ n + 1 → n ≤ m → Steady M roundCost (round n s) (round' m s))
    (hn : N ≤ n) (hnm : n ≤ m) (s : σ) :
    Steady N (fun _ => 0) (rounds round n s) (rounds round' m s) := by
  have hloop : ∀ {M m}, M ≤ N → M ≤ n → n ≤ m → ∀ s,
      Steady M (fun _ => 0) (rounds round n s) (rounds round' m s) := by
    clear hn hnm
    induction n with
    | zero =>
      intro M m _ hM _ s
      rw [Nat.le_zero.1 hM]
      exact steady_exhausted
    | succ n ih =>
      intro M m hMN hM hnm s
      obtain ⟨m, rfl⟩ : ∃ k, m = k + 1 := ⟨m - 1, by omega⟩
      rw [rounds_succ, rounds_succ]
      refine (h s hMN hM (by omega)).bind fun r => ?_
      cases r with
      | inl s => exact ih (Nat.le_trans (Nat.sub_le M 1) hMN) (Nat.sub_le_of_le_add hM) (by omega) s
      | inr b => exact .pure rfl
  exact hloop (Nat.le_refl N) hn hnm s

section Loops

variable {expr expr' : Parse Node}

theorem steady_chainRound {operator? : Token → Option BinaryOp} {operand operand' : Parse Node}
    (h : Steady N (fun _ => 1) operand operand') (left : Node) :
    Steady N roundCost (chainRound operator? operand n left)
      (chainRound operator? operand' m left) := by
  intro ts
  refine .look (a := ts) rfl ?_
  rcases hop : ts.head?.bind operator? with _ | op
  · exact .pure rfl
  · rcases ts with _ | ⟨t, ts⟩
    · cases hop
    · exact .advance ((h.bound (Nat.sub_le N 1)).bind fun right => .pure rfl)

theorem steady_commaRound {item item' : Parse α} (h : Steady N (fun _ => 1) item item')
    (items : List α) :
    Steady N roundCost (commaRound item n items) (commaRound item' m items) :=
  h.bind fun _ => .ifKind (.pure rfl) (.pure rfl)

/-- A key may be left unread, if that is silenced. -/
theorem steady_dictKey (previous : Option String) :
    Steady N (fun _ => 0) (dictKey quiet previous) (dictKey quiet previous) := by
  refine .current (fun t us => ?_) ((steady_report _ []).bind fun _ => .throw nofun)
  dsimp only
  split
  · exact .advance (.map (steady_decode _))
  · exact .advance (.map (steady_decode _))
  · exact .advance (.pure rfl)
  · exact (steady_report _ _).bind fun _ => .pure rfl

theorem steady_entryRound (h : Steady N (fun _ => 1) expr expr')
    (s : Option String × List (String × Node)) :
    Steady N roundCost (entryRound quiet expr n s) (entryRound quiet expr' m s) := by
  refine (steady_dictKey s.1).bind fun key => (steady_eat .colon).free.bind fun _ =>
    h.bind fun value => ?_
  cases key with
  | none => exact .throw nofun
  | some k => exact .ifKind (.pure rfl) (.pure rfl)

/-- Items take their tokens one after the other, so that the bound is not reached. -/
theorem steady_itemsUntil {item item' : Parse α} (h : Steady N (fun _ => 1) item item')
    (hn : N ≤ n) (hnm : n ≤ m) (closing : TokenKind) :
    Steady N (fun _ => 0) (itemsUntil n closing item) (itemsUntil m closing item') := by
  have hcomma : Steady N (fun _ => 0) (commaSeparated item n) (commaSeparated item' m) := by
    have hitem := commaSeparated_eq_rounds item n []
    have hitem' := commaSeparated_eq_rounds item' m []
    simp only [List.nil_append, id_map'] at hitem hitem'
    rw [hitem, hitem']
    exact steady_rounds (fun items hM _ _ => steady_commaRound (h.bound hM) items) hn hnm []
  refine .current (fun t us => ?_) (.pure rfl)
  dsimp only
  split
  · exact .pure rfl
  · exact hcomma _

theorem steady_argument (h : Steady N (fun _ => 1) expr expr') :
    Steady N (fun _ => 1) (argument quiet expr) (argument quiet expr') := by
  intro ts
  refine .look (a := ts) rfl ?_
  split
  · next t e us =>
    split
    · exact (steady_eatText .name).bind (fun name => (steady_eat .equal).free.bind fun _ =>
        (h.bound (Nat.sub_le N 1)).bind fun value => .pure rfl) _
    · exact h _
  · exact h ts

theorem steady_postfixRound (h : Steady N (fun _ => 1) expr expr') (hn : N ≤ n + 1) (hnm : n ≤ m)
    (node : Node) :
    Steady N roundCost (postfixRound quiet expr n node) (postfixRound quiet expr' m node) := by
  have h' : Steady (N - 1) (fun _ => 1) expr expr' := h.bound (Nat.sub_le N 1)
  refine .current (fun t us => ?_) (.pure rfl)
  rw [Option.map_some]
  generalize t.kind = kind
  split
  · exact .advance ((steady_eatText .name).bind fun name => .pure rfl)
  · exact .advance ((steady_itemsUntil (steady_argument h') (by omega) hnm .rparen).bind fun args =>
      (steady_eat .rparen).free.bind fun _ => .pure rfl)
  · exact .advance (h'.bind fun index => (steady_eat .rbracket).free.bind fun _ => .pure rfl)
  · exact .pure rfl

theorem steady_lvalueRound (h : Steady N (fun _ => 1) expr expr') (node : Node) :
    Steady N roundCost (lvalueRound quiet expr n node) (lvalueRound quiet expr' m node) := by
  have h' : Steady (N - 1) (fun _ => 1) expr expr' := h.bound (Nat.sub_le N 1)
  refine .current (fun t us => ?_) (.pure rfl)
  rw [Option.map_some]
  generalize t.kind = kind
  split
  · refine .advance (.current (fun t us => ?_) (.pure rfl))
    dsimp only
    split
    · exact .advance (.pure rfl)
    · exact .pure rfl
  · exact .advance (h'.bind fun index => (steady_eat .rbracket).free.bind fun _ => .pure rfl)
  · exact .pure rfl
  · exact .pure rfl

theorem steady_statementRound {ends : Token → Bool} {statement statement' : Parse (Option Node)}
    (h : Steady N (fun _ => 1) statement statement') (nodes : List Node) :
    Steady N roundCost (statementRound ends statement n nodes)
      (statementRound ends statement' m nodes) := by
  refine steady_skipSemicolons.bind fun _ => .current (fun t us => ?_) (.pure rfl)
  dsimp only
  split
  · exact .pure rfl
  · exact h.bind (fun node => steady_skipSemicolons.bind fun _ => .pure rfl) _

end Loops

/-! ### Expressions -/

section Expressions

variable {expr expr' : Parse Node}

/-- A chain goes on only by rounds that take tokens. -/
theorem steady_chain {operator? : Token → Option BinaryOp} {operand operand' : Parse Node}
    (h : Steady N (fun _ => 1) operand operand') (hn : N ≤ n + 1) (hnm : n ≤ m) :
    Steady N (fun _ => 1) (chain n operator? operand) (chain m operator? operand') := by
  refine h.bind fun left => ?_
  rw [chainFrom_eq_rounds, chainFrom_eq_rounds]
  exact steady_rounds (fun left hM _ _ => steady_chainRound (h.bound (by omega)) left)
    (by omega) hnm left

theorem leadingOperators_suffix (operator? : Token → Option UnaryOp) (ts : List Token) :
    (leadingOperators operator? ts).2 <:+ ts := by
  induction ts with
  | nil => exact List.suffix_refl []
  | cons t ts ih =>
    rw [leadingOperators]
    split
    · exact ih.trans (List.suffix_cons t ts)
    · exact List.suffix_refl _

theorem steady_unaryLevel {operator? : Token → Option UnaryOp} {operand operand' : Parse Node}
    (h : Steady N (fun _ => 1) operand operand') :
    Steady N (fun _ => 1) (unaryLevel operator? operand) (unaryLevel operator? operand') := by
  intro ts
  refine SteadyAt.drop ?_ (leadingOperators_suffix operator? ts) (run_unaryLevel ts)
    (run_unaryLevel ts)
  exact .map (h _)

theorem steadyAt_listLiteral (h : Steady (N - 1) (fun _ => 1) expr expr') (hn : N ≤ n + 1)
    (hnm : n ≤ m) {t : Token} (ht : t.kind = .lbracket) :
    SteadyAt N (fun _ => 1) (listLiteral quiet n expr) (listLiteral quiet m expr') (t :: ts) :=
  (steadyAt_eat ht ts).bind fun _ => (steady_itemsUntil h (by omega) hnm .rbracket).bind fun _ =>
    (steady_eat .rbracket).free.bind fun _ => .pure rfl

theorem steadyAt_dictLiteral (h : Steady (N - 1) (fun _ => 1) expr expr') (hn : N ≤ n + 1)
    (hnm : n ≤ m) {t : Token} (ht : t.kind = .lbrace) :
    SteadyAt N (fun _ => 1) (dictLiteral quiet n expr) (dictLiteral quiet m expr') (t :: ts) := by
  have hentries : Steady (N - 1) (fun _ => 0) (dictEntries quiet expr n none)
      (dictEntries quiet expr' m none) := by
    have heq := dictEntries_eq_rounds quiet expr n (none, [])
    have heq' := dictEntries_eq_rounds quiet expr' m (none, [])
    simp only [List.nil_append, id_map'] at heq heq'
    rw [heq, heq']
    exact steady_rounds (fun s hM _ _ => steady_entryRound (h.bound hM) s) (by omega) hnm _
  have hclose (pairs : List (String × Node)) : Steady (N - 1) (fun _ => 0)
      (do let _ ← eat quiet .rbrace; pure (Node.dict pairs))
      (do let _ ← eat quiet .rbrace; pure (Node.dict pairs)) :=
    (steady_eat .rbrace).free.bind fun _ => .pure rfl
  have hnone : Steady (N - 1) (fun _ => 0) (pure [] : Parse (List (String × Node))) (pure []) :=
    .pure rfl
  refine (steadyAt_eat ht ts).bind fun _ => .current (fun t us => ?_) (hnone.bind hclose [])
  dsimp only
  split
  · exact hnone.bind hclose _
  · exact hentries.bind hclose _

/-- A token that starts no expression gives no result, silenced or not. -/
theorem steady_noPrimary (t : Token) :
    Steady N (fun _ => 1) (noPrimary quiet t) (noPrimary quiet t) := by
  refine (steady_report _).bind fun _ => ?_
  split
  · exact steady_advance.bind fun _ => (steady_eatText .name).bind fun _ => .throw nofun
  · exact .throw nofun

/-- A primary expression that is read has taken a token. -/
theorem steady_primary (h : Steady (N - 1) (fun _ => 1) expr expr') (hn : N ≤ n + 1)
    (hnm : n ≤ m) :
    Steady N (fun _ => 1) (primary quiet n expr) (primary quiet m expr') := by
  refine .current (fun t us => ?_) ((steady_report _ []).bind fun _ => .throw nofun)
  dsimp only
  split
  · refine .advance ?_
    split
    · exact .pure rfl
    · exact .throw nofun
  · exact .advance (.map (steady_decode _))
  · exact .advance (.map (steady_decode _))
  · next ht => exact steadyAt_listLiteral h hn hnm ht
  · next ht => exact steadyAt_dictLiteral h hn hnm ht
  · exact .advance (.pure rfl)
  · exact .advance (h.bind fun _ => (steady_eat .rparen).free.bind fun _ => .pure rfl)
  · exact steady_noPrimary t _

theorem steady_atom (h : Steady (N - 1) (fun _ => 1) expr expr') (hn : N ≤ n + 1) (hnm : n ≤ m) :
    Steady N (fun _ => 1) (atom quiet n expr) (atom quiet m expr') := by
  refine (steady_primary h hn hnm).bind fun node => ?_
  rw [postfixes_eq_rounds, postfixes_eq_rounds]
  exact steady_rounds (fun node hM hn hnm => steady_postfixRound (h.bound hM) hn hnm node)
    (by omega) hnm node

theorem steady_factor (h : Steady (N - 1) (fun _ => 1) expr expr') (hn : N ≤ n + 1)
    (hnm : n ≤ m) : Steady N (fun _ => 1) (factor quiet n expr) (factor quiet m expr') :=
  steady_chain (steady_unaryLevel (steady_atom h hn hnm)) hn hnm

theorem steady_term (h : Steady (N - 1) (fun _ => 1) expr expr') (hn : N ≤ n + 1)
    (hnm : n ≤ m) : Steady N (fun _ => 1) (term quiet n expr) (term quiet m expr') :=
  steady_chain (steady_factor h hn hnm) hn hnm

theorem steady_comparison (h : Steady (N - 1) (fun _ => 1) expr expr') (hn : N ≤ n + 1)
    (hnm : n ≤ m) : Steady N (fun _ => 1) (comparison quiet n expr) (comparison quiet m expr') :=
  steady_chain (steady_term h hn hnm) hn hnm

theorem steady_conjunction (h : Steady (N - 1) (fun _ => 1) expr expr') (hn : N ≤ n + 1)
    (hnm : n ≤ m) : Steady N (fun _ => 1) (conjunction quiet n expr) (conjunction quiet m expr') :=
  steady_chain (steady_unaryLevel (steady_comparison h hn hnm)) hn hnm

theorem steady_disjunction (h : Steady (N - 1) (fun _ => 1) expr expr') (hn : N ≤ n + 1)
    (hnm : n ≤ m) : Steady N (fun _ => 1) (disjunction quiet n expr) (disjunction quiet m expr') :=
  steady_chain (steady_conjunction h hn hnm) hn hnm

/-- An expression is read alike with every bound that is enough for its parts. -/
theorem steady_exprWith (h : Steady (N - 1) (fun _ => 1) expr expr') (hn : N ≤ n + 1)
    (hnm : n ≤ m) :
    Steady N (fun _ => 1) (exprWith quiet n expr) (exprWith quiet m expr') := by
  have h' : Steady (N - 1 - 1) (fun _ => 1) expr expr' := h.bound (Nat.sub_le _ 1)
  exact (steady_disjunction h hn hnm).bind fun _ => .ifKind (h'.free.bind fun _ =>
    (steady_eat .colon).free.bind fun _ => h'.free.bind fun _ => .pure rfl) (.pure rfl)

end Expressions

/-- By induction on the bound: on fewer tokens than the bound, an expression is read alike with
every larger one. -/
theorem steady_expr (hnm : n ≤ m) : Steady n (fun _ => 1) (expr quiet n) (expr quiet m) := by
  induction n generalizing m with
  | zero => exact steady_exhausted
  | succ n ih =>
    obtain ⟨m, rfl⟩ : ∃ k, m = k + 1 := ⟨m - 1, by omega⟩
    exact steady_exprWith (ih (by omega)) (Nat.le_refl _) (by omega)

/-! ### Statements -/

section Statements

variable {expr expr' : Parse Node} {statement statement' : Parse (Option Node)}

theorem steady_lvalue (h : Steady N (fun _ => 1) expr expr') (hn : N ≤ n) (hnm : n ≤ m) :
    Steady N (fun _ => 0) (lvalue quiet n expr) (lvalue quiet m expr') := by
  refine .current (fun t us => ?_) (.pure rfl)
  dsimp only
  split
  · refine .advance ?_
    rw [lvalueFrom_eq_rounds, lvalueFrom_eq_rounds]
    exact steady_rounds (fun node hM _ _ => steady_lvalueRound (h.bound (by omega)) node)
      (by omega) hnm _
  · exact .pure rfl

/-- The trial of an assignment that does not go back to the start. -/
def trial (quiet : Bool) (n : Nat) (expr : Parse Node) : Parse (Option Node) := do
  let target ← lvalue quiet n expr
  match target, (← current).bind fun t => assignOperator? t.kind with
  | some target, some op =>
    advance
    let rhs ← expr
    pure (some (assignment target op rhs))
  | _, _ => pure none

/-- The trial of an assignment that fails gives its tokens back. -/
theorem run_assignment? (ts : List Token) : (assignment? quiet n expr).run ts =
    match (trial quiet n expr).run ts with
    | .ok (none, _) => .ok (none, ts)
    | r => r := by
  have hget : (get : Parse (List Token)).run ts = .ok (ts, ts) := rfl
  rw [assignment?, run_bind_of_ok hget, trial, run_bind, run_bind]
  rcases (lvalue quiet n expr).run ts with e | ⟨target, us⟩
  · rfl
  · dsimp only
    rw [run_bind_of_ok (run_current us), run_bind_of_ok (run_current us)]
    rcases target with _ | target
    · rfl
    · rcases us.head?.bind fun t => assignOperator? t.kind with _ | op
      · rfl
      · dsimp only
        rw [run_bind_of_ok (run_advance us), run_bind]
        rcases expr.run us.tail with _ | ⟨rhs, rest⟩ <;> rfl

/-- Where there is no assignment, nothing is read. -/
theorem eq_of_assignment?_none {rest : List Token}
    (h : (assignment? quiet n expr).run ts = .ok (none, rest)) : rest = ts := by
  rw [run_assignment?] at h
  split at h
  · cases h
    rfl
  · next hne => exact absurd h (hne rest)

/-- An assignment has an operator, which is taken. -/
theorem steady_trial (quiet : Bool) (h : Steady N (fun _ => 1) expr expr') (hn : N ≤ n)
    (hnm : n ≤ m) :
    Steady N readCost (trial quiet n expr)
      (trial quiet m expr') := by
  refine (steady_lvalue h hn hnm).bind fun target => .current (fun t us => ?_) ?_
  · split
    · exact .advance ((h.bound (Nat.sub_le N 1)).bind fun rhs => .pure rfl)
    · exact .pure rfl
  · cases target <;> exact .pure rfl

/-- An assignment that is read has taken a token, and otherwise none was. -/
theorem steady_assignment? (h : Steady N (fun _ => 1) expr expr') (hn : N ≤ n) (hnm : n ≤ m) :
    Steady N readCost (assignment? quiet n expr)
      (assignment? quiet m expr') := by
  intro ts
  have htrial := steady_trial quiet h hn hnm ts
  constructor
  · intro node rest hrun
    cases node with
    | none =>
      obtain rfl := eq_of_assignment?_none hrun
      exact ⟨List.suffix_refl rest, Nat.le_refl _⟩
    | some node =>
      rw [run_assignment?] at hrun
      split at hrun
      · cases hrun
      · exact htrial.takes hrun
  · intro hlt
    obtain ⟨hne, heq⟩ := htrial.ends hlt
    rw [run_assignment?, run_assignment?, heq]
    refine ⟨?_, rfl⟩
    split
    · nofun
    · exact hne

theorem steady_typeAfter (marker : TokenKind) :
    Steady N (fun _ => 0) (typeAfter quiet marker) (typeAfter quiet marker) :=
  .ifKind (steady_eatText .name).free (.pure rfl)

theorem steady_declaration (h : Steady N (fun _ => 1) expr expr') (forceGlobal forceLocal : Bool) :
    Steady N (fun _ => 1) (declaration quiet expr forceGlobal forceLocal)
      (declaration quiet expr' forceGlobal forceLocal) := by
  intro ts
  refine .look (run_atWord "let" ts) ?_
  exact steady_advance.bind (fun _ => (steady_eatText .name).bind fun _ =>
    (steady_typeAfter .colon).bind fun _ => (steady_eat .equal).free.bind fun _ =>
      (h.bound (Nat.sub_le N 1)).free.bind fun _ => .pure rfl) ts

theorem steadyAt_scopeStatement (h : Steady (N - 1) (fun _ => 1) expr expr') (kind : String)
    (t : Token) :
    SteadyAt N (fun _ => 1) (scopeStatement quiet expr kind) (scopeStatement quiet expr' kind)
      (t :: ts) := by
  refine .advance ((steady_eatText .name).bind fun name us => ?_)
  refine .look (run_atWord "var" us) (.look (run_atWord "let" us) ?_)
  split
  · exact ((steady_declaration (h.bound (Nat.sub_le _ 1)) _ _).free) us
  · exact .pure rfl

theorem steady_parameter (quiet : Bool) (h : Steady N (fun _ => 1) expr expr') :
    Steady N (fun _ => 1) (parameter quiet expr) (parameter quiet expr') :=
  (steady_eatText .name).bind fun _ => (steady_typeAfter .colon).bind fun _ =>
    .ifKind ((h.bound (by omega)).free.bind fun _ => .pure rfl) (.pure rfl)

theorem steady_braces (quiet : Bool) (h : Steady N (fun _ => 1) statement statement') (hn : N ≤ n)
    (hnm : n ≤ m) :
    Steady N (fun _ => 0) (braces quiet n statement) (braces quiet m statement') := by
  have hbody : Steady N (fun _ => 0) (statementsUntil statement n)
      (statementsUntil statement' m) := by
    have heq := statementsUntil_eq_rounds statement n []
    have heq' := statementsUntil_eq_rounds statement' m []
    simp only [List.nil_append, id_map'] at heq heq'
    rw [heq, heq']
    exact steady_rounds (fun nodes hM _ _ => steady_statementRound (h.bound hM) nodes) hn hnm []
  exact (steady_eat .lbrace).free.bind fun _ => hbody.bind fun _ =>
    (steady_eat .rbrace).free.bind fun _ => .pure rfl

theorem steady_condition (h : Steady N (fun _ => 1) expr expr') :
    Steady N (fun _ => 1) (condition quiet expr) (condition quiet expr') :=
  .ifKind ((h.bound (Nat.sub_le N 1)).free.bind fun _ =>
    (steady_eat .rparen).free.bind fun _ => .pure rfl) h

theorem steady_ifWord {c : α → Nat} {word : String} {p q p' q' : Parse α}
    (hp : ∀ t us, SteadyAt N c p q (t :: us)) (hq : Steady N c p' q') :
    Steady N c (do if ← atWord word then p else p') (do if ← atWord word then q else q') := by
  intro ts
  refine .look (run_atWord word ts) ?_
  split
  · next h =>
    rcases ts with _ | ⟨t, ts⟩
    · cases h
    · exact hp t ts
  · exact hq ts

theorem steadyAt_function (h : Steady (N - 1) (fun _ => 1) expr expr')
    (hs : Steady (N - 1) (fun _ => 1) statement statement') (hn : N ≤ n) (hnm : n ≤ m) (t : Token) :
    SteadyAt N (fun _ => 1) (function quiet n expr statement) (function quiet m expr' statement')
      (t :: ts) := by
  have hparams := steady_itemsUntil (steady_parameter quiet (h.bound
    (Nat.sub_le (N - 1) 1))) (by omega) hnm .rparen
  have hbody := steady_braces quiet (hs.bound (Nat.sub_le (N - 1) 1)) (by omega) hnm
  exact .advance ((steady_eatText .name).bind fun _ => (steady_eat .lparen).free.bind fun _ =>
    hparams.bind fun _ => (steady_eat .rparen).free.bind fun _ =>
      (steady_typeAfter .arrow).bind fun _ => hbody.bind fun _ => .pure rfl)

theorem steadyAt_template (hs : Steady (N - 1) (fun _ => 1) statement statement') (hn : N ≤ n)
    (hnm : n ≤ m) (t : Token) :
    SteadyAt N (fun _ => 1) (template quiet n statement) (template quiet m statement')
      (t :: ts) := by
  have hbody := steady_braces quiet (hs.bound (Nat.sub_le (N - 1) 1)) (by omega) hnm
  exact .advance ((steady_eatText .name).bind fun _ => hbody.bind fun _ => .pure rfl)

theorem steadyAt_classDecl (hs : Steady (N - 1) (fun _ => 1) statement statement') (hn : N ≤ n)
    (hnm : n ≤ m) (t : Token) :
    SteadyAt N (fun _ => 1) (classDecl quiet n statement) (classDecl quiet m statement')
      (t :: ts) := by
  have hbody (M : Nat) (hM : M ≤ N - 1) (name : String) (base : Option String) :
      Steady M (fun _ => 0) (do let body ← braces quiet n statement; pure (Node.cls name base body))
        (do let body ← braces quiet m statement'; pure (Node.cls name base body)) :=
    (steady_braces quiet (hs.bound hM) (by omega) hnm).bind fun _ => .pure rfl
  have hbase : Steady (N - 1 - 1 - 1) (fun _ => 0) (some <$> eatText quiet .name)
      (some <$> eatText quiet .name) := .map (steady_eatText .name).free
  have hnone : Steady (N - 1 - 1) (fun _ => 0) (pure none : Parse (Option String)) (pure none) :=
    .pure rfl
  exact .advance ((steady_eatText .name).bind fun name => .ifKind
    (hbase.bind (hbody _ (by omega) name)) (hnone.bind (hbody _ (by omega) name)))

theorem steadyAt_guarded (hs : Steady (N - 1) (fun _ => 1) statement statement') (hn : N ≤ n)
    (hnm : n ≤ m) (t : Token) :
    SteadyAt N (fun _ => 1) (guarded quiet n statement) (guarded quiet m statement')
      (t :: ts) := by
  have hbody := steady_braces quiet hs (by omega) hnm
  refine .advance (hbody.bind fun _ => steady_ifWord (fun t us => .advance ?_) ?_)
  · exact (steady_eatText .name).bind fun _ => (hbody.bound (by omega)).bind fun _ => .pure rfl
  · exact (steady_report _).bind fun _ => .pure rfl

/-- By induction on the branches: each of them takes the word that opens it. -/
theorem steady_conditional (h : Steady N (fun _ => 1) expr expr')
    (hs : Steady (N - 1) (fun _ => 1) statement statement') (hn : N ≤ n) (hnm : n ≤ m)
    {k l : Nat} (hk : N ≤ k) (hkl : k ≤ l) :
    Steady N (fun _ => 1) (conditional quiet n expr statement k)
      (conditional quiet m expr' statement' l) := by
  induction k generalizing N l with
  | zero =>
    rw [Nat.le_zero.1 hk]
    exact steady_exhausted
  | succ k ih =>
    obtain ⟨l, rfl⟩ : ∃ j, l = j + 1 := ⟨l - 1, by omega⟩
    have hbody := steady_braces quiet hs (by omega) hnm
    have hrest : Steady (N - 1 - 1) (fun _ => 0) (conditional quiet n expr statement k)
        (conditional quiet m expr' statement' l) :=
      (ih (h.bound (by omega)) (hs.bound (by omega)) (by omega) (by omega) (by omega)).free
    refine (steady_eat .name).free.bind fun _ => (steady_condition h).bind fun _ =>
      hbody.bind fun _ => steady_skipSemicolons.bind fun _ => ?_
    refine steady_ifWord (fun t us => .advance ?_) (steady_ifWord (fun t us => .advance ?_) ?_)
    · refine steady_ifWord (fun t us => ?_) ?_
      · exact hrest.bind (fun _ => .pure rfl) _
      · exact (hbody.bound (by omega)).bind fun _ => .pure rfl
    · exact hrest.bind fun _ => .pure rfl
    · exact .pure rfl

theorem steadyAt_forLoop (h : Steady (N - 1) (fun _ => 1) expr expr')
    (hs : Steady (N - 1) (fun _ => 1) statement statement') (hn : N ≤ n) (hnm : n ≤ m) (t : Token) :
    SteadyAt N (fun _ => 1) (forLoop quiet n expr statement) (forLoop quiet m expr' statement')
      (t :: ts) := by
  have hrest (binder : String) : Steady (N - 1 - 1) (fun _ => 0)
      (do
        let _ ← eat quiet .name
        let iterable ← expr
        let body ← braces quiet n statement
        pure (Node.forStmt binder iterable (.block body)))
      (do
        let _ ← eat quiet .name
        let iterable ← expr'
        let body ← braces quiet m statement'
        pure (Node.forStmt binder iterable (.block body))) :=
    (steady_eat .name).free.bind fun _ => (h.bound (Nat.sub_le _ 1)).free.bind fun _ =>
      (steady_braces quiet (hs.bound (Nat.sub_le _ 1)) (by omega) hnm).bind fun _ => .pure rfl
  refine .advance ((steady_eatText .name).bind fun binder us => .look (run_atWord "in" us) ?_)
  split
  · exact (steady_report _).bind (fun _ => hrest binder) us
  · exact hrest binder us

theorem steadyAt_whileLoop (h : Steady (N - 1) (fun _ => 1) expr expr')
    (hs : Steady (N - 1) (fun _ => 1) statement statement') (hn : N ≤ n) (hnm : n ≤ m) (t : Token) :
    SteadyAt N (fun _ => 1) (whileLoop quiet n expr statement) (whileLoop quiet m expr' statement')
      (t :: ts) :=
  .advance ((steady_condition h).free.bind fun _ =>
    (steady_braces quiet hs (by omega) hnm).bind fun _ => .pure rfl)

theorem steadyAt_wordStatement (h : Steady N (fun _ => 1) expr expr')
    (hs : Steady (N - 1) (fun _ => 1) statement statement') (hn : N ≤ n) (hnm : n ≤ m)
    (word : String) (t : Token) :
    SteadyAt N (fun _ => 1) (wordStatement quiet n expr statement word)
      (wordStatement quiet m expr' statement' word) (t :: ts) := by
  have h' : Steady (N - 1) (fun _ => 1) expr expr' := h.bound (Nat.sub_le N 1)
  unfold wordStatement
  split
  · exact .map (steadyAt_scopeStatement h' _ t)
  · exact .map (steadyAt_scopeStatement h' _ t)
  · exact .map (steadyAt_template hs hn hnm t)
  · exact .map (steadyAt_classDecl hs hn hnm t)
  · exact steadyAt_guarded hs hn hnm t
  · exact .map (steady_declaration h _ _ _)
  · exact .map (steady_declaration h _ _ _)
  · exact .map (steadyAt_function h' hs hn hnm t)
  · exact .map (steady_conditional h hs hn hnm (by omega) (by omega) _)
  · exact .map (steadyAt_forLoop h' hs hn hnm t)
  · exact .map (steadyAt_whileLoop h' hs hn hnm t)
  · exact .advance (.map h'.free)
  · exact .advance (.pure rfl)
  · exact .advance (.pure rfl)
  · exact .map (h _)

/-- A statement is read alike with every bound that is enough for its parts. -/
theorem steady_statementWith (h : Steady N (fun _ => 1) expr expr')
    (hs : Steady (N - 1) (fun _ => 1) statement statement') (hn : N ≤ n) (hnm : n ≤ m) :
    Steady N (fun _ => 1) (statementWith quiet n expr statement)
      (statementWith quiet m expr' statement') := by
  intro ts
  refine (steady_assignment? h hn hnm ts).bind_run fun node us hrun => ?_
  cases node with
  | some node => exact .pure rfl
  | none =>
    obtain rfl := eq_of_assignment?_none hrun
    refine Steady.current (fun t ts => ?_) ?_ us
    · dsimp only
      split
      · exact steadyAt_wordStatement h hs hn hnm _ t
      · exact .advance (.pure rfl)
      · exact .map (h _)
    · exact .map (h [])

end Statements

/-- By induction on the bound: a statement is read alike with every larger one. -/
theorem steady_statement (quiet : Bool) (hnm : n ≤ m) :
    Steady (n - 1) (fun _ => 1) (statement quiet n) (statement quiet m) := by
  induction n generalizing m with
  | zero => exact steady_exhausted
  | succ n ih =>
    obtain ⟨m, rfl⟩ : ∃ k, m = k + 1 := ⟨m - 1, by omega⟩
    exact steady_statementWith (steady_expr (by omega)) (ih (by omega)) (Nat.le_refl n) (by omega)

/-- A program is read alike with every bound that is larger than its tokens are many. -/
theorem steady_programFrom {statement statement' : Parse (Option Node)}
    (h : Steady N (fun _ => 1) statement statement') (hn : N ≤ n) (hnm : n ≤ m) :
    Steady N (fun _ => 0) (programFrom statement n) (programFrom statement' m) := by
  have heq := programFrom_eq_rounds statement n []
  have heq' := programFrom_eq_rounds statement' m []
  simp only [List.nil_append, id_map'] at heq heq'
  rw [heq, heq']
  exact steady_rounds (fun nodes hM _ _ => steady_statementRound (h.bound hM) nodes) hn hnm []

/-! ### Progress -/

/-- The loop is made of rounds, and a round that goes on leaves fewer tokens to the next one. -/
structure IsLoop (loop : Nat → σ → Parse β) (round : Nat → σ → Parse (σ ⊕ β)) : Prop where
  eq_rounds : ∀ k s, loop k s = rounds round k s
  advances : ∀ {k s s' ts rest}, (round k s).run ts = .ok (.inl s', rest) →
    rest <:+ ts ∧ rest.length < ts.length

/-- A loop whose rounds go on only if they take a token is one that goes forward. -/
theorem IsLoop.of_steady {loop : Nat → σ → Parse β} {round : Nat → σ → Parse (σ ⊕ β)}
    (heq : ∀ k s, loop k s = rounds round k s)
    (h : ∀ k s, Steady 0 roundCost (round k s) (round k s)) : IsLoop loop round :=
  ⟨heq, fun {k s _ ts _} hrun => (h k s ts).takes hrun⟩

/-- The loops of the parser go forward, whatever is read in them with the bound `n`. -/
structure LoopsAdvance (quiet : Bool) (n : Nat) : Prop where
  program : IsLoop (fun k nodes => (nodes ++ ·) <$> programFrom (statement quiet n) k)
    (statementRound (fun _ => false) (statement quiet n))
  block : IsLoop (fun k nodes => (nodes ++ ·) <$> statementsUntil (statement quiet n) k)
    (statementRound (·.kind == .rbrace) (statement quiet n))
  parameters : IsLoop
    (fun k items => (items ++ ·) <$> commaSeparated (parameter quiet (expr quiet n)) k)
    (commaRound (parameter quiet (expr quiet n)))
  arguments : IsLoop
    (fun k items => (items ++ ·) <$> commaSeparated (argument quiet (expr quiet n)) k)
    (commaRound (argument quiet (expr quiet n)))
  items : IsLoop (fun k items => (items ++ ·) <$> commaSeparated (expr quiet n) k)
    (commaRound (expr quiet n))
  entries : IsLoop (fun k s => (s.2 ++ ·) <$> dictEntries quiet (expr quiet n) k s.1)
    (entryRound quiet (expr quiet n))
  postfixes : IsLoop (postfixes quiet (expr quiet n)) (postfixRound quiet (expr quiet n))
  lvalues : IsLoop (lvalueFrom quiet (expr quiet n)) (lvalueRound quiet (expr quiet n))
  products : ∀ m, IsLoop
    (chainFrom productOperator? (unaryLevel signOperator? (atom quiet m (expr quiet n))))
    (chainRound productOperator? (unaryLevel signOperator? (atom quiet m (expr quiet n))))
  sums : ∀ m, IsLoop (chainFrom sumOperator? (factor quiet m (expr quiet n)))
    (chainRound sumOperator? (factor quiet m (expr quiet n)))
  comparisons : ∀ m, IsLoop (chainFrom comparison? (term quiet m (expr quiet n)))
    (chainRound comparison? (term quiet m (expr quiet n)))
  conjunctions : ∀ m, IsLoop
    (chainFrom andOperator? (unaryLevel notOperator? (comparison quiet m (expr quiet n))))
    (chainRound andOperator? (unaryLevel notOperator? (comparison quiet m (expr quiet n))))
  disjunctions : ∀ m, IsLoop (chainFrom orOperator? (conjunction quiet m (expr quiet n)))
    (chainRound orOperator? (conjunction quiet m (expr quiet n)))

/-- All loops of the parser go forward, silenced or not. -/
theorem loopsAdvance (quiet : Bool) (n : Nat) : LoopsAdvance quiet n := by
  have hstatement : Steady 0 (fun _ => 1) (statement quiet n) (statement quiet n) :=
    (steady_statement quiet (Nat.le_refl n)).bound (Nat.zero_le _)
  have hexpr : Steady 0 (fun _ => 1) (expr quiet n) (expr quiet n) :=
    (steady_expr (Nat.le_refl n)).bound (Nat.zero_le _)
  have hchain {operator? : Token → Option BinaryOp} {operand : Parse Node}
      (h : Steady 0 (fun _ => 1) operand operand) :
      IsLoop (chainFrom operator? operand) (chainRound operator? operand) :=
    .of_steady (chainFrom_eq_rounds _ _) fun k left => steady_chainRound h left
  exact {
    program := .of_steady (programFrom_eq_rounds _) fun k => steady_statementRound hstatement
    block := .of_steady (statementsUntil_eq_rounds _) fun k => steady_statementRound hstatement
    parameters := .of_steady (commaSeparated_eq_rounds _) fun k =>
      steady_commaRound (steady_parameter quiet hexpr)
    arguments := .of_steady (commaSeparated_eq_rounds _) fun k =>
      steady_commaRound (steady_argument hexpr)
    items := .of_steady (commaSeparated_eq_rounds _) fun k => steady_commaRound hexpr
    entries := .of_steady (dictEntries_eq_rounds _ _) fun k => steady_entryRound hexpr
    postfixes := .of_steady (postfixes_eq_rounds _ _) fun k =>
      steady_postfixRound hexpr (Nat.zero_le _) (Nat.le_refl k)
    lvalues := .of_steady (lvalueFrom_eq_rounds _ _) fun k => steady_lvalueRound hexpr
    products m := hchain (steady_unaryLevel (steady_atom hexpr (Nat.zero_le _) (Nat.le_refl m)))
    sums m := hchain (steady_factor hexpr (Nat.zero_le _) (Nat.le_refl m))
    comparisons m := hchain (steady_term hexpr (Nat.zero_le _) (Nat.le_refl m))
    conjunctions m :=
      hchain (steady_unaryLevel (steady_comparison hexpr (Nat.zero_le _) (Nat.le_refl m)))
    disjunctions m := hchain (steady_conjunction hexpr (Nat.zero_le _) (Nat.le_refl m)) }

/-- With bounds as they are for the tokens or larger ones, parsing ends alike and not by them. -/
theorem run_programFrom_of_bound_le {ts : List Token} {n k : Nat} (hn : bound ts ≤ n)
    (hk : bound ts ≤ k) :
    Prod.fst <$> (programFrom (statement quiet n) k).run ts = parseTokens quiet ts ∧
      parseTokens quiet ts ≠ .error .exhausted := by
  have hsteady := steady_programFrom (N := ts.length + 1) ((steady_statement quiet hn).bound
    (by simp only [bound]; omega)) (by simp only [bound]; omega) hk
  obtain ⟨hne, heq⟩ := (hsteady ts).ends (Nat.lt_succ_self _)
  refine ⟨by rw [heq, parseTokens], fun h => hne ?_⟩
  rw [parseTokens] at h
  rcases hrun : (programFrom (statement quiet (bound ts)) (bound ts)).run ts with e | r
  · rw [hrun] at h
    cases h
    rfl
  · rw [hrun] at h
    cases h

end Parse

/-- Parsing goes forward and ends, whether notices are shown or silenced. A statement that is read
takes at least one token and leaves an end of the tokens. In every loop of the parser, a round that
goes on leaves fewer tokens to the next one. So the bound on loops and nesting is never reached, for
statements and for programs, and the result does not depend on it. -/
theorem parser_progress (quiet : Bool) :
    (∀ n ts node rest, (Parse.statement quiet n).run ts = .ok (node, rest) →
      rest <:+ ts ∧ rest.length < ts.length) ∧
    (∀ n, Parse.LoopsAdvance quiet n) ∧
    (∀ n ts, ts.length + 1 < n → (Parse.statement quiet n).run ts ≠ .error .exhausted) ∧
    ∀ ts, parseTokens quiet ts ≠ .error .exhausted ∧
      ∀ n k, Parse.bound ts ≤ n → Parse.bound ts ≤ k →
        Prod.fst <$> (Parse.programFrom (Parse.statement quiet n) k).run ts =
          parseTokens quiet ts := by
  refine ⟨fun n ts node rest hrun => ?_, Parse.loopsAdvance quiet, fun n ts hlt => ?_, fun ts => ?_⟩
  · exact (Parse.steady_statement quiet (Nat.le_refl n) ts).takes hrun
  · exact ((Parse.steady_statement quiet (Nat.le_refl n) ts).ends (by omega)).1
  · exact ⟨(Parse.run_programFrom_of_bound_le (Nat.le_refl _) (Nat.le_refl _)).2,
      fun n k hn hk => (Parse.run_programFrom_of_bound_le hn hk).1⟩

/-- With notices silenced, a `do` without braces and without a `catch` is passed over. -/
theorem parser_progress_silenced :
    let ts : List Token := [⟨.name, "do", 1⟩, ⟨.name, "x", 1⟩]
    (Parse.statement true 5).run ts = .ok (none, []) ∧ [] <:+ ts ∧ 0 < ts.length := by
  intro ts
  have hrun : (Parse.statement true 5).run ts = .ok (none, []) := by rfl
  exact ⟨hrun, (parser_progress true).1 5 ts none [] hrun⟩

end ScriptLang
