import ScriptLang.Proofs.Parse.Grammar

/-!
# Parsers and phrases

A parser reads a kind of phrase if it is sound and complete for it: what it reads is spelled by the
tokens that it takes, and what tokens spell it reads, as long as the token after them does not go on
with the phrase. Loops and nesting are bounded, so completeness is for lists of tokens below some
length; there the parser also ends in no other way than with a result or with a notice.

Notices are shown here, not silenced.
-/

namespace ScriptLang

open Grammar

variable {α β : Type}

namespace Parse

/-! ### Running parsers -/

theorem run_bind (p : Parse α) (f : α → Parse β) (ts : List Token) :
    (p >>= f).run ts = match p.run ts with
      | .ok (a, us) => (f a).run us
      | .error e => .error e := by
  rw [StateT.run_bind]
  rcases p.run ts with _ | ⟨_, _⟩ <;> rfl

/-- A sequence gives a result exactly if both parts do, one from where the other ends. -/
theorem run_bind_eq_ok {p : Parse α} {f : α → Parse β} {ts rest : List Token} {b : β} :
    (p >>= f).run ts = .ok (b, rest) ↔
      ∃ a us, p.run ts = .ok (a, us) ∧ (f a).run us = .ok (b, rest) := by
  rw [run_bind]
  rcases p.run ts with _ | ⟨a, us⟩ <;> grind

theorem run_bind_of_ok {p : Parse α} {ts us : List Token} {a : α} (h : p.run ts = .ok (a, us))
    (f : α → Parse β) : (p >>= f).run ts = (f a).run us := by
  rw [run_bind, h]

theorem run_bind_congr {p : Parse α} {f g : α → Parse β}
    (h : ∀ a us, (f a).run us = (g a).run us) (ts : List Token) :
    (p >>= f).run ts = (p >>= g).run ts := by
  rw [run_bind, run_bind]
  rcases p.run ts with _ | ⟨a, us⟩
  · rfl
  · exact h a us

theorem run_bind_eq_error {p : Parse α} {f : α → Parse β} {ts : List Token} {e : ParseStop} :
    (p >>= f).run ts = .error e ↔ p.run ts = .error e ∨
      ∃ a us, p.run ts = .ok (a, us) ∧ (f a).run us = .error e := by
  rw [run_bind]
  rcases p.run ts with _ | ⟨a, us⟩ <;> grind

theorem run_map (f : α → β) (p : Parse α) (ts : List Token) :
    (f <$> p).run ts = match p.run ts with
      | .ok (a, us) => .ok (f a, us)
      | .error e => .error e := by
  rw [map_eq_pure_bind, run_bind]
  rfl

theorem run_current (ts : List Token) : current.run ts = .ok (ts.head?, ts) := rfl

theorem run_atKind (kind : TokenKind) (ts : List Token) :
    (atKind kind).run ts = .ok (ts.head?.any fun t => t.kind == kind, ts) := rfl

theorem run_advance (ts : List Token) : advance.run ts = .ok ((), ts.tail) := rfl

/-- A token is read if it is of the kind; otherwise the notice names what was expected and what is
there. -/
theorem run_eat_cons (kind : TokenKind) (t : Token) (ts : List Token) :
    (eat false kind).run (t :: ts) = if t.kind = kind then .ok (some t, ts) else
      .error (.reported (.expectedToken kind.label (describeCurrent (t :: ts)))) := by
  change (if t.kind = kind then (do set ts; pure (some t)) else
    (do report false _; pure none) : Parse (Option Token)).run (t :: ts) = _
  split <;> rfl

theorem run_eat_nil (kind : TokenKind) : (eat false kind).run [] =
    .error (.reported (.expectedToken kind.label "None")) := rfl

/-- Reading a token of a kind gives a result exactly if the next token is of the kind. -/
theorem run_eat_eq_ok {kind : TokenKind} {ts rest : List Token} {r : Option Token} :
    (eat false kind).run ts = .ok (r, rest) ↔
      ∃ t, t.kind = kind ∧ ts = t :: rest ∧ r = some t := by
  rcases ts with _ | ⟨t, ts⟩
  · simp [run_eat_nil]
  · rw [run_eat_cons]
    split <;> grind

theorem run_eat_eq_error {kind : TokenKind} {ts : List Token} {e : ParseStop}
    (h : (eat false kind).run ts = .error e) : ∃ n, e = .reported n := by
  rcases ts with _ | ⟨t, ts⟩
  · cases h
    exact ⟨_, rfl⟩
  · rw [run_eat_cons] at h
    split at h <;> cases h
    exact ⟨_, rfl⟩

theorem run_eatText_eq_ok {kind : TokenKind} {ts rest : List Token} {s : String} :
    (eatText false kind).run ts = .ok (s, rest) ↔
      ∃ t, t.kind = kind ∧ ts = t :: rest ∧ s = t.text := by
  rw [eatText, run_bind_eq_ok]
  constructor
  · rintro ⟨r, us, heat, hpure⟩
    obtain ⟨t, ht, rfl, rfl⟩ := run_eat_eq_ok.1 heat
    cases hpure
    exact ⟨t, ht, rfl, rfl⟩
  · rintro ⟨t, ht, rfl, rfl⟩
    exact ⟨some t, rest, run_eat_eq_ok.2 ⟨t, ht, rfl, rfl⟩, rfl⟩

/-! ### Reading phrases -/

/-- The next token, if there is one, is none of `F`. -/
def Stops (F : Token → Prop) (ts : List Token) : Prop := ∀ t ∈ ts.head?, ¬ F t

theorem stops_cons {F : Token → Prop} {t : Token} (h : ¬ F t) (ts : List Token) :
    Stops F (t :: ts) := by
  rintro u ⟨⟩
  exact h

theorem Stops.mono {F F' : Token → Prop} {ts : List Token} (h : Stops F ts)
    (hF : ∀ t, F' t → F t) : Stops F' ts :=
  fun t ht hFt => h t ht (hF t hFt)

theorem Stops.any_kind {kind : TokenKind} {ts : List Token}
    (h : Stops (fun t => t.kind = kind) ts) : (ts.head?.any fun t => t.kind == kind) = false := by
  rcases ts with _ | ⟨t, ts⟩
  · rfl
  · simpa using h t rfl

/-- What the parser reads is spelled by the tokens that it takes, and the next token stops it. -/
def Sound (D : Phrase α) (F : Token → Prop) (p : Parse α) : Prop :=
  ∀ ⦃ts : List Token⦄ ⦃a : α⦄ ⦃rest : List Token⦄, p.run ts = .ok (a, rest) →
    ∃ used, ts = used ++ rest ∧ D used a ∧ Stops F rest

/-- What tokens spell the parser reads if the next token stops it. -/
def Complete (N : Nat) (D : Phrase α) (F : Token → Prop) (p : Parse α) : Prop :=
  ∀ ⦃used : List Token⦄ ⦃a : α⦄ ⦃rest : List Token⦄, (used ++ rest).length < N → D used a →
    Stops F rest → p.run (used ++ rest) = .ok (a, rest)

/-- Without a result, the parser ends with a notice. -/
def Reports (N : Nat) (p : Parse α) : Prop :=
  ∀ ⦃ts : List Token⦄ ⦃e : ParseStop⦄, ts.length < N → (∀ t ∈ ts, Decodes t) →
    p.run ts = .error e → ∃ n, e = .reported n

def Takes (k : Nat) (p : Parse α) : Prop :=
  ∀ ⦃ts : List Token⦄ ⦃a : α⦄ ⦃rest : List Token⦄, p.run ts = .ok (a, rest) →
    ∃ used, ts = used ++ rest ∧ k ≤ used.length

/-- The parser reads exactly the phrases, on fewer than `N` tokens. -/
structure Reads (N : Nat) (D : Phrase α) (F : Token → Prop) (p : Parse α) : Prop where
  sound : Sound D F p
  complete : Complete N D F p
  reports : Reports N p

theorem Sound.takes {D : Phrase α} {F : Token → Prop} {p : Parse α} (h : Sound D F p)
    (hD : ∀ ts a, D ts a → ts ≠ []) : Takes 1 p := by
  intro ts a rest hrun
  obtain ⟨used, hts, hused, -⟩ := h hrun
  exact ⟨used, hts, List.length_pos_iff.2 (hD _ _ hused)⟩

/-- Reporting goes through a sequence: after the first part there are fewer tokens left. -/
theorem Reports.bind {N k : Nat} {p : Parse α} {f : α → Parse β} (hp : Reports N p)
    (htakes : Takes k p) (hf : ∀ a, Reports (N - k) (f a)) : Reports N (p >>= f) := by
  intro ts e hlen hdecodes h
  rcases run_bind_eq_error.1 h with h | ⟨a, us, h, hfa⟩
  · exact hp hlen hdecodes h
  · obtain ⟨used, rfl, hk⟩ := htakes h
    rw [List.length_append] at hlen
    exact hf a (by omega) (fun t ht => hdecodes t (List.mem_append_right _ ht)) hfa

theorem Reports.mono {M N : Nat} {p : Parse α} (h : Reports N p) (hMN : M ≤ N) : Reports M p :=
  fun _ _ hlen => h (Nat.lt_of_lt_of_le hlen hMN)

theorem Complete.mono {M N : Nat} {D : Phrase α} {F F' : Token → Prop} {p : Parse α}
    (h : Complete N D F p) (hMN : M ≤ N) (hF : ∀ t, F t → F' t) : Complete M D F' p :=
  fun _ _ _ hlen hD hrest => h (Nat.lt_of_lt_of_le hlen hMN) hD (hrest.mono hF)

theorem takes_eat (kind : TokenKind) : Takes 1 (eat false kind) := by
  intro ts a rest h
  obtain ⟨t, -, rfl, -⟩ := run_eat_eq_ok.1 h
  exact ⟨[t], rfl, by simp⟩

theorem reports_eat (N : Nat) (kind : TokenKind) : Reports N (eat false kind) :=
  fun _ _ _ _ h => run_eat_eq_error h

theorem takes_eatText (kind : TokenKind) : Takes 1 (eatText false kind) := by
  intro ts s rest h
  obtain ⟨t, -, rfl, -⟩ := run_eatText_eq_ok.1 h
  exact ⟨[t], rfl, by simp⟩

theorem reports_eatText (N : Nat) (kind : TokenKind) : Reports N (eatText false kind) := by
  intro ts e hlen hdecodes h
  rcases run_bind_eq_error.1 h with h | ⟨r, us, heat, h⟩
  · exact run_eat_eq_error h
  · obtain ⟨t, -, -, rfl⟩ := run_eat_eq_ok.1 heat
    cases h

theorem reports_pure (N : Nat) (a : α) : Reports N (pure a : Parse α) := by
  intro ts e _ _ h
  cases h

/-! ### Chains -/

section Chain

variable {operator? : Token → Option BinaryOp} {B : Token → BinaryOp → Prop} {D : Phrase Node}
  {F : Token → Prop} {operand : Parse Node}

/-- One round of a chain: an operator and its right operand, or the end. -/
theorem run_chainFrom (n : Nat) (left : Node) (ts : List Token) :
    (chainFrom operator? operand (n + 1) left).run ts =
      match ts.head?.bind operator? with
      | some op => (do
          let right ← operand
          chainFrom operator? operand n (.binary left op right)).run ts.tail
      | none => .ok (left, ts) := by
  change (match ts.head?.bind operator? with
    | some op => (do
        advance
        let right ← operand
        chainFrom operator? operand n (.binary left op right))
    | none => pure left : Parse Node).run ts = _
  split <;> rfl

/-- The part that was read so far is a chain already, and stays one with every round. -/
theorem sound_chainFrom (hop : ∀ t op, operator? t = some op ↔ B t op) (h : Sound D F operand)
    (n : Nat) {left a : Node} {front ts rest : List Token} (hleft : Chain B D front left)
    (hts : Stops F ts) (hrun : (chainFrom operator? operand n left).run ts = .ok (a, rest)) :
    ∃ used, ts = used ++ rest ∧ Chain B D (front ++ used) a ∧
      Stops (fun t => (∃ op, B t op) ∨ F t) rest := by
  induction n generalizing left front ts with
  | zero => cases hrun
  | succ n ih =>
    rw [run_chainFrom] at hrun
    rcases ts with _ | ⟨t, ts⟩
    · cases hrun
      exact ⟨[], rfl, by simpa using hleft, by simp [Stops]⟩
    · rcases hop? : operator? t with _ | op
      · simp only [List.head?_cons, Option.bind_some, hop?] at hrun
        cases hrun
        refine ⟨[], rfl, by simpa using hleft, fun u hu => ?_⟩
        cases hu
        simp only [← hop, hop?, reduceCtorEq, exists_false, false_or]
        exact hts t rfl
      · simp only [List.head?_cons, Option.bind_some, hop?, List.tail_cons] at hrun
        obtain ⟨b, us, hb, hfrom⟩ := run_bind_eq_ok.1 hrun
        obtain ⟨used, rfl, hused, hus⟩ := h hb
        obtain ⟨more, rfl, hmore, hrest⟩ := ih (hleft.more ((hop t op).1 hop?) hused) hus hfrom
        exact ⟨t :: used ++ more, by simp, by simpa using hmore, hrest⟩

/-- What is read of a chain is spelled by the tokens that were taken. -/
theorem Sound.chain (hop : ∀ t op, operator? t = some op ↔ B t op) (h : Sound D F operand)
    (n : Nat) :
    Sound (Chain B D) (fun t => (∃ op, B t op) ∨ F t) (chain n operator? operand) := by
  intro ts a rest hrun
  obtain ⟨left, us, hleft, hfrom⟩ := run_bind_eq_ok.1 hrun
  obtain ⟨front, rfl, hfront, hus⟩ := h hleft
  obtain ⟨used, rfl, hused, hrest⟩ := sound_chainFrom hop h n (.one hfront) hus hfrom
  exact ⟨front ++ used, by simp, hused, hrest⟩

/-- Where a chain ends, its parser goes on with the tree of the chain. -/
theorem run_chain (hop : ∀ t op, operator? t = some op ↔ B t op)
    (hF : ∀ t op, B t op → ¬ F t) (hD : ∀ ts a, D ts a → ts ≠ []) {n N : Nat} (hN : N ≤ n + 1)
    (h : Complete N D F operand) {ts : List Token} {a : Node} (hts : Chain B D ts a)
    {rest : List Token}
    (hlen : (ts ++ rest).length < N) (hrest : Stops F rest) :
    ∃ k, rest.length < k ∧
      (chain n operator? operand).run (ts ++ rest) =
        (chainFrom operator? operand k a).run rest := by
  induction hts generalizing rest with
  | one hts =>
    refine ⟨n, ?_, run_bind_of_ok (h hlen hts hrest) _⟩
    have hpos := List.length_pos_iff.2 (hD _ _ hts)
    rw [List.length_append] at hlen
    omega
  | @more ts us a b t op _ hB hus ih =>
    rw [List.append_assoc, List.cons_append] at hlen ⊢
    obtain ⟨k, hk, hrun⟩ := ih hlen (stops_cons (hF t op hB) _)
    obtain ⟨k, rfl⟩ : ∃ k', k = k' + 1 := ⟨k - 1, by simp at hk; omega⟩
    refine ⟨k, by simp at hk; omega, ?_⟩
    rw [hrun, run_chainFrom]
    simp only [List.head?_cons, Option.bind_some, (hop t op).2 hB, List.tail_cons]
    refine run_bind_of_ok (h ?_ hus hrest) _
    simp at hlen ⊢
    omega

/-- Every chain is read, if the tokens are fewer than the bound on the rounds. -/
theorem Complete.chain (hop : ∀ t op, operator? t = some op ↔ B t op)
    (hF : ∀ t op, B t op → ¬ F t) (hD : ∀ ts a, D ts a → ts ≠ []) {n N : Nat} (hN : N ≤ n + 1)
    (h : Complete N D F operand) :
    Complete N (Chain B D) (fun t => (∃ op, B t op) ∨ F t) (chain n operator? operand) := by
  intro ts a rest hlen hts hrest
  obtain ⟨k, hk, hrun⟩ := run_chain hop hF hD hN h hts hlen (hrest.mono fun _ => .inr)
  obtain ⟨k, rfl⟩ : ∃ k', k = k' + 1 := ⟨k - 1, by omega⟩
  rw [hrun, run_chainFrom]
  have hnone : rest.head?.bind operator? = none := by
    rcases rest with _ | ⟨t, rest⟩
    · rfl
    · rw [List.head?_cons, Option.bind_some, Option.eq_none_iff_forall_ne_some]
      exact fun op ht => hrest t rfl (.inl ⟨op, (hop t op).1 ht⟩)
  rw [hnone]

/-- Each round of a chain takes a token, so that the bound is not reached. -/
theorem reports_chainFrom {N : Nat} (h : Reports N operand) (htakes : Takes 1 operand) {k M : Nat}
    (hMk : M ≤ k) (hMN : M ≤ N) (left : Node) :
    Reports M (chainFrom operator? operand k left) := by
  induction k generalizing M left with
  | zero => exact fun ts e hlen => by omega
  | succ k ih =>
    intro ts e hlen hdecodes hrun
    rw [run_chainFrom] at hrun
    split at hrun
    · next op hop =>
        obtain ⟨t, ts, rfl⟩ : ∃ t us, ts = t :: us := by
          rcases ts with _ | ⟨t, us⟩
          · cases hop
          · exact ⟨t, us, rfl⟩
        have hnext (right : Node) :
            Reports (M - 1 - 1) (chainFrom operator? operand k (.binary left op right)) :=
          ih (by omega) (by omega) _
        have hloop := Reports.bind (h.mono (Nat.le_trans (Nat.sub_le M 1) hMN)) htakes hnext
        refine hloop ?_ (fun u hu => hdecodes u (List.mem_cons_of_mem _ hu)) hrun
        rw [List.length_cons] at hlen
        exact Nat.lt_sub_of_add_lt hlen
    · cases hrun

theorem Reports.chain {n N : Nat} (hN : N ≤ n + 1) (h : Reports N operand)
    (htakes : Takes 1 operand) :
    Reports N (chain n operator? operand) :=
  h.bind htakes fun left => reports_chainFrom h htakes (by omega) (by omega) left

/-- A level of operators reads exactly the chains of what its operands read. -/
theorem Reads.chain (hop : ∀ t op, operator? t = some op ↔ B t op) (hF : ∀ t op, B t op → ¬ F t)
    (hD : ∀ ts a, D ts a → ts ≠ []) {n : Nat} (h : Reads (n + 1) D F operand) :
    Reads (n + 1) (Chain B D) (fun t => (∃ op, B t op) ∨ F t) (chain n operator? operand) :=
  ⟨h.sound.chain hop n, h.complete.chain hop hF hD (Nat.le_refl _),
    h.reports.chain (Nat.le_refl _) (h.sound.takes hD)⟩

end Chain

/-! ### Operators before an operand -/

section Prefixed

variable {operator? : Token → Option UnaryOp} {U : Token → UnaryOp → Prop} {D : Phrase Node}
  {F : Token → Prop} {operand : Parse Node}

/-- The operators in front are read at once, and wrapped around the operand from the inside out. -/
theorem run_unaryLevel (ts : List Token) : (unaryLevel operator? operand).run ts =
    ((fun a => (leadingOperators operator? ts).1.foldr Node.unary a) <$> operand).run
      (leadingOperators operator? ts).2 := by
  rw [map_eq_pure_bind]
  rfl

theorem run_unaryLevel_cons {t : Token} {op : UnaryOp} (h : operator? t = some op)
    (ts : List Token) : (unaryLevel operator? operand).run (t :: ts) =
      (Node.unary op <$> unaryLevel operator? operand).run ts := by
  have hlead : leadingOperators operator? (t :: ts) =
      (op :: (leadingOperators operator? ts).1, (leadingOperators operator? ts).2) := by
    simp only [leadingOperators, h]
  rw [run_map, run_unaryLevel, run_unaryLevel, hlead, run_map, run_map]
  rcases operand.run (leadingOperators operator? ts).2 with _ | ⟨_, _⟩ <;> rfl

theorem run_unaryLevel_of_none {t : Token} (h : operator? t = none) (ts : List Token) :
    (unaryLevel operator? operand).run (t :: ts) = operand.run (t :: ts) := by
  have hlead : leadingOperators operator? (t :: ts) = ([], t :: ts) := by
    simp only [leadingOperators, h]
  rw [run_unaryLevel, hlead, run_map]
  rcases operand.run (t :: ts) with _ | ⟨_, _⟩ <;> rfl

theorem run_unaryLevel_nil : (unaryLevel operator? operand).run [] = operand.run [] := by
  have hlead : leadingOperators operator? [] = ([], []) := rfl
  rw [run_unaryLevel, hlead, run_map]
  rcases operand.run [] with _ | ⟨_, _⟩ <;> rfl

/-- What is read with operators in front is spelled so. -/
theorem Sound.unaryLevel (hop : ∀ t op, operator? t = some op ↔ U t op) (h : Sound D F operand) :
    Sound (Prefixed U D) F (unaryLevel operator? operand) := by
  intro ts
  induction ts with
  | nil =>
    intro a rest hrun
    rw [run_unaryLevel_nil] at hrun
    obtain ⟨used, hts, hused, hrest⟩ := h hrun
    exact ⟨used, hts, .one hused, hrest⟩
  | cons t ts ih =>
    intro a rest hrun
    rcases hop? : operator? t with _ | op
    · rw [run_unaryLevel_of_none hop?] at hrun
      obtain ⟨used, hts, hused, hrest⟩ := h hrun
      exact ⟨used, hts, .one hused, hrest⟩
    · rw [run_unaryLevel_cons hop?, map_eq_pure_bind] at hrun
      obtain ⟨b, us, hb, hpure⟩ := run_bind_eq_ok.1 hrun
      cases hpure
      obtain ⟨used, rfl, hused, hrest⟩ := ih hb
      exact ⟨t :: used, rfl, .more ((hop t op).1 hop?) hused, hrest⟩

/-- An operand with operators in front is read, if no operand starts with such an operator. -/
theorem Complete.unaryLevel (hop : ∀ t op, operator? t = some op ↔ U t op)
    (hfirst : ∀ ts a, D ts a → ∃ t us, ts = t :: us ∧ ∀ op, ¬ U t op) {N : Nat}
    (h : Complete N D F operand) :
    Complete N (Prefixed U D) F (unaryLevel operator? operand) := by
  intro ts a rest hlen hts hrest
  induction hts with
  | @one ts a hD =>
    obtain ⟨t, us, rfl, ht⟩ := hfirst ts a hD
    rw [List.cons_append, run_unaryLevel_of_none]
    · exact h hlen hD hrest
    · rw [Option.eq_none_iff_forall_ne_some]
      exact fun op hop? => ht op ((hop t op).1 hop?)
  | @more ts a t op hU _ ih =>
    rw [List.cons_append, run_unaryLevel_cons ((hop t op).2 hU), run_map, ih]
    rw [List.cons_append, List.length_cons] at hlen
    omega

theorem Reports.unaryLevel {N : Nat} (h : Reports N operand) :
    Reports N (unaryLevel operator? operand) := by
  intro ts
  induction ts with
  | nil =>
    intro e hlen hdecodes hrun
    rw [run_unaryLevel_nil] at hrun
    exact h hlen hdecodes hrun
  | cons t ts ih =>
    intro e hlen hdecodes hrun
    rcases hop? : operator? t with _ | op
    · rw [run_unaryLevel_of_none hop?] at hrun
      exact h hlen hdecodes hrun
    · rw [run_unaryLevel_cons hop?, map_eq_pure_bind] at hrun
      rcases run_bind_eq_error.1 hrun with hrun | ⟨_, _, -, hpure⟩
      · exact ih (Nat.lt_of_succ_lt hlen) (fun u hu => hdecodes u (List.mem_cons_of_mem _ hu)) hrun
      · cases hpure

/-- A level with operators in front reads exactly the operands with them. -/
theorem Reads.unaryLevel (hop : ∀ t op, operator? t = some op ↔ U t op)
    (hfirst : ∀ ts a, D ts a → ∃ t us, ts = t :: us ∧ ∀ op, ¬ U t op) {N : Nat}
    (h : Reads N D F operand) : Reads N (Prefixed U D) F (unaryLevel operator? operand) :=
  ⟨h.sound.unaryLevel hop, h.complete.unaryLevel hop hfirst, h.reports.unaryLevel⟩

end Prefixed

/-! ### Items between commas -/

section Separated

variable {D : Phrase α} {F : Token → Prop} {item : Parse α}

theorem run_commaSeparated_of_ok {n : Nat} {ts us : List Token} {a : α}
    (h : item.run ts = .ok (a, us)) :
    (commaSeparated item (n + 1)).run ts =
      if us.head?.any fun t => t.kind == .comma then
        (List.cons a <$> commaSeparated item n).run us.tail
      else .ok ([a], us) := by
  rw [commaSeparated, run_bind_of_ok h, run_bind_of_ok (run_atKind .comma us)]
  split
  · rw [run_bind_of_ok (run_advance us), map_eq_pure_bind]
  · rfl

theorem Sound.commaSeparated (h : Sound D F item) (n : Nat) :
    Sound (Separated D) (fun t => t.kind = .comma ∨ F t) (commaSeparated item n) := by
  induction n with
  | zero => exact fun ts a rest hrun => by cases hrun
  | succ n ih =>
    intro ts as rest hrun
    obtain ⟨a, us, ha, -⟩ := run_bind_eq_ok.1 hrun
    rw [run_commaSeparated_of_ok ha] at hrun
    obtain ⟨used, rfl, hused, hus⟩ := h ha
    rcases us with _ | ⟨t, us⟩
    · cases hrun
      exact ⟨used, rfl, .one hused, by simp [Stops]⟩
    · by_cases ht : t.kind = .comma
      · rw [if_pos (by simp [ht]), List.tail_cons, map_eq_pure_bind] at hrun
        obtain ⟨bs, vs, hbs, hpure⟩ := run_bind_eq_ok.1 hrun
        cases hpure
        obtain ⟨more, rfl, hmore, hrest⟩ := ih hbs
        exact ⟨used ++ t :: more, by simp, .more hused ht hmore, hrest⟩
      · rw [if_neg (by simp [ht])] at hrun
        cases hrun
        exact ⟨used, rfl, .one hused, stops_cons (not_or.2 ⟨ht, hus t rfl⟩) us⟩

/-- Items with commas between them are read, if no item goes on with a comma. -/
theorem Complete.commaSeparated {N : Nat} (h : Complete N D F item)
    (hF : ∀ t : Token, t.kind = .comma → ¬ F t) {n : Nat} (hN : N ≤ n) :
    Complete N (Separated D) (fun t => t.kind = .comma ∨ F t) (commaSeparated item n) := by
  intro ts as rest hlen hts hrest
  have hn : (ts ++ rest).length < n := Nat.lt_of_lt_of_le hlen hN
  clear hN
  induction hts generalizing n with
  | @one ts a hD =>
    obtain ⟨n, rfl⟩ : ∃ k, n = k + 1 := ⟨n - 1, by omega⟩
    have hcomma : Stops (fun t => t.kind = .comma) rest := hrest.mono fun _ => .inl
    rw [run_commaSeparated_of_ok (h hlen hD (hrest.mono fun _ => .inr)), hcomma.any_kind]
    rfl
  | @more ts us a as t hD ht _ ih =>
    obtain ⟨n, rfl⟩ : ∃ k, n = k + 1 := ⟨n - 1, by omega⟩
    rw [List.append_assoc, List.cons_append] at hlen hn ⊢
    rw [run_commaSeparated_of_ok (h hlen hD (stops_cons (hF t ht) _)), if_pos (by simp [ht]),
      run_map, List.tail_cons, ih]
    · simp at hlen ⊢
      omega
    · simp at hn ⊢
      omega

theorem Reports.commaSeparated {N : Nat} (h : Reports N item) (htakes : Takes 1 item) {n M : Nat}
    (hMn : M ≤ n) (hMN : M ≤ N) : Reports M (commaSeparated item n) := by
  induction n generalizing M with
  | zero => exact fun ts e hlen => by omega
  | succ n ih =>
    refine (h.mono hMN).bind htakes fun a ts e hlen hdecodes hrun => ?_
    rw [run_bind_of_ok (run_atKind .comma ts)] at hrun
    split at hrun
    · rw [run_bind_of_ok (run_advance ts)] at hrun
      rcases run_bind_eq_error.1 hrun with hrun | ⟨_, _, -, hpure⟩
      · refine ih (M := M - 1) (by omega) (by omega) ?_
          (fun t ht => hdecodes t (List.mem_of_mem_tail ht)) hrun
        rw [List.length_tail]
        omega
      · cases hpure
    · cases hrun

theorem run_itemsUntil_cons (n : Nat) (closing : TokenKind) (t : Token) (ts : List Token) :
    (itemsUntil n closing item).run (t :: ts) =
      if t.kind = closing then .ok ([], t :: ts) else (commaSeparated item n).run (t :: ts) := by
  change (if t.kind = closing then pure [] else Parse.commaSeparated item n).run (t :: ts) = _
  split <;> rfl

theorem Sound.itemsUntil (h : Sound D F item) (n : Nat) (closing : TokenKind) :
    Sound (Listed D) (fun _ => False) (itemsUntil n closing item) := by
  intro ts as rest hrun
  rcases ts with _ | ⟨t, ts⟩
  · cases hrun
    exact ⟨[], rfl, .none, fun _ _ => id⟩
  · rw [run_itemsUntil_cons] at hrun
    split at hrun
    · cases hrun
      exact ⟨[], rfl, .none, fun _ _ => id⟩
    · obtain ⟨used, hts, hused, -⟩ := h.commaSeparated n hrun
      exact ⟨used, hts, .some hused, fun _ _ => id⟩

theorem Complete.itemsUntil {N : Nat} (h : Complete N D F item)
    (hF : ∀ t : Token, t.kind = .comma → ¬ F t) {n : Nat} (hN : N ≤ n) {closing : TokenKind}
    (hclosing : ∀ t : Token, t.kind = closing → ¬ F t ∧ t.kind ≠ .comma)
    (hfirst : ∀ ts a, D ts a → ∃ t us, ts = t :: us ∧ t.kind ≠ closing) :
    Complete N (Listed D) (fun t => t.kind ≠ closing) (itemsUntil n closing item) := by
  intro ts as rest hlen hts hrest
  cases hts with
  | none =>
    rcases rest with _ | ⟨c, rest⟩
    · rfl
    · rw [List.nil_append, run_itemsUntil_cons, if_pos (Decidable.not_not.1 (hrest c rfl))]
  | some hD =>
    have hstop : Stops (fun t => t.kind = .comma ∨ F t) rest := fun c hc =>
      not_or.2 (hclosing c (Decidable.not_not.1 (hrest c hc))).symm
    have hrun := h.commaSeparated hF hN hlen hD hstop
    obtain ⟨t, us, rfl, ht⟩ : ∃ t us, ts = t :: us ∧ t.kind ≠ closing := by
      cases hD with
      | one hD => exact hfirst _ _ hD
      | more hD _ _ =>
        obtain ⟨t, us, rfl, ht⟩ := hfirst _ _ hD
        exact ⟨t, _, rfl, ht⟩
    rw [List.cons_append] at hrun ⊢
    rw [run_itemsUntil_cons, if_neg ht, hrun]

theorem Reports.itemsUntil {N : Nat} (h : Reports N item) (htakes : Takes 1 item) {n : Nat}
    (hN : N ≤ n) (closing : TokenKind) : Reports N (itemsUntil n closing item) := by
  intro ts e hlen hdecodes hrun
  rcases ts with _ | ⟨t, ts⟩
  · cases hrun
  · rw [run_itemsUntil_cons] at hrun
    split at hrun
    · cases hrun
    · exact h.commaSeparated htakes hN (Nat.le_refl N) hlen hdecodes hrun

end Separated

/-! ### Phrases before a closing token -/

section Closed

variable {D : Phrase α} {F : Token → Prop} {p : Parse α} {f : α → Parse β} {closing : TokenKind}

theorem Sound.run_closed (h : Sound D F p) {ts rest : List Token} {b : β}
    (hrun : (do let a ← p; let _ ← eat false closing; f a).run ts = .ok (b, rest)) :
    ∃ used a c us, ts = used ++ c :: us ∧ D used a ∧ c.kind = closing ∧
      (f a).run us = .ok (b, rest) := by
  obtain ⟨a, vs, ha, hclosed⟩ := run_bind_eq_ok.1 hrun
  obtain ⟨_, us, heat, hf⟩ := run_bind_eq_ok.1 hclosed
  obtain ⟨c, hc, rfl, -⟩ := run_eat_eq_ok.1 heat
  obtain ⟨used, rfl, hused, -⟩ := h ha
  exact ⟨used, a, c, us, rfl, hused, hc, hf⟩

theorem Complete.run_closed {N : Nat} (h : Complete N D (fun t => t.kind ≠ closing) p)
    {used rest : List Token} {a : α} {c : Token} (hlen : (used ++ c :: rest).length < N)
    (hused : D used a) (hc : c.kind = closing) :
    (do let a ← p; let _ ← eat false closing; f a).run (used ++ c :: rest) = (f a).run rest := by
  have hstop : Stops (fun t => t.kind ≠ closing) (c :: rest) := stops_cons (· hc) rest
  rw [run_bind_of_ok (h hlen hused hstop), run_bind_of_ok (run_eat_eq_ok.2 ⟨c, hc, rfl, rfl⟩)]

theorem Reports.closed {N : Nat} (h : Reports N p) (hsound : Sound D F p)
    (hf : ∀ a, Reports (N - 1) (f a)) :
    Reports N (do let a ← p; let _ ← eat false closing; f a) := by
  have htakes : Takes 0 p := by
    intro ts a rest hrun
    obtain ⟨used, hts, -, -⟩ := hsound hrun
    exact ⟨used, hts, Nat.zero_le _⟩
  exact h.bind htakes fun a => (reports_eat _ _).bind (takes_eat _) fun _ => hf a

end Closed

end Parse

end ScriptLang
