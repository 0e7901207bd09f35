import ScriptLang.Proofs.Parse.Expr

/-!
# Parsing statements

Every statement is first tried as an assignment: the parser reads a target and goes back to the
start unless an assignment operator follows. The trial does no harm: an expression starts either
with no target at all or with one that something else follows.
-/

namespace ScriptLang

open Grammar

namespace Parse

/-! ### Targets -/

section Target

variable {n : Nat} {expr : Parse Node}

/-- Where a path ends, the parser of targets goes on with its tree. -/
theorem run_lvalue (h : Complete n Expr extending expr) {ts rest : List Token} {a : Node}
    (hts : Path Expr ts a) (hlen : (ts ++ rest).length < n + 1) :
    ∃ k, rest.length < k ∧ k ≤ n ∧
      (lvalue false n expr).run (ts ++ rest) = (lvalueFrom false expr k a).run rest := by
  induction hts generalizing rest with
  | @name t ht =>
    refine ⟨n, by simp at hlen; omega, Nat.le_refl n, ?_⟩
    rw [List.singleton_append, lvalue, run_bind_of_ok (run_current _)]
    simp only [List.head?_cons, ht, if_true]
    exact run_bind_of_ok (run_advance _) _
  | @member ts a d m _ hd hm ih =>
    rw [List.append_assoc, List.cons_append, List.cons_append] at hlen ⊢
    obtain ⟨k, hk, hkn, hrun⟩ := ih hlen
    obtain ⟨k, rfl⟩ : ∃ k', k = k' + 1 := ⟨k - 1, by omega⟩
    refine ⟨k, by simp at hk; omega, by omega, ?_⟩
    rw [hrun, lvalueFrom, run_bind_of_ok (run_current _)]
    simp only [List.head?_cons, Option.map_some, hd]
    rw [run_bind_of_ok (run_advance _), run_bind_of_ok (run_current _)]
    simp only [List.tail_cons, List.head?_cons, hm, if_true]
    exact run_bind_of_ok (run_advance _) _
  | @index ts us a i _ hindex ih =>
    obtain @⟨o, c, us, i, ho, hindex, hc⟩ := hindex
    rw [List.append_assoc, List.append_assoc, List.cons_append] at hlen ⊢
    obtain ⟨k, hk, hkn, hrun⟩ := ih hlen
    obtain ⟨k, rfl⟩ : ∃ k', k = k' + 1 := ⟨k - 1, by omega⟩
    refine ⟨k, by simp at hk; omega, by omega, ?_⟩
    rw [hrun, lvalueFrom, run_bind_of_ok (run_current _)]
    simp only [List.head?_cons, Option.map_some, ho]
    rw [run_bind_of_ok (run_advance _)]
    exact (h.before (by simp)).run_closed (by simp at hk ⊢; omega) hindex hc

def continuesTarget (t : Token) : Prop :=
  t.kind ∈ [.dot, .lbracket] ∨ (assignOperator? t.kind).isSome

theorem run_lvalueFrom_of_stops (k : Nat) (a : Node) {ts : List Token}
    (h : Stops (fun t => t.kind ∈ [.dot, .lbracket, .lparen]) ts) :
    (lvalueFrom false expr (k + 1) a).run ts = .ok (some a, ts) := by
  rw [lvalueFrom, run_bind_of_ok (run_current _)]
  rcases ts with _ | ⟨t, ts⟩
  · rfl
  have ht := h t rfl
  simp only [List.mem_cons, List.not_mem_nil, or_false, not_or] at ht
  simp only [List.head?_cons, Option.map_some]
  split
  · next h => exact absurd (Option.some.inj h) ht.1
  · next h => exact absurd (Option.some.inj h) ht.2.1
  · next h => exact absurd (Option.some.inj h) ht.2.2
  · rfl

/-- A call is no target. -/
theorem run_lvalueFrom_lparen (k : Nat) (a : Node) {t : Token} (ht : t.kind = .lparen)
    (ts : List Token) : (lvalueFrom false expr (k + 1) a).run (t :: ts) = .ok (none, t :: ts) := by
  rw [lvalueFrom, run_bind_of_ok (run_current _)]
  simp only [List.head?_cons, Option.map_some, ht]
  rfl

theorem run_assignment?_of_operator {ts us : List Token} {a : Node} {t : Token}
    {op : Option AssignOp} (h : (lvalue false n expr).run ts = .ok (some a, t :: us))
    (hop : assignOperator? t.kind = some op) : (assignment? false n expr).run ts =
      ((fun e => some (assignment a op e)) <$> expr).run us := by
  have hget : (get : Parse (List Token)).run ts = .ok (ts, ts) := rfl
  rw [assignment?, run_bind_of_ok hget, run_bind_of_ok h, run_bind_of_ok (run_current _)]
  simp only [List.head?_cons, Option.bind_some, hop]
  rw [run_bind_of_ok (run_advance _), map_eq_pure_bind, List.tail_cons]

theorem run_assignment?_of_none {ts us : List Token} {target : Option Node}
    (h : (lvalue false n expr).run ts = .ok (target, us))
    (hnone : target = none ∨ Stops (fun t => (assignOperator? t.kind).isSome) us) :
    (assignment? false n expr).run ts = .ok (none, ts) := by
  have hget : (get : Parse (List Token)).run ts = .ok (ts, ts) := rfl
  rw [assignment?, run_bind_of_ok hget, run_bind_of_ok h, run_bind_of_ok (run_current _)]
  split
  · next a op hop =>
    rcases us with _ | ⟨t, us⟩
    · cases hop
    · rcases hnone with hnone | hnone
      · cases hnone
      · exact absurd (Option.isSome_of_eq_some hop) (hnone t rfl)
  · rfl

/-- A path that no assignment follows is no assignment. -/
theorem run_assignment?_path (h : Complete n Expr extending expr) {ts rest : List Token} {a : Node}
    (hts : Path Expr ts a) (hlen : (ts ++ rest).length < n + 1)
    (hrest : Stops continuesTarget rest) :
    (assignment? false n expr).run (ts ++ rest) = .ok (none, ts ++ rest) := by
  obtain ⟨k, hk, -, hrun⟩ := run_lvalue h hts hlen
  obtain ⟨k, rfl⟩ : ∃ k', k = k' + 1 := ⟨k - 1, by omega⟩
  by_cases hparen : ∃ t us, rest = t :: us ∧ t.kind = .lparen
  · obtain ⟨t, us, rfl, ht⟩ := hparen
    rw [run_lvalueFrom_lparen k a ht] at hrun
    exact run_assignment?_of_none hrun (.inl rfl)
  · rw [run_lvalueFrom_of_stops] at hrun
    · exact run_assignment?_of_none hrun (.inr fun t ht hop => hrest t ht (.inr hop))
    · intro t ht hkind
      rcases rest with _ | ⟨u, us⟩
      · cases ht
      · cases ht
        have hpath := hrest t rfl
        simp only [continuesTarget, List.mem_cons, List.not_mem_nil, or_false, not_or] at hpath
        simp only [List.mem_cons, List.not_mem_nil, or_false] at hkind
        rcases hkind with hkind | hkind | hkind
        · exact hpath.1.1 hkind
        · exact hpath.1.2 hkind
        · exact hparen ⟨t, us, rfl, hkind⟩

/-- An assignment is read to the end of its value. -/
theorem run_assignment?_operator (h : Complete n Expr extending expr) {ts us rest : List Token}
    {a e : Node} {t : Token} {op : Option AssignOp} (hts : Path Expr ts a)
    (hop : assignOperator? t.kind = some op) (hus : Expr us e)
    (hlen : (ts ++ t :: (us ++ rest)).length < n + 1) (hrest : Stops extending rest) :
    (assignment? false n expr).run (ts ++ t :: (us ++ rest)) =
      .ok (some (assignment a op e), rest) := by
  obtain ⟨k, hk, -, hrun⟩ := run_lvalue h hts hlen
  obtain ⟨k, rfl⟩ : ∃ k', k = k' + 1 := ⟨k - 1, by omega⟩
  rw [run_lvalueFrom_of_stops] at hrun
  · rw [run_assignment?_of_operator hrun hop, run_map, h ?_ hus hrest]
    simp at hlen ⊢
    omega
  · rintro u ⟨⟩ hkind
    simp only [List.mem_cons, List.not_mem_nil, or_false] at hkind
    rcases hkind with hkind | hkind | hkind <;> rw [hkind] at hop <;> cases hop

theorem run_assignment?_of_kind {t : Token} (ht : t.kind ≠ .name) (ts : List Token) :
    (assignment? false n expr).run (t :: ts) = .ok (none, t :: ts) := by
  have hrun : (lvalue false n expr).run (t :: ts) = .ok (none, t :: ts) := by
    rw [lvalue, run_bind_of_ok (run_current _)]
    simp only [List.head?_cons, ht, if_false]
    rfl
  exact run_assignment?_of_none hrun (.inl rfl)

end Target

/-! ### What an expression starts with -/

/-- The tokens start with a path after which no target goes on. -/
def StartsWithPath (ts : List Token) : Prop :=
  ∃ us a rest, ts = us ++ rest ∧ Path Expr us a ∧ Stops continuesTarget rest

theorem StartsWithPath.append {ts us : List Token} (h : StartsWithPath ts)
    (hus : Stops continuesTarget us) : StartsWithPath (ts ++ us) := by
  obtain ⟨vs, a, rest, rfl, hvs, hrest⟩ := h
  refine ⟨vs, a, rest ++ us, List.append_assoc _ _ _, hvs, ?_⟩
  rcases rest with _ | ⟨t, rest⟩
  · exact hus
  · exact hrest

/-- Tokens after which a path is longer are no end of the path. -/
theorem StartsWithPath.extend {ts us : List Token} (h : StartsWithPath ts)
    (hus : ∀ vs a, Path Expr vs a → ∃ b, Path Expr (vs ++ us) b) : StartsWithPath (ts ++ us) := by
  obtain ⟨vs, a, rest, rfl, hvs, hrest⟩ := h
  rcases rest with _ | ⟨t, rest⟩
  · obtain ⟨b, hb⟩ := hus vs a hvs
    exact ⟨vs ++ us, b, [], by simp, hb, by simp [Stops]⟩
  · exact ⟨vs, a, t :: rest ++ us, by simp, hvs, hrest⟩

def LeadsPath (D : Phrase Node) : Prop :=
  ∀ ts a, D ts a → (∀ t ∈ ts.head?, t.kind = .name) → StartsWithPath ts

theorem not_continuesTarget {t : Token}
    (h : t.kind ∉ [.dot, .lbracket, .equal, .plusEq, .minusEq, .multEq, .divEq]) :
    ¬ continuesTarget t := by
  unfold continuesTarget assignOperator?
  revert h
  cases t.kind <;> decide

theorem forall_head?_of_append {P : Token → Prop} {ts us : List Token}
    (h : ∀ t ∈ (ts ++ us).head?, P t) : ∀ t ∈ ts.head?, P t := by
  intro t ht
  refine h t ?_
  rw [List.head?_append, Option.mem_def.1 ht]
  rfl

theorem leadsPath_primary : LeadsPath (Primary Expr) := by
  intro ts a hts hname
  cases hts with
  | number hk => cases hk.symm.trans (hname _ rfl)
  | text hk => rcases hk with hk | hk <;> cases hk.symm.trans (hname _ rfl)
  | @name t hk => exact ⟨[t], _, [], rfl, .name hk, by simp [Stops]⟩
  | list h | dict h | group h =>
    obtain ⟨o, us, rfl, hk⟩ := begins_enclosed _ _ h
    cases hk.symm.trans (hname o rfl)

theorem leadsPath_postfixed : LeadsPath (Postfixed Expr) := by
  intro ts a hts hname
  induction hts with
  | one hts => exact leadsPath_primary _ _ hts hname
  | member _ hd hm ih =>
    exact (ih (forall_head?_of_append hname)).extend fun vs a hvs => ⟨_, hvs.member hd hm⟩
  | call _ hargs ih =>
    obtain ⟨o, us, rfl, ho⟩ := begins_enclosed _ _ hargs
    exact (ih (forall_head?_of_append hname)).append
      (stops_cons (not_continuesTarget (by simp [ho])) us)
  | index _ hindex ih =>
    exact (ih (forall_head?_of_append hname)).extend fun vs a hvs => ⟨_, hvs.index hindex⟩

theorem LeadsPath.chain {B : Token → BinaryOp → Prop} {D : Phrase Node} (h : LeadsPath D)
    (hB : ∀ t op, B t op → ¬ continuesTarget t) :
    LeadsPath (Chain B D) := by
  intro ts a hts hname
  induction hts with
  | one hts => exact h _ _ hts hname
  | more _ hop _ ih =>
    exact (ih (forall_head?_of_append hname)).append (stops_cons (hB _ _ hop) _)

theorem LeadsPath.prefixed {U : Token → UnaryOp → Prop} {D : Phrase Node} (h : LeadsPath D)
    (hU : ∀ t op, U t op → t.kind ≠ .name) : LeadsPath (Prefixed U D) := by
  intro ts a hts hname
  cases hts with
  | one hts => exact h _ _ hts hname
  | more hop _ => exact absurd (hname _ rfl) (hU _ _ hop)

theorem leadsPath_disjunction : LeadsPath (Disjunction Expr) := by
  have hunary : LeadsPath (Unary Expr) := leadsPath_postfixed.prefixed fun t op h => by simp [h.1]
  have hcomparison : LeadsPath (Comparison Expr) := by
    refine ((hunary.chain ?_).chain ?_).chain ?_
    · exact fun t op h => not_continuesTarget (by simp [h.1])
    · exact fun t op h => not_continuesTarget (by simp [h.1])
    · refine fun t op h => not_continuesTarget ?_
      have hkind := h.1
      simp only [comparisonKinds, List.mem_cons, List.not_mem_nil, or_false] at hkind
      rcases hkind with hk | hk | hk | hk | hk | hk <;> simp [hk]
  have hnegation : LeadsPath (Negation Expr) := hcomparison.prefixed fun t op h => by simp [h.1]
  refine (hnegation.chain ?_).chain ?_
  · exact fun t op h => not_continuesTarget (by simp [h.1])
  · exact fun t op h => not_continuesTarget (by simp [h.1])

/-- An expression that starts with a name starts with a path. -/
theorem leadsPath_expr : LeadsPath Expr := by
  rintro ts a ⟨hts⟩ hname
  cases hts with
  | plain hts => exact leadsPath_disjunction _ _ hts hname
  | choice hts hq _ _ _ =>
    rw [List.append_assoc] at hname ⊢
    have hpath := leadsPath_disjunction _ _ hts (forall_head?_of_append hname)
    exact hpath.append (stops_cons (not_continuesTarget (by simp [hq])) _)

/-- An expression is no assignment. -/
theorem run_assignment?_expr {n : Nat} {expr : Parse Node} (h : Complete n Expr extending expr)
    {ts rest : List Token} {e : Node} (hts : Expr ts e) (hlen : (ts ++ rest).length < n + 1)
    (hrest : Stops continuesTarget rest) :
    (assignment? false n expr).run (ts ++ rest) = .ok (none, ts ++ rest) := by
  obtain ⟨t, us, rfl, -⟩ := begins_expr ts e hts
  by_cases ht : t.kind = .name
  · have hname : ∀ u ∈ (t :: us).head?, u.kind = .name := by
      rintro u ⟨⟩
      exact ht
    obtain ⟨vs, a, more, heq, hvs, hmore⟩ := (leadsPath_expr _ _ hts hname).append hrest
    rw [heq] at hlen ⊢
    exact run_assignment?_path h hvs hlen hmore
  · exact run_assignment?_of_kind ht _

/-! ### Parameters -/

theorem complete_typeAfter (N : Nat) (mark : TokenKind) :
    Complete N (TypeAfter mark) (fun t => t.kind = mark) (typeAfter false mark) := by
  intro ts type rest _ hts hrest
  rw [typeAfter, run_bind_of_ok (run_atKind _ _)]
  cases hts with
  | none =>
    rw [List.nil_append, hrest.any_kind]
    rfl
  | @some m t hm ht =>
    rw [if_pos (by simp [hm]), run_bind_of_ok (run_advance _)]
    exact run_eatText_eq_ok.2 ⟨t, ht, rfl, rfl⟩

/-- A parameter is read with its type and its default. -/
theorem complete_parameter {n : Nat} {expr : Parse Node} (h : Complete n Expr extending expr) :
    Complete n (Parameter Expr) (fun t => t.kind ∈ [.colon, .equal] ∨ extending t)
      (parameter false expr) := by
  rintro _ _ rest hlen ⟨hname, htype, hdefault⟩ hrest
  rename_i m ts us type a
  rw [List.append_assoc, List.cons_append] at hlen ⊢
  simp only [List.length_cons, List.length_append] at hlen
  have hcolon : Stops (fun t => t.kind = .colon) (us ++ rest) := by
    cases hdefault with
    | none => exact hrest.mono fun t ht => .inl (by simp [ht])
    | some hq _ => exact stops_cons (by simp [hq]) _
  have hafter := complete_typeAfter n .colon (by simp; omega) htype hcolon
  rw [parameter, run_bind_of_ok (run_eatText_eq_ok.2 ⟨m, hname, rfl, rfl⟩),
    run_bind_of_ok hafter, run_bind_of_ok (run_atKind _ _)]
  cases hdefault with
  | none =>
    have hequal : Stops (fun t => t.kind = .equal) rest :=
      hrest.mono fun t ht => .inl (by simp [ht])
    rw [List.nil_append, hequal.any_kind]
    rfl
  | @some q us a hq hus =>
    have hexpr := h (by simp at hlen ⊢; omega) hus (hrest.mono fun t ht => .inr ht)
    rw [if_pos (by simp [hq]), run_bind_of_ok (run_advance _)]
    exact run_bind_of_ok hexpr _

theorem complete_parameters {n : Nat} {expr : Parse Node} (h : Complete n Expr extending expr) :
    Complete n (Listed (Parameter Expr)) (fun t => t.kind ≠ .rparen)
      (itemsUntil n .rparen (parameter false expr)) := by
  refine (complete_parameter h).itemsUntil ?_ (Nat.le_refl n) ?_ ?_
  · exact fun t ht => not_or.2 ⟨by simp [ht], not_extending (by simp [ht])⟩
  · exact fun t ht => ⟨not_or.2 ⟨by simp [ht], not_extending (by simp [ht])⟩, by simp [ht]⟩
  · rintro _ _ ⟨hname, -, -⟩
    exact ⟨_, _, rfl, by simp [hname]⟩

end Parse

end ScriptLang
