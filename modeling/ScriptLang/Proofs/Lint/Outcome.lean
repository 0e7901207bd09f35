import Mathlib.Data.List.Forall2
import ScriptLang.Lint.Check
import ScriptLang.Proofs.Parse.Progress
import ScriptLang.Proofs.Run.Furnish

/-!
# How checking a program ends

Checking starts an interpreter and enables its modules once more, which ends the program with a
notice, for `import` is by then no longer the list of a module. So whatever program can be parsed,
it is not analysed. A notice of the parser ends the program as well. A list of errors is given only
for a text without tokens, and where a literal has no value. Stray characters have notices of their
own, and are passed over.
-/

namespace ScriptLang

/-! ### Stray characters -/

def Notice.IsStray (n : Notice) (t : Token) : Prop :=
  n.form.number = "0001" ∧ n.items = [("value!r", Text.quote t.text), ("line_num", toString t.line)]

/-- Sifting lexemes is sorting out their tokens. -/
theorem Lexeme.sift_splits (line : Nat) (ls : List Lexeme) :
    (sift line ls).1 = (toTokens line ls).filter (·.kind ≠ .mismatch) ∧
      List.Forall₂ Notice.IsStray (sift line ls).2
        ((toTokens line ls).filter (·.kind = .mismatch)) := by
  induction ls generalizing line with
  | nil => exact ⟨rfl, .nil⟩
  | cons l ls ih =>
    obtain ⟨htokens, hstray⟩ := ih (line + l.newlines)
    rw [sift, toTokens]
    cases hgap : l.kind.isGap with
    | true => exact ⟨htokens, hstray⟩
    | false =>
      by_cases hkind : l.kind = .mismatch
      · have hfirst : (l.stray line).IsStray ⟨l.kind, String.ofList l.text, line⟩ := ⟨rfl, rfl⟩
        simpa [hkind, htokens] using List.Forall₂.cons (hkind ▸ hfirst) hstray
      · simpa [hkind, htokens] using hstray

/-- Checking a program reads the same tokens as running it, but for those of stray characters, and
has one notice for each of these, with its text and its line. -/
theorem tokenizeReporting_splits (s : String) :
    (tokenizeReporting s).1 = (tokenize s).filter (·.kind ≠ .mismatch) ∧
      List.Forall₂ Notice.IsStray (tokenizeReporting s).2
        ((tokenize s).filter (·.kind = .mismatch)) :=
  Lexeme.sift_splits 1 (Lexeme.split s)

/-! ### Errors that are listed -/

namespace Exec

/-- A listed error is the error of a notice. -/
def Tells (st : Store) (s : Signal) (n : Notice) : Prop :=
  ∃ r, s = .raised (.ref r) ∧ st.HoldsNotice r n

theorem Tells.mono {st st' : Store} {s : Signal} {n : Notice} (h : Tells st s n)
    (hgrows : Grows st st') : Tells st' s n := by
  obtain ⟨r, rfl, hr⟩ := h
  exact ⟨r, rfl, hr.mono hgrows⟩

/-- The error of a notice is a new object, and nothing else is different. -/
theorem run_noticeSignal (n : Notice) (m : Machine) : ∃ s st,
    (noticeSignal n).run m = (.ok s, { m with store := st }) ∧ Grows m.store st ∧ Tells st s n := by
  obtain ⟨r, st, hrun, hgrows, hholds⟩ := run_noticeError n m.toHost
  refine ⟨.raised (.ref r), st, ?_, hgrows, r, rfl, hholds⟩
  rw [noticeSignal, map_eq_pure_bind, run_bind, run_host_of_ok hrun]
  rfl

/-- The errors of notices, one after the other, tell them in order. -/
theorem run_mapM_noticeSignal (notices : List Notice) (m : Machine) : ∃ errors st,
    (notices.mapM noticeSignal).run m = (.ok errors, { m with store := st }) ∧
      Grows m.store st ∧ List.Forall₂ (Tells st) errors notices := by
  induction notices generalizing m with
  | nil => exact ⟨[], m.store, rfl, .refl _, .nil⟩
  | cons n notices ih =>
    obtain ⟨s, st, hrun, hgrows, htells⟩ := run_noticeSignal n m
    obtain ⟨errors, st', hrest, hgrows', hall⟩ := ih { m with store := st }
    refine ⟨s :: errors, st', ?_, hgrows.trans hgrows', .cons (htells.mono hgrows') hall⟩
    rw [List.mapM_cons, run_bind, hrun]
    dsimp only
    rw [run_bind, hrest]
    rfl

/-- Listed errors can be shown. -/
theorem run_showNumbered {m : Machine} {errors : List Signal} (i : Nat)
    (h : ∀ s ∈ errors, ∃ v, s = .raised v ∧ ∃ t, m.store.text m.reader v = .ok t) :
    ∃ m', (showNumbered i errors).run m = (.ok (), m') := by
  induction errors generalizing i m with
  | nil => exact ⟨m, rfl⟩
  | cons s errors ih =>
    rw [List.forall_mem_cons] at h
    obtain ⟨v, rfl, t, ht⟩ := h.1
    let line : Event := .styled ("[red]" ++ toString i ++ ". " ++ t ++ "[/red]") "\n"
    have hemit : (liftM (emit line) : Exec Unit).run m =
        (.ok (), { m with world := m.world.emit line }) := rfl
    obtain ⟨m', hrest⟩ := ih (m := { m with world := m.world.emit line }) (i + 1) h.2
    refine ⟨m', ?_⟩
    rw [showNumbered, run_bind, run_signalText ht]
    dsimp only [Option.getD_some]
    rw [run_bind, hemit]
    exact hrest

/-! ### Checking -/

/-- From a machine, the computation ends the program with a notice, which is all that it shows. -/
def EndsWith {α : Type} (x : Exec α) (m : Machine) (n : Notice) : Prop :=
  ∃ m' reader, x.run m = (.error (.exit (.int 1)), m') ∧
    m'.world.events = n.event reader :: m.world.events

/-- The analysis of a program is not reached. -/
theorem endsWith_checkNodes {m : Machine} (hquiet : m.isQuiet = false) (nodes : List Node) :
    EndsWith (checkNodes nodes) m (.notAList "import") := by
  obtain ⟨start, hevents, hlevel, _, m₁, hrun, hm₁⟩ := furnished_startInterpreter m
  have hloud : start.isQuiet = false := by
    simp only [Machine.isQuiet, Host.isQuiet] at hquiet ⊢
    rwa [hlevel]
  obtain ⟨m₂, reader, hagain, hshown⟩ := run_enable_again hm₁ hloud
  refine ⟨m₂, reader, ?_, hshown.trans (congrArg _ hevents)⟩
  rw [checkNodes, run_bind, hrun]
  dsimp only
  rw [run_bind, hagain]

/-- From a machine, the computation gives errors, which are those of notices. -/
def Lists (x : Exec (List Signal)) (m : Machine) (notices : List Notice) : Prop :=
  ∃ errors m', x.run m = (.ok errors, m') ∧ List.Forall₂ (Tells m'.store) errors notices

/-- How checking tokens ends, after `stray` notices, by what the parser makes of the tokens. -/
def Checks (x : Exec (List Signal)) (m : Machine) (stray : List Notice) :
    Except ParseStop (List Node) → Prop
  | .ok _ => EndsWith x m (.notAList "import")
  | .error (.reported n) => EndsWith x m n
  | .error (.raised n) => Lists x m (stray ++ [n])
  | .error (.failed f) => ∃ errors r m', x.run m = (.ok (errors ++ [.raised (.ref r)]), m') ∧
      List.Forall₂ (Tells m'.store) errors stray ∧ m'.store[r]? = some (.failure f [])
  | .error .exhausted => False

theorem Checks.congr {x y : Exec (List Signal)} {m m₁ : Machine} {stray : List Notice}
    {parsed : Except ParseStop (List Node)} (h : Checks y m₁ stray parsed)
    (hrun : x.run m = y.run m₁) (hevents : m₁.world.events = m.world.events) :
    Checks x m stray parsed := by
  have hends {n : Notice} (h : EndsWith y m₁ n) : EndsWith x m n := by
    obtain ⟨m', reader, hy, hshown⟩ := h
    exact ⟨m', reader, hrun.trans hy, hshown.trans (congrArg _ hevents)⟩
  match parsed, h with
  | .ok _, h => exact hends h
  | .error (.reported _), h => exact hends h
  | .error (.raised _), ⟨errors, m', hy, htells⟩ => exact ⟨errors, m', hrun.trans hy, htells⟩
  | .error (.failed _), ⟨errors, r, m', hy, htells⟩ => exact ⟨errors, r, m', hrun.trans hy, htells⟩

/-- Checking tokens lists the stray characters first, and then what the parser makes of the
tokens. -/
theorem checks_checkTokens {m : Machine} (hquiet : m.isQuiet = false) {errors : List Signal}
    {stray : List Notice} (htells : List.Forall₂ (Tells m.store) errors stray)
    (tokens : List Token) :
    Checks ((errors ++ ·) <$> checkTokens tokens) m stray (parseTokens false tokens) := by
  have hkept {st : Store} (hgrows : Grows m.store st) : List.Forall₂ (Tells st) errors stray :=
    htells.imp fun _ _ h => h.mono hgrows
  have hparsed : ((errors ++ ·) <$> checkTokens tokens).run m =
      (checkParsed (parseTokens false tokens) >>= fun more => pure (errors ++ more)).run m := by
    rw [map_eq_pure_bind, checkTokens, bind_assoc, run_bind, run_get, ← hquiet]
  cases hparse : parseTokens false tokens with
  | ok nodes =>
    obtain ⟨m', reader, hrun, hshown⟩ := endsWith_checkNodes hquiet nodes
    refine ⟨m', reader, ?_, hshown⟩
    rw [hparsed, hparse, run_bind, checkParsed, run_tryCatch, hrun]
    rfl
  | error stop =>
    cases stop with
    | reported n =>
      refine ⟨{ m with world := m.world.emit (n.event m.reader) }, m.reader, ?_, rfl⟩
      rw [hparsed, hparse, run_bind, checkParsed, run_bind, run_host, run_report_shown hquiet]
      rfl
    | raised n =>
      obtain ⟨s, st, hrun, hgrows, hs⟩ := run_noticeSignal n m
      refine ⟨errors ++ [s], { m with store := st }, ?_, ?_⟩
      · rw [hparsed, hparse, run_bind, checkParsed, run_bind, hrun]
        rfl
      · exact List.rel_append (hkept hgrows) (.cons hs .nil)
    | failed f =>
      refine ⟨errors, m.store.size, { m with store := m.store.push (.failure f []) }, ?_,
        hkept (.push _ _), Array.getElem?_push_size⟩
      rw [hparsed, hparse]
      rfl
    | exhausted =>
      have hends : parseTokens false tokens ≠ .error .exhausted :=
        (Parse.run_programFrom_of_bound_le (Nat.le_refl _) (Nat.le_refl _)).2
      exact hends hparse

/-- After the errors for stray characters, checking goes on with the tokens. -/
theorem run_check {m : Machine} {code : String} {errors : List Signal} {st : Store}
    (hstray : ((tokenizeReporting code).2.mapM noticeSignal).run m =
      (.ok errors, { m with store := st })) :
    (check code).run m =
      if (tokenizeReporting code).1 = [] then (.ok errors, { m with store := st })
      else
        ((errors ++ ·) <$> checkTokens (tokenizeReporting code).1).run { m with store := st } := by
  rw [check, run_bind, hstray]
  dsimp only
  by_cases hnone : (tokenizeReporting code).1 = []
  · rw [if_pos hnone, hnone]
    rfl
  · rw [if_neg hnone, if_neg (by simpa using hnone), map_eq_pure_bind]

/-- Listed errors have a text each, so that they can be shown. -/
theorem run_lint_of_errors {m m' : Machine} {code : String} {errors : List Signal}
    (hcheck : (check code).run m = (.ok errors, m'))
    (htexts : ∀ s ∈ errors, ∃ v, s = .raised v ∧ ∃ t, m'.store.text m'.reader v = .ok t) :
    ((lint code).run m).1 = .error (.exit (.int (if errors = [] then 0 else 1))) := by
  rw [lint, run_bind, hcheck]
  dsimp only
  cases errors with
  | nil => rfl
  | cons s errors =>
    let n := (s :: errors).length
    let line : Event := .styled ("[red]Lint Failed (" ++ toString n ++ " exception" ++
      (if n == 1 then "" else "s") ++ ")[/red]") "\n"
    have hemit : (liftM (emit line) : Exec Unit).run m' =
        (.ok (), { m' with world := m'.world.emit line }) := rfl
    obtain ⟨m'', hshow⟩ := run_showNumbered (m := { m' with world := m'.world.emit line }) 1 htexts
    change ((liftM (emit line) >>= fun _ => showNumbered 1 (s :: errors) >>= fun _ =>
      throw (.exit (.int 1)) : Exec Unit).run m').1 = _
    rw [run_bind, hemit]
    dsimp only
    rw [run_bind, hshow]
    rfl

/-- Every listed error has a text for every reader. -/
theorem exists_text_of_tells {st : Store} {errors : List Signal} {notices : List Notice}
    (h : List.Forall₂ (Tells st) errors notices) (reader : Option String) :
    ∀ s ∈ errors, ∃ v, s = .raised v ∧ ∃ t, st.text reader v = .ok t := by
  induction h with
  | nil => exact nofun
  | cons hs _ ih =>
    obtain ⟨r, rfl, hholds⟩ := hs
    exact List.forall_mem_cons.2 ⟨⟨.ref r, rfl, _, hholds.text_eq reader⟩, ih⟩

/-- With tokens, a text does not pass. -/
theorem run_lint_of_checks {m : Machine} {code : String} {stray : List Notice}
    {parsed : Except ParseStop (List Node)} (h : Checks (check code) m stray parsed) :
    ((lint code).run m).1 = .error (.exit (.int 1)) := by
  have hends {n : Notice} (h : EndsWith (check code) m n) :
      ((lint code).run m).1 = .error (.exit (.int 1)) := by
    obtain ⟨m', reader, hrun, -⟩ := h
    rw [lint, run_bind, hrun]
  match parsed, h with
  | .ok _, h => exact hends h
  | .error (.reported _), h => exact hends h
  | .error (.raised n), ⟨errors, m', hrun, htells⟩ =>
    have herrors : errors ≠ [] := by
      rintro rfl
      have hlength := htells.length_eq
      simp at hlength
    rw [run_lint_of_errors hrun (exists_text_of_tells htells _), if_neg herrors]
  | .error (.failed f), ⟨errors, r, m', hrun, htells, hfailure⟩ =>
    have htext : ∃ t, m'.store.text m'.reader (.ref r) = .ok t :=
      ⟨_, Store.text_failure hfailure _⟩
    rw [run_lint_of_errors hrun ?_, if_neg (by simp)]
    intro s hs
    obtain hs | hs := List.mem_append.1 hs
    · exact exists_text_of_tells htells _ s hs
    · exact ⟨.ref r, List.mem_singleton.1 hs, htext⟩

/-- A text without tokens and without stray characters has nothing but gaps. -/
theorem sift_eq_nil_iff (line : Nat) (ls : List Lexeme) :
    Lexeme.sift line ls = ([], []) ↔ ∀ l ∈ ls, l.kind.isGap = true := by
  induction ls generalizing line with
  | nil => simp [Lexeme.sift]
  | cons l ls ih =>
    rw [List.forall_mem_cons, ← ih (line + l.newlines), Lexeme.sift]
    cases hgap : l.kind.isGap with
    | true => simp [Prod.ext_iff]
    | false => by_cases hstray : l.kind = .mismatch <;> simp [hstray]

/-- How checking a text ends, while notices are shown. A text without tokens gives the errors for
its stray characters. With a token, a text that can be parsed ends the program with the notice that
`import` is not a list, and a notice of the parser ends it as well; only where the parser fails in
another way, its error is listed after those for stray characters. So the check passes exactly those
texts that have nothing but gaps, and ends with failure for all others. -/
theorem lint_outcomes {m : Machine} (hquiet : m.isQuiet = false) (code : String) :
    let tokens := (tokenizeReporting code).1
    let stray := (tokenizeReporting code).2
    (tokens = [] → Lists (check code) m stray) ∧
    (tokens ≠ [] → Checks (check code) m stray (parseTokens false tokens)) ∧
    ((∀ l ∈ Lexeme.split code, l.kind.isGap = true) →
      (lint code).run m = (.error (.exit (.int 0)),
        { m with world := m.world.emit (.styled "[green]Lint Passed[/green]" "\n") })) ∧
    (¬ (∀ l ∈ Lexeme.split code, l.kind.isGap = true) →
      ((lint code).run m).1 = .error (.exit (.int 1))) := by
  intro tokens stray
  obtain ⟨errors, st, hstray, -, htells⟩ := run_mapM_noticeSignal stray m
  have hrun := run_check hstray
  have hgaps : (tokens, stray) = ([], []) ↔ ∀ l ∈ Lexeme.split code, l.kind.isGap = true :=
    sift_eq_nil_iff 1 (Lexeme.split code)
  rw [Prod.mk.injEq] at hgaps
  have hlists (htokens : tokens = []) :
      (check code).run m = (.ok errors, { m with store := st }) := by
    rw [hrun, if_pos htokens]
  have hchecks (htokens : tokens ≠ []) :
      Checks (check code) m stray (parseTokens false tokens) := by
    rw [if_neg htokens] at hrun
    exact (checks_checkTokens (m := { m with store := st }) hquiet htells tokens).congr hrun rfl
  have hlisted (htokens : tokens = []) := run_lint_of_errors (hlists htokens)
    (exists_text_of_tells htells _)
  refine ⟨fun htokens => ⟨errors, _, hlists htokens, htells⟩, hchecks, fun hall => ?_,
    fun hsome => ?_⟩
  · obtain ⟨htokens, hnone⟩ := hgaps.2 hall
    rw [hnone] at htells hstray
    obtain ⟨herrors, hsame⟩ := Prod.mk.inj hstray
    cases herrors
    rw [lint, run_bind, hlists htokens, ← hsame]
    rfl
  · rw [← hgaps, not_and] at hsome
    by_cases htokens : tokens = []
    · have herrors : errors ≠ [] := by
        rintro rfl
        exact hsome htokens (List.forall₂_nil_left_iff.1 htells)
      rw [hlisted htokens, if_neg herrors]
    · exact run_lint_of_checks (hchecks htokens)

/-- A call is refused before it is analysed, and a comment passes. -/
theorem lint_outcomes_call :
    EndsWith (check "print(x)") {} (.notAList "import") ∧
      ((lint "print(x)").run {}).1 = .error (.exit (.int 1)) ∧
      ((lint "# nothing").run {}).1 = .error (.exit (.int 0)) := by
  have hquiet : ({} : Machine).isQuiet = false := rfl
  obtain ⟨-, hchecks, -, hfails⟩ := lint_outcomes hquiet "print(x)"
  obtain ⟨-, -, hpasses, -⟩ := lint_outcomes hquiet "# nothing"
  have hcall : Lexeme.split "print(x)" = [⟨.name, "print".toList⟩, ⟨.lparen, ['(']⟩,
      ⟨.name, ['x']⟩, ⟨.rparen, [')']⟩] := by rfl
  have htokens : (tokenizeReporting "print(x)").1 =
      [⟨.name, "print", 1⟩, ⟨.lparen, "(", 1⟩, ⟨.name, "x", 1⟩, ⟨.rparen, ")", 1⟩] := by rfl
  have hparse : parseTokens false [⟨.name, "print", 1⟩, ⟨.lparen, "(", 1⟩, ⟨.name, "x", 1⟩,
      ⟨.rparen, ")", 1⟩] = .ok [.exprStmt (.call (.name "print") [.name "x"])] := by rfl
  have hcomment : Lexeme.split "# nothing" = [⟨.comment, "# nothing".toList⟩] := by rfl
  rw [hcall] at hfails
  rw [hcomment] at hpasses
  rw [htokens, hparse] at hchecks
  refine ⟨hchecks (List.cons_ne_nil _ _), hfails (by decide), ?_⟩
  rw [hpasses (by decide)]

end Exec

end ScriptLang
