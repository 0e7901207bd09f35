import ScriptLang.Proofs.Parse.Nesting
import ScriptLang.Proofs.Parse.Silence
import ScriptLang.Proofs.Run.Evaluate
import ScriptLang.Proofs.Run.Notices

/-!
# Expressions embedded in texts

An embedded expression ends at the first closing parenthesis of its line. So a text with one
expression in it is cut as it was meant to be exactly if the expression has no closing parenthesis
and no line end. Then its value stands in its place, whatever was read before.

An expression with a call or a group has a closing parenthesis, and is cut short there. What is left
of it opens more parentheses than it closes, which is no expression; so the text has no value, and
the program ends.
-/

namespace ScriptLang

/-! ### Where an embedded expression ends -/

section Pieces

variable {p u cs : List Char}

theorem textPieces_skip (n : Nat) (cs : List Char) :
    textPieces n cs = textPieces 0 (cs.drop n) := by
  induction n generalizing cs with
  | zero => rfl
  | succ n ih =>
    cases cs with
    | nil => rfl
    | cons c cs =>
      rw [textPieces, List.drop_succ_cons]
      exact ih cs

theorem textPieces_cons {c : Char} (hc : c ≠ '\\') (cs : List Char) :
    textPieces 0 (c :: cs) = .plain c :: textPieces 0 cs := by
  rw [textPieces]
  rintro _ rfl
  exact absurd rfl hc

/-- What stands before the first backslash is plain. -/
theorem textPieces_append (hp : '\\' ∉ p) (cs : List Char) :
    textPieces 0 (p ++ cs) = p.map .plain ++ textPieces 0 cs := by
  induction p with
  | nil => rfl
  | cons c p ih =>
    rw [List.mem_cons, not_or] at hp
    rw [List.cons_append, textPieces_cons (Ne.symm hp.1), ih hp.2]
    rfl

theorem textPieces_plain (hp : '\\' ∉ p) : textPieces 0 p = p.map .plain := by
  have h := textPieces_append hp []
  rwa [List.append_nil, textPieces, List.append_nil] at h

def goesOn (c : Char) : Bool := c != ')' && c != '\n'

theorem forall_goesOn_iff : (∀ c ∈ u, goesOn c = true) ↔ ')' ∉ u ∧ '\n' ∉ u := by
  constructor
  · intro h
    exact ⟨fun hc => absurd (h _ hc) (by decide), fun hc => absurd (h _ hc) (by decide)⟩
  · rintro ⟨hclose, hline⟩ c hc
    have hclose : c ≠ ')' := by rintro rfl; exact hclose hc
    have hline : c ≠ '\n' := by rintro rfl; exact hline hc
    simp [goesOn, hclose, hline]

/-- An embedded expression ends before the first character that ends it. -/
theorem embeddedSource?_append {rest : List Char} (hu : ∀ c ∈ u, goesOn c = true)
    (hrest : ∀ c ∈ rest.head?, goesOn c = false) :
    embeddedSource? (u ++ rest) = if rest.head? = some ')' then some u else none := by
  have hbody : (u ++ rest).takeWhile goesOn = u := by
    rw [List.takeWhile_append_of_pos hu]
    cases rest with
    | nil => simp
    | cons c rest => simp [hrest c rfl]
  have hsource : (u ++ rest).takeWhile (fun c => c != ')' && c != '\n') = u := hbody
  rw [embeddedSource?, hsource, List.drop_left]
  split
  · rfl
  · next hne =>
    rw [if_neg]
    intro hhead
    obtain ⟨rest, rfl⟩ := List.head?_eq_some_iff.1 hhead
    exact hne rest rfl

/-- The source of an embedded expression is closed by the first parenthesis, on the same line. -/
theorem embeddedSource?_eq_some_iff : embeddedSource? cs = some u ↔
    (')' ∉ u ∧ '\n' ∉ u) ∧ ∃ rest, cs = u ++ ')' :: rest := by
  constructor
  · intro h
    have hcs : cs.takeWhile goesOn ++ cs.dropWhile goesOn = cs := List.takeWhile_append_dropWhile
    have hbody : ∀ c ∈ cs.takeWhile goesOn, goesOn c = true := List.all_eq_true.1 List.all_takeWhile
    have hrest : ∀ c ∈ (cs.dropWhile goesOn).head?, goesOn c = false := by
      intro c hc
      have hnot := List.head?_dropWhile_not goesOn cs
      rw [hc] at hnot
      exact hnot
    rw [← hcs, embeddedSource?_append hbody hrest] at h
    split at h
    · next hhead =>
      cases h
      obtain ⟨rest, hdrop⟩ := List.head?_eq_some_iff.1 hhead
      exact ⟨forall_goesOn_iff.1 hbody, rest, by rw [← hdrop, hcs]⟩
    · cases h
  · rintro ⟨hu, rest, rfl⟩
    rw [embeddedSource?_append (forall_goesOn_iff.2 hu) (by simp [goesOn])]
    rfl

/-- A closing parenthesis on the same line ends an embedded expression. -/
theorem textPieces_embedded (hu : ')' ∉ u ∧ '\n' ∉ u) (rest : List Char) :
    textPieces 0 ('\\' :: '(' :: (u ++ ')' :: rest)) =
      .embedded (Text.strip (String.ofList u)) :: textPieces 0 rest := by
  have hsource : embeddedSource? (u ++ ')' :: rest) = some u :=
    embeddedSource?_eq_some_iff.2 ⟨hu, rest, rfl⟩
  have hdrop : ('(' :: (u ++ ')' :: rest)).drop (u.length + 2) = rest := by
    simp [List.drop_append]
  rw [textPieces, hsource]
  dsimp only
  rw [textPieces_skip, hdrop]

end Pieces

/-- Stripping takes away blanks only. -/
theorem Text.mem_strip {s : String} {c : Char} (hc : isBlank c = false) :
    c ∈ (strip s).toList ↔ c ∈ s.toList := by
  have hdrop (cs : List Char) : c ∈ cs.dropWhile isBlank ↔ c ∈ cs := by
    refine ⟨(List.dropWhile_suffix _).mem, fun hmem => ?_⟩
    rw [← List.takeWhile_append_dropWhile (p := isBlank) (l := cs)] at hmem
    refine (List.mem_append.1 hmem).resolve_left fun htake => ?_
    have hblank := List.all_eq_true.1 List.all_takeWhile c htake
    rw [hc] at hblank
    cases hblank
  simp only [strip, trimWhere, String.toList_ofList, List.mem_reverse, hdrop]

/-- A text is cut into what stands before an expression, the expression, and what stands after it,
exactly if the expression has no closing parenthesis and no line end. -/
theorem textPieces_eq_iff {p e s : List Char} (hp : '\\' ∉ p) (hs : '\\' ∉ s) :
    textPieces 0 (p ++ '\\' :: '(' :: (e ++ ')' :: s)) =
      p.map .plain ++ .embedded (Text.strip (String.ofList e)) :: s.map .plain ↔
        ')' ∉ e ∧ '\n' ∉ e := by
  rw [textPieces_append hp, List.append_cancel_left_eq]
  constructor
  · intro h
    cases hsource : embeddedSource? (e ++ ')' :: s) with
    | none =>
      rw [textPieces, hsource] at h
      cases (List.cons.inj h).1
    | some u =>
      obtain ⟨hu, rest, heq⟩ := embeddedSource?_eq_some_iff.1 hsource
      rw [heq, textPieces_embedded hu] at h
      have hstrip : Text.strip (String.ofList u) = Text.strip (String.ofList e) :=
        TextPiece.embedded.inj (List.cons.inj h).1
      have he : ')' ∉ e := by
        intro hmem
        have hmem' := (Text.mem_strip (s := String.ofList e) rfl).2 (by simpa using hmem)
        rw [← hstrip, Text.mem_strip rfl, String.toList_ofList] at hmem'
        exact hu.1 hmem'
      have hfirst {w : List Char} (hw : ')' ∉ w) (rest : List Char) :
          (w ++ ')' :: rest).takeWhile (· != ')') = w := by
        have hall : ∀ c ∈ w, (c != ')') = true := by
          intro c hc
          exact bne_iff_ne.2 fun heq => hw (heq ▸ hc)
        rw [List.takeWhile_append_of_pos hall]
        simp
      have heu : e = u := by rw [← hfirst he s, heq, hfirst hu.1]
      rwa [heu]
  · intro he
    rw [textPieces_embedded he, textPieces_plain hs]

/-! ### Expressions that are cut short -/

/-- Only a closing parenthesis scans as one. -/
theorem Lexeme.eq_of_scan_rparen {c : Char} {cs : List Char} (h : (scan c cs).1 = .rparen) :
    c = ')' := by
  have hstring (q : Char) : (stringLexeme q cs).1 ≠ .rparen := by
    unfold stringLexeme
    grind
  have hslash : (slashLexeme cs).1 ≠ .rparen := by
    unfold slashLexeme
    grind
  revert h
  fun_cases scan c cs <;> grind [oneOrTwo]

/-- A token that closes a parenthesis is spelled by one. -/
theorem mem_of_rparen {s : String} {t : Token} (ht : t ∈ tokenize s) (hkind : t.kind = .rparen) :
    ')' ∈ s.toList := by
  have htoken : (t.kind, t.text.toList) ∈ (tokenize s).map fun t => (t.kind, t.text.toList) :=
    List.mem_map_of_mem ht
  rw [tokenize, Lexeme.map_toTokens] at htoken
  obtain ⟨l, hl, heq⟩ := List.mem_map.1 htoken
  have hl : l ∈ Lexeme.split s := List.mem_of_mem_filter hl
  obtain ⟨before, after, hsplit⟩ := List.append_of_mem hl
  obtain ⟨c, cs, hcons, hscan⟩ := Lexeme.foundBefore_splitFrom hsplit
  have hc : c = ')' := Lexeme.eq_of_scan_rparen (by rw [hscan, ← hkind, (Prod.mk.inj heq).1])
  have hmem : ')' ∈ l.text := by
    cases htext : l.text with
    | nil => exact absurd htext (Lexeme.text_ne_nil hl)
    | cons d text =>
      rw [htext] at hcons
      rw [(List.cons.inj hcons).1, hc]
      exact List.mem_cons_self
  have hs : (Lexeme.split s).flatMap Lexeme.text = s.toList := Lexeme.flatMap_text_splitFrom 0 _
  rw [← hs]
  exact List.mem_flatMap.2 ⟨l, hl, hmem⟩

/-- Without closing parentheses the depth is not negative. -/
theorem Token.depth_nonneg {ts : List Token} (h : ∀ t ∈ ts, t.kind ≠ .rparen) :
    0 ≤ depth .lparen .rparen ts := by
  induction ts with
  | nil => exact Int.le_refl 0
  | cons t ts ih =>
    rw [List.forall_mem_cons] at h
    have hrest := ih h.2
    rw [depth_cons, depthChange, if_neg h.1]
    split <;> omega

/-- An expression that opens a parenthesis and closes none is not accepted. -/
theorem parseEmbedded_ne_ok {source : String} (hopen : ∃ t ∈ tokenize source, t.kind = .lparen)
    (hclose : ')' ∉ source.toList) (node : Node) : parseEmbedded false source ≠ .ok node := by
  intro h
  obtain ⟨taken, hts, hnested⟩ := Parse.takesNested_expr _ _ (parseEmbedded_eq_ok_iff.1 h)
  rw [List.append_nil] at hts
  have hzero : Token.depth .lparen .rparen (tokenize source) = 0 := by
    rw [hts]
    exact hnested.depth_eq_zero (by decide)
  have hnone : ∀ t ∈ tokenize source, t.kind ≠ .rparen :=
    fun t ht hkind => hclose (mem_of_rparen ht hkind)
  obtain ⟨t, ht, hkind⟩ := hopen
  obtain ⟨before, after, hsplit⟩ := List.append_of_mem ht
  rw [hsplit] at hzero hnone
  rw [List.forall_mem_append, List.forall_mem_cons] at hnone
  have hbefore := Token.depth_nonneg hnone.1
  have hafter := Token.depth_nonneg hnone.2.2
  rw [Token.depth_append, Token.depth_cons, Token.depthChange, if_pos hkind] at hzero
  omega

/-- An embedded expression is read or refused, as the bound is enough for its tokens. -/
theorem parseEmbedded_ne_exhausted (quiet : Bool) (source : String) :
    parseEmbedded quiet source ≠ .error .exhausted := by
  have hsteady : Parse.Steady _ _ (Parse.expr quiet (Parse.bound (tokenize source))) _ :=
    Parse.steady_expr (Nat.le_refl _)
  have hends := ((hsteady (tokenize source)).ends (by simp [Parse.bound])).1
  unfold parseEmbedded
  generalize tokenize source = ts at hends
  dsimp only
  intro h
  split at h
  · next hrun => exact hends (hrun.trans (congrArg _ (Except.error.inj h)))
  · cases h
  · cases h

namespace Exec

variable {g : Engine} {e : ScopeId}

/-! ### The value of a text -/

theorem interpolate_append (g : Engine) (e : ScopeId) (p : List Char) (rest : List TextPiece) :
    interpolate g e (p.map .plain ++ rest) = (p ++ ·) <$> interpolate g e rest := by
  induction p with
  | nil => simp
  | cons c p ih =>
    rw [List.map_cons, List.cons_append, interpolate, ih]
    simp

theorem interpolate_plain (g : Engine) (e : ScopeId) (p : List Char) :
    interpolate g e (p.map .plain) = pure p := by
  have h := interpolate_append g e p []
  rw [List.append_nil] at h
  rw [h, interpolate]
  simp

/-- One embedded expression between plain parts. -/
theorem interpolate_embedded (g : Engine) (e : ScopeId) (p s : List Char) (source : String) :
    interpolate g e (p.map .plain ++ .embedded source :: s.map .plain) =
      (fun t => p ++ (t.toList ++ s)) <$> embeddedText g e source := by
  rw [interpolate_append, interpolate, interpolate_plain]
  simp

/-- An expression that is accepted is found whatever was read before, and is kept. -/
theorem run_embeddedNode {host : Host} {source : String} {node : Node}
    (h : parseEmbedded host.isQuiet source = .ok node) : ∃ cache,
    (embeddedNode source).run host = (.ok node, { host with embedded := cache }) ∧
    cache.nodes.get? source = some node ∧
    ∀ other, other ≠ source → cache.nodes.get? other = host.embedded.nodes.get? other := by
  have hget (f : Host → HostExec Node) : (get >>= f).run host = (f host).run host := rfl
  rw [embeddedNode, hget]
  cases hknown : host.embedded.nodes.get? source with
  | some known =>
    obtain ⟨quiet, hparsed⟩ := host.embedded.parsed hknown
    cases parseEmbedded_unique h hparsed
    exact ⟨host.embedded, rfl, hknown, fun _ _ => rfl⟩
  | none =>
    refine ⟨host.embedded.insert h, ?_, ?_, fun other hother => ?_⟩
    · dsimp only
      split
      · next hparse =>
        cases Except.ok.inj (h.symm.trans hparse)
        rfl
      · next hparse => cases h.symm.trans hparse
    · rw [EmbeddedCache.insert, Table.get?_set, if_pos rfl]
    · rw [EmbeddedCache.insert, Table.get?_set, if_neg hother.symm]

/-- The text of a value takes the place of its expression. -/
theorem run_embeddedText {m m₁ m₂ : Machine} {source : String} {node : Node} {v : Value}
    {t : String}
    (hnode : (liftM (embeddedNode source) : Exec Node).run m = (.ok node, m₁))
    (hvalue : (g.evaluate node e).run m₁ = (.ok v, m₂)) {m₃ : Machine}
    (htext : (liftM (text v) : Exec String).run m₂ = (.ok t, m₃)) :
    (embeddedText g e source).run m = (.ok t, m₃) := by
  rw [embeddedText, run_tryCatch, run_bind, hnode]
  dsimp only
  rw [run_bind, hvalue]
  dsimp only
  rw [htext]

/-- An error in an embedded expression ends the program with a notice. -/
theorem run_embeddedText_of_raised {m m₁ : Machine} {source : String} {v : Value} {t : String}
    (hnode : (liftM (embeddedNode source) : Exec Node).run m = (.error (.raised v), m₁))
    (htext : m₁.store.text m₁.reader v = .ok t) (hquiet : m₁.isQuiet = false) :
    (embeddedText g e source).run m = (.error (.exit (.int 1)), { m₁ with
      world := m₁.world.emit ((Notice.failedEmbedded t).event m₁.reader) }) := by
  rw [embeddedText, run_tryCatch, run_bind, hnode]
  dsimp only
  rw [run_bind, run_signalText htext]
  dsimp only
  rw [run_bind, run_host, run_report_shown hquiet]
  rfl

/-- An expression that is not accepted ends the program with a notice. -/
theorem run_embeddedText_of_error {m : Machine} {source : String} {stop : ParseStop}
    (hquiet : m.isQuiet = false) (hunread : m.embedded.nodes.get? source = none)
    (hstop : parseEmbedded false source = .error stop) : ∃ line m',
    (embeddedText g e source).run m = (.error (.exit (.int 1)), m') ∧
      m'.world.events = .alarm line :: m.world.events := by
  have hnode : (embeddedNode source).run m.toHost = (stopReading stop).run m.toHost := by
    have hget (f : Host → HostExec Node) :
        (get >>= f).run m.toHost = (f m.toHost).run m.toHost := rfl
    have hloud : parseEmbedded m.toHost.isQuiet source = .error stop := by
      rw [show m.toHost.isQuiet = false from hquiet, hstop]
    rw [embeddedNode, hget, hunread]
    dsimp only
    split
    · next hparse => cases hloud.symm.trans hparse
    · next hparse => rw [Except.error.inj (hloud.symm.trans hparse)]
  cases stop with
  | reported n =>
    have hrun : (liftM (embeddedNode source) : Exec Node).run m = (.error (.exit (.int 1)),
        { m with world := m.world.emit (n.event m.reader) }) := by
      rw [run_host, hnode, stopReading, HostExec.run_bind, run_report_shown hquiet]
      rfl
    refine ⟨n.render m.reader, { m with world := m.world.emit (n.event m.reader) }, ?_, rfl⟩
    rw [embeddedText, run_tryCatch, run_bind, hrun]
    rfl
  | raised n =>
    obtain ⟨r, st, herror, -, hholds⟩ := run_noticeError n m.toHost
    have hrun : (liftM (embeddedNode source) : Exec Node).run m = (.error (.raised (.ref r)),
        { m with store := st }) := by
      rw [run_host, hnode, stopReading, raiseNotice, HostExec.run_bind, herror]
      rfl
    exact ⟨_, _, run_embeddedText_of_raised hrun (hholds.text_eq _) hquiet, rfl⟩
  | failed f =>
    have hrun : (liftM (embeddedNode source) : Exec Node).run m =
        (.error (.raised (.ref m.store.size)),
          { m with store := m.store.push (.failure f []) }) := by
      rw [run_host, hnode, stopReading, HostExec.run_fail]
      rfl
    have hnew : (m.store.push (.failure f []))[m.store.size]? = some (.failure f []) :=
      Array.getElem?_push_size
    have htext := Store.text_failure hnew
    exact ⟨_, _, run_embeddedText_of_raised hrun (htext _) hquiet, rfl⟩
  | exhausted => exact absurd hstop (parseEmbedded_ne_exhausted false source)

/-- What becomes of one expression that is embedded in a text, where the rest of the text has no
backslash. It is taken for what it is exactly if it has no closing parenthesis and no line end.
Then, if it is accepted and has a value, the text of the value takes its place, whether it is read
now or was read before. But if it has a closing parenthesis, and opens one before, then the program
ends with a notice, unless the part before the closing parenthesis was read while notices were
silenced. -/
theorem evaluateText_embedded (g : Engine) (scope : ScopeId) (m : Machine) {p e s : String}
    (hp : '\\' ∉ p.toList) (hs : '\\' ∉ s.toList) :
    let whole := p ++ "\\(" ++ e ++ ")" ++ s
    (textPieces 0 whole.toList = p.toList.map .plain ++ .embedded (Text.strip e) ::
      s.toList.map .plain ↔ ')' ∉ e.toList ∧ '\n' ∉ e.toList) ∧
    (')' ∉ e.toList ∧ '\n' ∉ e.toList → ∀ node, parseEmbedded m.isQuiet e = .ok node →
      ∃ cache, cache.nodes.get? (Text.strip e) = some node ∧
        (∀ other, other ≠ Text.strip e →
          cache.nodes.get? other = m.embedded.nodes.get? other) ∧
        ∀ v m₁ t m₂, (g.evaluate node scope).run { m with embedded := cache } = (.ok v, m₁) →
          (liftM (text v) : Exec String).run m₁ = (.ok t, m₂) →
            (evaluateText g scope whole).run m = (.ok (.text (p ++ t ++ s)), m₂)) ∧
    ∀ before after, e = before ++ ")" ++ after →
      ')' ∉ before.toList ∧ '\n' ∉ before.toList →
      (∃ t ∈ tokenize (Text.strip before), t.kind = .lparen) → m.isQuiet = false →
      m.embedded.nodes.get? (Text.strip before) = none →
        ∃ line m', (evaluateText g scope whole).run m = (.error (.exit (.int 1)), m') ∧
          m'.world.events = .alarm line :: m.world.events := by
  intro whole
  have hwhole : whole.toList = p.toList ++ '\\' :: '(' :: (e.toList ++ ')' :: s.toList) := by
    simp [whole, String.toList_append]
  have hpieces := textPieces_eq_iff (e := e.toList) hp hs
  rw [← hwhole, String.ofList_toList] at hpieces
  refine ⟨hpieces, fun he node hnode => ?_, ?_⟩
  · obtain ⟨cache, hread, hknown, hothers⟩ := run_embeddedNode (parseEmbedded_strip he.2 hnode)
    refine ⟨cache, hknown, hothers, fun v m₁ t m₂ hvalue htext => ?_⟩
    have hembedded := run_embeddedText (run_host_of_ok hread) hvalue htext
    have hjoined : String.ofList (p.toList ++ (t.toList ++ s.toList)) = p ++ t ++ s := by
      rw [← String.toList_append, ← String.toList_append, String.ofList_toList, String.append_assoc]
    rw [evaluateText, hpieces.2 he, interpolate_embedded, bind_map_left, run_bind, hembedded]
    dsimp only
    rw [hjoined]
    rfl
  · rintro before after rfl hbefore hopen hquiet hunread
    have hclose : ')' ∉ (Text.strip before).toList := by
      rw [Text.mem_strip rfl]
      exact hbefore.1
    have hpieces : textPieces 0 whole.toList = p.toList.map .plain ++
        .embedded (Text.strip before) :: textPieces 0 (after.toList ++ ')' :: s.toList) := by
      have hrest := textPieces_embedded hbefore (after.toList ++ ')' :: s.toList)
      rw [String.ofList_toList] at hrest
      rw [hwhole, textPieces_append hp, ← hrest]
      simp [String.toList_append]
    cases hparse : parseEmbedded false (Text.strip before) with
    | ok node => exact absurd hparse (parseEmbedded_ne_ok hopen hclose node)
    | error stop =>
      obtain ⟨line, m', hrun, hevents⟩ := run_embeddedText_of_error (g := g) (e := scope) hquiet
        hunread hparse
      refine ⟨line, m', ?_, hevents⟩
      rw [evaluateText, hpieces, interpolate_append, interpolate, bind_map_left, bind_assoc,
        run_bind, hrun]

/-- A name may stand between blanks; between parentheses it may not stand. -/
theorem evaluateText_embedded_group :
    let scope : Scope Value := { vars := [("name", .text "Hi")], flags := [("name", true)] }
    let m : Machine := { scopes := #[scope] }
    let value (s : String) := ((evaluateText (.ofDepth 2) 0 s).run m).1
    value "<\\( name )>" = .ok (.text "<Hi>") ∧
    value "<\\((name))>" = .error (.exit (.int 1)) := by
  intro scope m value
  constructor
  · have htokens : tokenize " name " = [⟨.name, "name", 1⟩] := by rfl
    have hparse : parseEmbedded false " name " = .ok (.name "name") := by
      rw [parseEmbedded_eq_ok_iff, htokens]
      rfl
    obtain ⟨-, hplain, -⟩ := evaluateText_embedded (.ofDepth 2) 0 m (p := "<") (e := " name ")
      (s := ">") (by decide) (by decide)
    obtain ⟨cache, -, -, hvalue⟩ := hplain (by decide) _ hparse
    have hrun := hvalue (.text "Hi") { m with embedded := cache } "Hi"
      { m with embedded := cache } rfl rfl
    exact congrArg Prod.fst hrun
  · obtain ⟨-, -, hcut⟩ := evaluateText_embedded (.ofDepth 2) 0 m (p := "<") (e := "(name)")
      (s := ">") (by decide) (by decide)
    obtain ⟨line, m', hrun, -⟩ := hcut "(name" "" rfl (by decide) (by decide) rfl rfl
    exact congrArg Prod.fst hrun

end Exec

end ScriptLang
