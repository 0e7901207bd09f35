import ScriptLang.Proofs.Token.Lexeme

/-!
# Newlines between lexemes

A newline may be put between any two lexemes of a text without a change of the tokens. Lexemes after
it are cut as before, for cutting goes from the left and never looks back. Those before it are cut
with all of the text in view: a line end far away could close what nothing closed before. It does
not, because a newline closes nothing and stands in no run of characters. It can only change what a
backslash before it escapes, and that matters in one place alone: a long string that is not closed
may now be. But then the quote that is left of its opening ones starts a short string, and this one
reaches over the newline, so that there was no place between two lexemes.
-/

namespace ScriptLang

namespace Lexeme

/-! ### Runs, numbers and symbols -/

variable {u v : List Char}

/-- A run goes on into the next text only if it takes all of the first one. -/
theorem run_append (p : Char → Bool) (u v : List Char) :
    run p (u ++ v) = if run p u = u.length then u.length + run p v else run p u := by
  unfold run
  rw [List.takeWhile_append]
  split <;> simp

/-- A run that ends before the newline is as long as it was. -/
theorem run_insert {p : Char → Bool} (hp : p '\n' = false) (h : run p (u ++ v) ≤ u.length) :
    run p (u ++ '\n' :: v) = run p (u ++ v) := by
  have hnewline : run p ('\n' :: v) = 0 := by simp [run, hp]
  rw [run_append] at h
  rw [run_append, run_append, hnewline]
  split
  · next hall =>
    rw [if_pos hall] at h
    omega
  · rfl

def fractionTail : List Char → Nat
  | '.' :: rest => if run Text.isDecimal rest = 0 then 0 else run Text.isDecimal rest + 1
  | _ => 0

theorem numberTail_eq (cs : List Char) : numberTail cs =
    run Text.isDecimal cs + fractionTail (cs.drop (run Text.isDecimal cs)) := by
  unfold numberTail fractionTail
  dsimp only
  split <;> grind

theorem fractionTail_insert (h : fractionTail (u ++ v) ≤ u.length) :
    fractionTail (u ++ '\n' :: v) = fractionTail (u ++ v) := by
  cases u with
  | nil => exact (Nat.le_zero.1 h).symm
  | cons c u =>
    by_cases hc : c = '.'
    · subst hc
      simp only [List.cons_append, fractionTail, List.length_cons] at h ⊢
      have hrun : run Text.isDecimal (u ++ v) ≤ u.length := by
        split at h <;> omega
      rw [run_insert rfl hrun]
    · simp [fractionTail, hc]

/-- A number that ends before the place of a newline is not changed by it. -/
theorem numberTail_insert (h : numberTail (u ++ v) ≤ u.length) :
    numberTail (u ++ '\n' :: v) = numberTail (u ++ v) := by
  rw [numberTail_eq] at h
  have hwhole : run Text.isDecimal (u ++ v) ≤ u.length := by omega
  rw [numberTail_eq, numberTail_eq, run_insert rfl hwhole]
  generalize run Text.isDecimal (u ++ v) = whole at h hwhole
  rw [List.drop_append_of_le_length hwhole] at h
  rw [List.drop_append_of_le_length hwhole, List.drop_append_of_le_length hwhole,
    fractionTail_insert (by rw [List.length_drop]; omega)]

/-- The next character is `c` as before, if it lies before the newline when it is `c`. -/
theorem head?_insert {c : Char} (hc : c ≠ '\n') (h : (u ++ v).head? = some c → 0 < u.length) :
    ((u ++ '\n' :: v).head? == some c) = ((u ++ v).head? == some c) := by
  cases u with
  | nil =>
    have hv : v.head? ≠ some c := fun hv => Nat.lt_irrefl 0 (h hv)
    rw [List.nil_append, List.nil_append, List.head?_cons, beq_eq_false_iff_ne.2 hv,
      beq_eq_false_iff_ne.2 (by simpa using hc.symm)]
  | cons => rfl

theorem oneOrTwo_insert {c : Char} (hc : c ≠ '\n') {two one : TokenKind}
    (h : (oneOrTwo c two one (u ++ v)).2 ≤ u.length) :
    oneOrTwo c two one (u ++ '\n' :: v) = oneOrTwo c two one (u ++ v) := by
  unfold oneOrTwo at h ⊢
  rw [head?_insert hc]
  intro hhead
  rwa [hhead, if_pos (beq_self_eq_true _)] at h

/-! ### Block comments -/

theorem blockComment_cons (c : Char) (cs : List Char) :
    blockComment (c :: cs) =
      if c = '*' ∧ cs.head? = some '/' then some 2 else (blockComment cs).map (· + 1) := by
  split
  · next h =>
    obtain ⟨rfl, hcs⟩ := h
    obtain ⟨cs, rfl⟩ := List.head?_eq_some_iff.1 hcs
    rfl
  · next h =>
    rw [blockComment]
    rintro cs rfl rfl
    exact h ⟨rfl, rfl⟩

theorem blockComment_pos {cs : List Char} {n : Nat} (h : blockComment cs = some n) : 0 < n := by
  cases cs with
  | nil => cases h
  | cons c cs =>
    rw [blockComment_cons] at h
    split at h
    · cases h
      decide
    · obtain ⟨k, -, rfl⟩ := Option.map_eq_some_iff.1 h
      exact Nat.succ_pos k

/-- Where a newline is put, a comment is not closed by the characters around it. -/
theorem not_closes_insert {c : Char} (h : ¬ (c = '*' ∧ (u ++ v).head? = some '/')) :
    ¬ (c = '*' ∧ (u ++ '\n' :: v).head? = some '/') := by
  cases u with
  | nil => simp
  | cons => exact h

/-- A comment that ends before the place of a newline is not changed by it. -/
theorem blockComment_insert {n : Nat} (h : blockComment (u ++ v) = some n) (hn : n ≤ u.length) :
    blockComment (u ++ '\n' :: v) = some n := by
  induction u generalizing n with
  | nil => exact absurd (blockComment_pos h) (Nat.not_lt.2 hn)
  | cons c u ih =>
    rw [List.cons_append, blockComment_cons] at h ⊢
    rw [List.length_cons] at hn
    split at h
    · next hclosed =>
      cases h
      cases u with
      | nil => exact absurd hn (by decide)
      | cons d u => rw [if_pos ⟨hclosed.1, hclosed.2⟩]
    · next hopen =>
      obtain ⟨k, hk, rfl⟩ := Option.map_eq_some_iff.1 h
      rw [if_neg (not_closes_insert hopen), ih hk (Nat.le_of_succ_le_succ hn), Option.map_some]

/-- A newline closes no comment. -/
theorem blockComment_insert_none (h : blockComment (u ++ v) = none) :
    blockComment (u ++ '\n' :: v) = none := by
  induction u with
  | nil => simpa [blockComment] using h
  | cons c u ih =>
    rw [List.cons_append, blockComment_cons] at h ⊢
    split at h
    · cases h
    · next hopen =>
      rw [if_neg (not_closes_insert hopen), ih (Option.map_eq_none_iff.1 h), Option.map_none]

/-- What starts with a slash and ends before the place of a newline is not changed by it. -/
theorem slashLexeme_insert (h : (slashLexeme (u ++ v)).2 ≤ u.length) :
    slashLexeme (u ++ '\n' :: v) = slashLexeme (u ++ v) := by
  cases u with
  | nil =>
    -- nothing of the lexeme lies beyond the slash, so it is the operator
    have hop : slashLexeme v = (.op, 0) := by
      unfold slashLexeme at h ⊢
      dsimp only [List.nil_append, List.length_nil] at h
      split at h
      · cases h
      · split at h
        · cases h
        · rfl
      · cases h
      · rfl
    rw [List.nil_append, List.nil_append, hop]
    rfl
  | cons c u =>
    simp only [List.cons_append, List.length_cons] at h ⊢
    by_cases hline : c = '/'
    · subst hline
      simp only [slashLexeme] at h ⊢
      rw [run_insert rfl (Nat.le_of_succ_le_succ h)]
    by_cases hblock : c = '*'
    · subst hblock
      simp only [slashLexeme] at h ⊢
      cases hcomment : blockComment (u ++ v) with
      | none => rw [blockComment_insert_none hcomment]
      | some n =>
        rw [hcomment] at h
        rw [blockComment_insert hcomment (Nat.le_of_succ_le_succ h)]
    by_cases hassign : c = '='
    · subst hassign
      rfl
    · simp [slashLexeme, hline, hblock, hassign]

/-! ### Strings -/

section

variable {q : Char} (hq : q ≠ '\\')

theorem longString_escape (c : Char) (cs : List Char) :
    longString q ('\\' :: c :: cs) = (longString q cs).map (· + 2) := by
  rw [longString]

theorem longString_cons {c : Char} (hc : c ≠ '\\') (cs : List Char) :
    longString q (c :: cs) =
      if c = q then if cs.take 2 = [q, q] then some 3 else none
      else (longString q cs).map (· + 1) := by
  rw [longString] <;> simp_all

/-- A quote after a backslash closes the string only if no later quote does. -/
theorem shortString_escape (cs : List Char) :
    shortString q ('\\' :: q :: cs) = some ((shortString q cs).getD 0 + 2) := by
  rw [shortString]
  cases shortString q cs <;> simp

include hq in
theorem shortString_close (cs : List Char) : shortString q (q :: cs) = some 1 := by
  rw [shortString] <;> simp_all

theorem shortString_cons {c : Char} {cs : List Char} (hc : c ≠ q)
    (h : c = '\\' → cs.head? ≠ some q) :
    shortString q (c :: cs) = (shortString q cs).map (· + 1) := by
  by_cases hslash : c = '\\'
  · subst hslash
    cases cs with
    | nil => simp [shortString, hc]
    | cons d cs =>
      have hd : d ≠ q := by simpa using h rfl
      simp [shortString, hd]
  · rw [shortString] <;> simp_all

theorem longString_pos {cs : List Char} {n : Nat} (h : longString q cs = some n) : 0 < n := by
  fun_induction longString q cs generalizing n <;> grind [Option.map_eq_some_iff]

theorem shortString_pos {cs : List Char} {n : Nat} (h : shortString q cs = some n) : 0 < n := by
  fun_induction shortString q cs generalizing n <;> grind [Option.map_eq_some_iff]

include hq in
/-- Only without any quote is a string not closed. -/
theorem shortString_eq_none_iff {cs : List Char} : shortString q cs = none ↔ q ∉ cs := by
  fun_induction shortString q cs <;> grind [Option.map_eq_none_iff]

theorem mem_of_longString {cs : List Char} {n : Nat} (h : longString q cs = some n) : q ∈ cs := by
  fun_induction longString q cs generalizing n <;> grind [Option.map_eq_some_iff]

/-- The characters of a text with those that a backslash escapes. -/
@[elab_as_elim]
theorem escapes_induction {motive : List Char → Prop} (nil : motive []) (slash : motive ['\\'])
    (escape : ∀ c cs, motive cs → motive ('\\' :: c :: cs))
    (cons : ∀ c cs, c ≠ '\\' → motive cs → motive (c :: cs)) (cs : List Char) : motive cs :=
  match cs with
  | [] => nil
  | c :: cs =>
    if hc : c = '\\' then
      match cs with
      | [] => hc ▸ slash
      | d :: cs => hc ▸ escape d cs (escapes_induction nil slash escape cons cs)
    else cons c cs hc (escapes_induction nil slash escape cons cs)

/-- A long string that ends before the newline is as long as it was. -/
theorem longString_insert {n : Nat} (h : longString q (u ++ v) = some n) (hn : n ≤ u.length) :
    longString q (u ++ '\n' :: v) = some n := by
  induction u using escapes_induction generalizing n with
  | nil => exact absurd (longString_pos h) (Nat.not_lt.2 hn)
  | slash =>
    cases v with
    | nil => cases h
    | cons d v =>
      obtain ⟨k, -, rfl⟩ := Option.map_eq_some_iff.1 h
      exact absurd hn (by simp)
  | escape c u ih =>
    simp only [List.cons_append, longString_escape, List.length_cons] at h hn ⊢
    obtain ⟨k, hk, rfl⟩ := Option.map_eq_some_iff.1 h
    rw [ih hk (by omega), Option.map_some]
  | cons c u hc ih =>
    simp only [List.cons_append, longString_cons hc, List.length_cons] at h hn ⊢
    split at h
    · next hquote =>
      rw [if_pos hquote]
      split at h
      · next hquotes =>
        cases h
        have hlen : 2 ≤ u.length := by omega
        rw [List.take_append_of_le_length hlen] at hquotes ⊢
        rw [if_pos hquotes]
      · cases h
    · next hquote =>
      obtain ⟨k, hk, rfl⟩ := Option.map_eq_some_iff.1 h
      rw [if_neg hquote, ih hk (by omega), Option.map_some]

variable (hnewline : q ≠ '\n')

include hnewline in
/-- The newline moves no quote to where it is put. -/
theorem head?_insert_ne (h : (u ++ v).head? ≠ some q) : (u ++ '\n' :: v).head? ≠ some q := by
  cases u with
  | nil => simpa using hnewline.symm
  | cons => exact h

include hnewline in
theorem take_two_insert (h : (u ++ '\n' :: v).take 2 = [q, q]) : ∃ w, u = q :: q :: w := by
  rcases u with _ | ⟨c, _ | ⟨d, w⟩⟩ <;> grind

include hq hnewline in
/-- A newline closes no string. -/
theorem shortString_insert_none (h : shortString q (u ++ v) = none) :
    shortString q (u ++ '\n' :: v) = none := by
  rw [shortString_eq_none_iff hq] at h ⊢
  simpa [hnewline] using h

include hq hnewline in
/-- A string that ends before the newline is as long as it was. -/
theorem shortString_insert {n : Nat} (h : shortString q (u ++ v) = some n) (hn : n ≤ u.length) :
    shortString q (u ++ '\n' :: v) = some n := by
  induction hlen : u.length using Nat.strongRecOn generalizing u n with
  | ind len ih =>
    cases u with
    | nil => exact absurd (shortString_pos h) (Nat.not_lt.2 hn)
    | cons c u =>
      rw [List.cons_append] at h ⊢
      rw [List.length_cons] at hn hlen
      by_cases hescape : c = '\\' → (u ++ v).head? ≠ some q
      · by_cases hquote : c = q
        · subst hquote
          rwa [shortString_close hq] at h ⊢
        · rw [shortString_cons hquote hescape] at h
          obtain ⟨k, hk, rfl⟩ := Option.map_eq_some_iff.1 h
          rw [shortString_cons hquote fun hc => head?_insert_ne hnewline (hescape hc),
            ih u.length (by omega) hk (by omega) rfl, Option.map_some]
      · -- a quote after a backslash closes the string only if no other quote does
        obtain ⟨rfl, hhead⟩ := Classical.not_imp.1 hescape
        rw [Decidable.not_not] at hhead
        cases u with
        | nil =>
          obtain ⟨w, rfl⟩ := List.head?_eq_some_iff.1 hhead
          rw [List.nil_append, shortString_escape] at h
          cases h
          simp at hn
        | cons d u =>
          obtain rfl : d = q := by simpa using hhead
          rw [List.cons_append, shortString_escape] at h ⊢
          rw [List.length_cons] at hn hlen
          cases hshort : shortString d (u ++ v) with
          | none => rwa [shortString_insert_none hq hnewline hshort, ← hshort]
          | some k =>
            rw [hshort] at h
            cases h
            rw [ih u.length (by omega) hshort (by simp at hn; omega) rfl]

include hq hnewline in
/-- Where only the newline has a long string closed, a short string reaches over it. -/
theorem shortString_of_longString_insert {n : Nat} (h : longString q (u ++ '\n' :: v) = some n)
    (hnone : longString q (u ++ v) = none) :
    (u ++ v).head? ≠ some q ∧ ∃ k, shortString q (u ++ v) = some k ∧ u.length < k := by
  induction u using escapes_induction generalizing n with
  | nil =>
    rw [List.nil_append, longString_cons (by decide), if_neg hnewline.symm] at h
    rw [List.nil_append] at hnone
    simp [hnone] at h
  | slash =>
    rw [List.cons_append, List.nil_append, longString_escape] at h
    obtain ⟨k, hk, rfl⟩ := Option.map_eq_some_iff.1 h
    refine ⟨by simpa using hq.symm, ?_⟩
    rw [List.cons_append, List.nil_append]
    by_cases hhead : v.head? = some q
    · obtain ⟨w, rfl⟩ := List.head?_eq_some_iff.1 hhead
      exact ⟨_, shortString_escape w, by simp⟩
    · obtain ⟨j, hj⟩ := Option.ne_none_iff_exists'.1 fun hclosed =>
        (shortString_eq_none_iff hq).1 hclosed (mem_of_longString hk)
      have hpos := shortString_pos hj
      exact ⟨j + 1, by rw [shortString_cons hq.symm fun _ => hhead, hj]; rfl, by simp; omega⟩
  | escape c u ih =>
    simp only [List.cons_append, longString_escape, List.length_cons, Option.map_eq_some_iff,
      Option.map_eq_none_iff] at h hnone ⊢
    obtain ⟨k, hk, rfl⟩ := h
    obtain ⟨hhead, k, hk, hlen⟩ := ih hk hnone
    refine ⟨by simpa using hq.symm, k + 2, ?_, by omega⟩
    by_cases hquote : c = q
    · rw [hquote, shortString_escape, hk, Option.getD_some]
    · rw [shortString_cons hq.symm (by simpa using hquote), shortString_cons hquote fun _ => hhead,
        hk]
      rfl
  | cons c u hc ih =>
    simp only [List.cons_append, longString_cons hc, List.length_cons] at h hnone ⊢
    by_cases hquote : c = q
    · -- the opening quotes of the text would close the string with or without the newline
      rw [if_pos hquote] at h hnone
      split at h
      · next hquotes =>
        obtain ⟨w, rfl⟩ := take_two_insert hnewline hquotes
        simp at hnone
      · cases h
    · rw [if_neg hquote] at h hnone
      obtain ⟨k, hk, rfl⟩ := Option.map_eq_some_iff.1 h
      obtain ⟨hhead, k, hk, hlen⟩ := ih hk (Option.map_eq_none_iff.1 hnone)
      refine ⟨by simpa using hquote, k + 1, ?_, by omega⟩
      rw [shortString_cons hquote fun hslash => absurd hslash hc, hk]
      rfl

end

/-! ### Lexemes -/

theorem splitFrom_eq (skip : Nat) (cs : List Char) :
    splitFrom skip cs = splitFrom 0 (cs.drop skip) := by
  fun_induction splitFrom skip cs with
  | case1 skip => simp [splitFrom]
  | case2 skip c cs ih => exact ih
  | case3 c cs kind extent hscan ih => rw [List.drop_zero, splitFrom, hscan]

/-- The first lexeme of a text, and the lexemes after it. -/
theorem splitFrom_cons (c : Char) (cs : List Char) : splitFrom 0 (c :: cs) =
    ⟨(scan c cs).1, c :: cs.take (scan c cs).2⟩ :: splitFrom 0 (cs.drop (scan c cs).2) := by
  rw [splitFrom, ← splitFrom_eq]

/-- A text is cut into lexemes, and a place between two of them divides it into `u` and `v`. -/
structure Cuts (before after : List Lexeme) (u v : List Char) : Prop where
  split : splitFrom 0 (u ++ v) = before ++ after
  text : before.flatMap text = u

/-- The first lexeme of a text lies before a place between two lexemes. -/
theorem Cuts.cons {before after : List Lexeme} {c : Char} {u v : List Char}
    (h : Cuts before after (c :: u) v) :
    (scan c (u ++ v)).2 ≤ u.length ∧
      ∃ rest, before = ⟨(scan c (u ++ v)).1, c :: u.take (scan c (u ++ v)).2⟩ :: rest ∧
        Cuts rest after (u.drop (scan c (u ++ v)).2) v := by
  obtain ⟨hsplit, htext⟩ := h
  rcases before with _ | ⟨l, before⟩
  · cases htext
  have hle := scan_le c (u ++ v)
  rw [List.cons_append, splitFrom_cons] at hsplit
  obtain ⟨rfl, hrest⟩ := List.cons.inj hsplit
  generalize (scan c (u ++ v)).2 = extent at hle hrest htext
  have htake : (u ++ v).take extent ++ before.flatMap Lexeme.text = u := (List.cons.inj htext).2
  have hlen : extent ≤ u.length := by
    have := congrArg List.length htake
    rw [List.length_append, List.length_take] at this
    omega
  rw [List.take_append_of_le_length hlen] at htake ⊢
  rw [List.drop_append_of_le_length hlen] at hrest
  exact ⟨hlen, before, rfl, hrest,
    List.append_cancel_left (htake.trans (List.take_append_drop extent u).symm)⟩

/-- Three quotes open a long string, if it is closed. -/
theorem stringLexeme_of_long {q : Char} {cs : List Char} {n : Nat}
    (h : longString q cs = some n) : stringLexeme q (q :: q :: cs) = (.longString, n + 2) := by
  simp [stringLexeme, h]

theorem stringLexeme_of_short {q : Char} {cs : List Char}
    (h : ∀ w, cs = q :: q :: w → longString q w = none) :
    stringLexeme q cs =
      ((shortString q cs).map fun n => (TokenKind.string, n)).getD (.mismatch, 0) := by
  have hlong : (if cs.take 2 == [q, q] then (longString q (cs.drop 2)).map (· + 2) else none) =
      none := by
    rcases cs with _ | ⟨c, _ | ⟨d, w⟩⟩ <;> grind
  unfold stringLexeme
  simp only [hlong]
  cases shortString q cs <;> rfl

/-- A string that is cut off before the place of a newline is not changed by it. -/
theorem stringLexeme_insert {q : Char} (hq : q ≠ '\\') (hnewline : q ≠ '\n')
    (hscan : ∀ cs, scan q cs = stringLexeme q cs) {before after : List Lexeme} {u v : List Char}
    (h : Cuts before after (q :: u) v) :
    stringLexeme q (u ++ '\n' :: v) = stringLexeme q (u ++ v) := by
  obtain ⟨hle, rest, -, hcuts⟩ := h.cons
  rw [hscan] at hle hcuts
  by_cases hlong : ∀ w, u ++ v = q :: q :: w → longString q w = none
  · have hlong' : ∀ w, u ++ '\n' :: v = q :: q :: w → longString q w = none := by
      intro w hw
      obtain ⟨u, rfl⟩ := take_two_insert hnewline (by rw [hw]; rfl)
      obtain rfl : u ++ '\n' :: v = w := by simpa using hw
      have hnone := hlong (u ++ v) rfl
      refine Option.eq_none_iff_forall_ne_some.2 fun n hn => ?_
      -- the third quote starts a string, which would reach over the newline
      obtain ⟨hhead, k, hk, hlen⟩ := shortString_of_longString_insert hq hnewline hn hnone
      have hempty : stringLexeme q (q :: q :: u ++ v) = (.string, 1) := by
        rw [stringLexeme_of_short hlong, List.cons_append, shortString_close hq]
        rfl
      have hthird : stringLexeme q (u ++ v) = (.string, k) := by
        rw [stringLexeme_of_short fun w hw => absurd (by rw [hw]; rfl) hhead, hk]
        rfl
      rw [hempty] at hcuts
      have hover := (Cuts.cons hcuts).1
      rw [hscan, hthird] at hover
      omega
    rw [stringLexeme_of_short hlong] at hle
    rw [stringLexeme_of_short hlong, stringLexeme_of_short hlong']
    cases hshort : shortString q (u ++ v) with
    | none => rw [shortString_insert_none hq hnewline hshort]
    | some n =>
      rw [hshort] at hle
      rw [shortString_insert hq hnewline hshort hle]
  · -- a long string, which ends before the newline
    obtain ⟨w, hw⟩ := Classical.not_forall.1 hlong
    obtain ⟨huv, hw⟩ := Classical.not_imp.1 hw
    obtain ⟨n, hn⟩ := Option.ne_none_iff_exists'.1 hw
    rw [huv, stringLexeme_of_long hn] at hle
    rcases u with _ | ⟨c, _ | ⟨d, u⟩⟩
    · cases hle
    · exact absurd (Nat.le_of_succ_le_succ hle) (Nat.not_succ_le_zero n)
    · obtain ⟨rfl, rfl, rfl⟩ : c = q ∧ d = c ∧ u ++ v = w := by
        simp_all
      rw [List.length_cons, List.length_cons] at hle
      have hinsert := longString_insert hn (by omega)
      exact (stringLexeme_of_long hinsert).trans (stringLexeme_of_long hn).symm

/-- The scanner finds the same lexeme with a newline between later lexemes or at its end. -/
theorem scan_insert {before after : List Lexeme} {c : Char} {u v : List Char}
    (h : Cuts before after (c :: u) v) :
    scan c (u ++ '\n' :: v) = scan c (u ++ v) := by
  by_cases hquote : c = '"' ∨ c = '\''
  · rcases hquote with rfl | rfl <;>
      exact stringLexeme_insert (by decide) (by decide) (fun _ => rfl) h
  obtain ⟨hle, -⟩ := h.cons
  have hdigit : Text.isDecimal '\n' = false := rfl
  have hname : isNameRest '\n' = false := rfl
  fun_cases scan c (u ++ v) <;>
    grind [scan, run_insert, head?_insert, oneOrTwo_insert, slashLexeme_insert, numberTail_insert]

/-- With a newline between two lexemes, the newline is one more lexeme. -/
theorem splitFrom_insert {before after : List Lexeme} {u v : List Char}
    (h : Cuts before after u v) :
    splitFrom 0 (u ++ '\n' :: v) = before ++ ⟨.newline, ['\n']⟩ :: after := by
  induction before generalizing u with
  | nil =>
    obtain ⟨hsplit, rfl⟩ := h
    exact congrArg (⟨.newline, ['\n']⟩ :: ·) hsplit
  | cons l before ih =>
    have hl : l ∈ splitFrom 0 (u ++ v) := by simp [h.split]
    cases u with
    | nil => exact absurd (List.append_eq_nil_iff.1 h.text).1 (text_ne_nil hl)
    | cons c u =>
      obtain ⟨hle, rest, hcons, hrest⟩ := h.cons
      obtain ⟨rfl, rfl⟩ := List.cons.inj hcons
      rw [List.cons_append, splitFrom_cons, scan_insert h, List.drop_append_of_le_length hle,
        ih hrest, List.take_append_of_le_length hle]
      rfl

/-- Kinds and texts of tokens do not depend on lines and gaps. -/
theorem map_toTokens_text (line : Nat) (ls : List Lexeme) :
    (toTokens line ls).map (fun t => (t.kind, t.text)) =
      (ls.filter isToken).map fun l => (l.kind, String.ofList l.text) := by
  simpa [Function.comp_def] using
    congrArg (List.map fun x => (x.1, String.ofList x.2)) (map_toTokens line ls)

end Lexeme

/-- A position of a text before its first lexeme, between two lexemes or after the last one. -/
def IsBoundary (s : String) (p : Nat) : Prop :=
  ∃ before after, Lexeme.split s = before ++ after ∧ (before.flatMap Lexeme.text).length = p

open Lexeme in
/-- A newline before, between or after the lexemes of a text leaves kinds and texts of the tokens as
they are. -/
theorem tokenize_insert_newline {s : String} {p : Nat} (h : IsBoundary s p) :
    (tokenize (String.ofList (s.toList.take p ++ '\n' :: s.toList.drop p))).map
        (fun t => (t.kind, t.text)) =
      (tokenize s).map fun t => (t.kind, t.text) := by
  obtain ⟨before, after, hsplit, rfl⟩ := h
  have htext : before.flatMap text ++ after.flatMap text = s.toList := by
    rw [← List.flatMap_append, ← hsplit]
    exact flatMap_text_splitFrom 0 s.toList
  have hcuts : Cuts before after (before.flatMap text) (after.flatMap text) :=
    ⟨by rw [htext]; exact hsplit, rfl⟩
  rw [← htext, List.take_left, List.drop_left, tokenize, tokenize, split, String.toList_ofList,
    splitFrom_insert hcuts, hsplit, map_toTokens_text, map_toTokens_text, List.filter_append,
    List.filter_append]
  rfl

/-- An unclosed long string is an empty string and another one, and a newline may stand between. -/
theorem tokenize_insert_newline_unclosed :
    let s := "x = \"\"\"a\\\""
    IsBoundary s 6 ∧ (tokenize "x = \"\"\n\"a\\\"").map (fun t => (t.kind, t.text)) =
      (tokenize s).map fun t => (t.kind, t.text) := by
  intro s
  have h : IsBoundary s 6 :=
    ⟨[⟨.name, ['x']⟩, ⟨.skip, [' ']⟩, ⟨.equal, ['=']⟩, ⟨.skip, [' ']⟩, ⟨.string, ['"', '"']⟩],
      [⟨.string, ['"', 'a', '\\', '"']⟩], by decide +kernel, rfl⟩
  have hinserted : String.ofList (s.toList.take 6 ++ '\n' :: s.toList.drop 6) =
      "x = \"\"\n\"a\\\"" := by decide +kernel
  refine ⟨h, ?_⟩
  rw [← hinserted]
  exact tokenize_insert_newline h

end ScriptLang
