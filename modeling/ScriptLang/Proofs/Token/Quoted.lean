import ScriptLang.Proofs.Token.Newline

/-!
# Where strings end

In the body of a string each backslash escapes the character after it, and a quote stands only after
a backslash that escapes it. A long string ends right after its body. A short string does not pair
its backslashes: any backslash in front of a quote seems to escape it. So a body that ends with a
backslash, itself an escaped one, ends there only if the rest of the text has no quote at all;
otherwise the string goes on to a later quote.
-/

namespace ScriptLang

namespace Lexeme

variable {q : Char} {body : List Char}

/-- The body of a string in quotes `q`: a backslash escapes the character after it, and all other
characters are no quotes. -/
inductive QuotedBody (q : Char) : List Char → Prop where
  | nil : QuotedBody q []
  | plain {c : Char} {cs : List Char} : c ≠ '\\' → c ≠ q → QuotedBody q cs → QuotedBody q (c :: cs)
  | escape (c : Char) {cs : List Char} : QuotedBody q cs → QuotedBody q ('\\' :: c :: cs)

theorem QuotedBody.head?_ne (h : QuotedBody q body) (hq : q ≠ '\\') : body.head? ≠ some q := by
  cases h with
  | nil => exact nofun
  | plain _ hc _ => simpa using hc
  | escape c _ => simpa using hq.symm

/-! ### Extents -/

/-- A long string ends at the first three quotes after its body. -/
theorem longString_body (h : QuotedBody q body) (hq : q ≠ '\\') (rest : List Char) :
    longString q (body ++ q :: q :: q :: rest) = some (body.length + 3) := by
  induction h with
  | nil => simp [longString_cons hq]
  | plain hslash hc _ ih => rw [List.cons_append, longString_cons hslash, if_neg hc, ih]; rfl
  | escape c _ ih => rw [List.cons_append, List.cons_append, longString_escape, ih]; rfl

/-- How far a string goes on after the quote that closes its body: not at all, unless the body ends
with a backslash, and then as far as a string that opens there. -/
def overrun (q : Char) (body rest : List Char) : Nat :=
  if body.getLast? = some '\\' then (shortString q rest).getD 0 else 0

theorem overrun_cons {c d : Char} {cs : List Char} (rest : List Char) :
    overrun q (c :: d :: cs) rest = overrun q (d :: cs) rest := by
  rw [overrun, List.getLast?_cons_cons, overrun]

theorem overrun_cons_of_ne {c : Char} (hc : c ≠ '\\') (cs rest : List Char) :
    overrun q (c :: cs) rest = overrun q cs rest := by
  cases cs with
  | nil => simp [overrun, hc]
  | cons d cs => exact overrun_cons rest

/-- A string ends at its closing quote, unless its body ends with a backslash and there is a later
quote. -/
theorem overrun_eq_zero_iff (hq : q ≠ '\\') (body rest : List Char) :
    overrun q body rest = 0 ↔ (body.getLast? = some '\\' → q ∉ rest) := by
  rw [overrun, ← shortString_eq_none_iff hq]
  split
  · next hlast =>
    cases hshort : shortString q rest with
    | none => simp [hlast]
    | some n => simpa [hlast] using Nat.ne_of_gt (shortString_pos hshort)
  · next hlast => simp [hlast]

theorem overrun_le (q : Char) (body rest : List Char) : overrun q body rest ≤ rest.length := by
  unfold overrun
  split
  · cases hshort : shortString q rest with
    | none => exact Nat.zero_le _
    | some n => exact shortString_le hshort
  · exact Nat.zero_le _

/-- A string ends at the quote that closes its body, or overruns it. -/
theorem shortString_body (h : QuotedBody q body) (hq : q ≠ '\\') (rest : List Char) :
    shortString q (body ++ q :: rest) = some (body.length + 1 + overrun q body rest) := by
  induction h with
  | nil => rw [List.nil_append, shortString_close hq]; rfl
  | @plain c cs hslash hc hcs ih =>
    rw [List.cons_append, shortString_cons hc (fun h => absurd h hslash), ih,
      overrun_cons_of_ne hslash, Option.map_some, List.length_cons]
    exact congrArg some (by omega)
  | @escape c cs hcs ih =>
    by_cases hc : c = q
    · subst hc
      rw [List.cons_append, List.cons_append, shortString_escape, ih, overrun_cons,
        overrun_cons_of_ne hq, Option.getD_some, List.length_cons, List.length_cons]
      exact congrArg some (by omega)
    · -- the escaped character is read once more; if it is a backslash, it may seem to escape
      have hagain : shortString q (c :: cs ++ q :: rest) =
          some (cs.length + 2 + overrun q (c :: cs) rest) := by
        cases cs with
        | nil =>
          by_cases hslash : c = '\\'
          · rw [hslash, List.cons_append, List.nil_append, shortString_escape]
            exact congrArg some (Nat.add_comm _ _)
          · rw [List.cons_append, shortString_cons hc (fun h => absurd h hslash), ih]
            simp [overrun, hslash]
        | cons d cs =>
          have hd : d ≠ q := by simpa using hcs.head?_ne hq
          rw [List.cons_append, shortString_cons hc (fun _ => by simpa using hd), ih, overrun_cons,
            Option.map_some]
          exact congrArg some (by omega)
      rw [List.cons_append, shortString_cons hq.symm (fun _ => by simpa using hc), hagain,
        overrun_cons, Option.map_some, List.length_cons, List.length_cons]
      exact congrArg some (by omega)

/-- A string ends with a quote. -/
theorem getLast?_take_shortString {cs : List Char} {n : Nat} (h : shortString q cs = some n) :
    (cs.take n).getLast? = some q := by
  fun_induction shortString q cs generalizing n with
  | case1 => cases h
  | case2 c cs hc k hk ih =>
    cases h
    simp [List.getLast?_cons, ih hk]
  | case3 c cs hc hnone =>
    cases h
    simpa using hc
  | case4 c cs hc ih =>
    obtain ⟨k, hk, rfl⟩ := Option.map_eq_some_iff.1 h
    rw [List.take_succ_cons, List.getLast?_cons, ih hk, Option.getD_some]
  | case5 c cs _ hc =>
    cases h
    simpa using hc
  | case6 c cs _ hc ih =>
    obtain ⟨k, hk, rfl⟩ := Option.map_eq_some_iff.1 h
    rw [List.take_succ_cons, List.getLast?_cons, ih hk, Option.getD_some]

/-! ### First tokens -/

theorem scan_quote (hq : q = '"' ∨ q = '\'') (cs : List Char) : scan q cs = stringLexeme q cs := by
  obtain rfl | rfl := hq <;> rfl

/-- What the scanner finds at the start of a text is its first token, unless that is a gap. -/
theorem head?_tokenize {c : Char} {u rest : List Char} {kind : TokenKind}
    (h : scan c (u ++ rest) = (kind, u.length)) (hkind : kind.isGap = false) :
    (tokenize (String.ofList (c :: (u ++ rest)))).head? =
      some ⟨kind, String.ofList (c :: u), 1⟩ := by
  rw [tokenize, split, String.toList_ofList, splitFrom_cons, h, toTokens_cons, isToken, hkind,
    List.take_left]
  rfl

/-- The first token of a text that starts with a string. -/
theorem head?_tokenize_short (hq : q = '"' ∨ q = '\'') (hbody : QuotedBody q body)
    {rest : List Char} (hrest : rest.head? ≠ some q) :
    (tokenize (String.ofList (q :: body ++ q :: rest))).head? =
      some ⟨.string, String.ofList (q :: body ++ q :: rest.take (overrun q body rest)), 1⟩ := by
  have hslash : q ≠ '\\' := by obtain rfl | rfl := hq <;> decide
  have hlong : ∀ w, body ++ q :: rest = q :: q :: w → longString q w = none := by
    intro w hw
    cases body with
    | nil => exact absurd (congrArg List.head? (List.cons.inj hw).2) hrest
    | cons c cs => exact absurd (congrArg some (List.cons.inj hw).1) (hbody.head?_ne hslash)
  have hscan : scan q (body ++ q :: rest) =
      (.string, body.length + 1 + overrun q body rest) := by
    rw [scan_quote hq, stringLexeme_of_short hlong, shortString_body hbody hslash]
    rfl
  have hsplit : body ++ q :: rest = (body ++ q :: rest.take (overrun q body rest)) ++
      rest.drop (overrun q body rest) := by
    rw [List.append_assoc, List.cons_append, List.take_append_drop]
  rw [hsplit] at hscan
  rw [List.cons_append, hsplit]
  refine head?_tokenize (hscan.trans (congrArg _ ?_)) rfl
  have hle := overrun_le q body rest
  simp only [List.length_append, List.length_cons, List.length_take]
  omega

/-- The same for a long string, which does not overrun its quotes. -/
theorem head?_tokenize_long (hq : q = '"' ∨ q = '\'') (hbody : QuotedBody q body)
    (rest : List Char) :
    (tokenize (String.ofList (q :: q :: q :: body ++ q :: q :: q :: rest))).head? =
      some ⟨.longString, String.ofList (q :: q :: q :: body ++ [q, q, q]), 1⟩ := by
  have hslash : q ≠ '\\' := by obtain rfl | rfl := hq <;> decide
  have hscan := stringLexeme_of_long (longString_body hbody hslash rest)
  have hsplit : q :: q :: (body ++ q :: q :: q :: rest) =
      q :: q :: (body ++ [q, q, q]) ++ rest := by simp
  rw [← scan_quote hq, hsplit] at hscan
  simp only [List.cons_append]
  rw [hsplit]
  exact head?_tokenize (hscan.trans (by simp)) rfl

end Lexeme

open Lexeme in
/-- Where a string ends. The first token of a text that starts with a body between two quotes is
that string exactly if the body does not end with a backslash or the rest of the text has no quote.
Otherwise it is a string that goes on to a later quote. Between two triples of quotes the body is
always the first token. -/
theorem tokenize_quoted_iff {q : Char} (hq : q = '"' ∨ q = '\'') {body : List Char}
    (hbody : QuotedBody q body) (rest : List Char) :
    (rest.head? ≠ some q →
      let first := (tokenize (String.ofList (q :: body ++ q :: rest))).head?
      (first = some ⟨.string, String.ofList (q :: body ++ [q]), 1⟩ ↔
        (body.getLast? = some '\\' → q ∉ rest)) ∧
      (body.getLast? = some '\\' → q ∈ rest → ∃ more after, rest = more ++ q :: after ∧
        first = some ⟨.string, String.ofList (q :: body ++ q :: (more ++ [q])), 1⟩)) ∧
    (tokenize (String.ofList (q :: q :: q :: body ++ q :: q :: q :: rest))).head? =
      some ⟨.longString, String.ofList (q :: q :: q :: body ++ [q, q, q]), 1⟩ := by
  have hslash : q ≠ '\\' := by obtain rfl | rfl := hq <;> decide
  refine ⟨fun hrest => ?_, head?_tokenize_long hq hbody rest⟩
  have hfirst := head?_tokenize_short hq hbody hrest
  dsimp only
  rw [hfirst]
  refine ⟨?_, fun hlast hmem => ?_⟩
  · have hle := overrun_le q body rest
    rw [← overrun_eq_zero_iff hslash]
    constructor
    · intro heq
      have htext := String.ofList_injective (Token.mk.inj (Option.some.inj heq)).2.1
      have hlen := congrArg List.length htext
      simp only [List.length_append, List.length_cons, List.length_take, List.length_nil] at hlen
      omega
    · intro hzero
      rw [hzero, List.take_zero]
  · cases hshort : shortString q rest with
    | none => exact absurd hmem ((shortString_eq_none_iff hslash).1 hshort)
    | some n =>
      have hover : overrun q body rest = n := by rw [overrun, if_pos hlast, hshort]; rfl
      obtain ⟨more, hmore⟩ := List.getLast?_eq_some_iff.1 (getLast?_take_shortString hshort)
      refine ⟨more, rest.drop n, ?_, by rw [hover, hmore]⟩
      calc rest = rest.take n ++ rest.drop n := (List.take_append_drop n rest).symm
        _ = more ++ q :: rest.drop n := by rw [hmore, List.append_assoc]; rfl

open Lexeme in
/-- A string of one escaped backslash ends where it should before `+ x`; before `+ "x"` it does not,
though three quotes on each side make it end there too. -/
theorem tokenize_quoted_iff_backslash :
    let body := ['\\', '\\']
    QuotedBody '"' body ∧
    (tokenize "\"\\\\\" + x").head? = some ⟨.string, "\"\\\\\"", 1⟩ ∧
    (tokenize "\"\\\\\" + \"x\"").head? ≠ some ⟨.string, "\"\\\\\"", 1⟩ ∧
    (tokenize "\"\"\"\\\\\"\"\" + \"x\"").head? =
      some ⟨.longString, "\"\"\"\\\\\"\"\"", 1⟩ := by
  intro body
  have hbody : QuotedBody '"' body := .escape _ .nil
  obtain ⟨halone, -⟩ := tokenize_quoted_iff (.inl rfl) hbody [' ', '+', ' ', 'x']
  obtain ⟨hbefore, hlong⟩ := tokenize_quoted_iff (.inl rfl) hbody [' ', '+', ' ', '"', 'x', '"']
  refine ⟨hbody, (halone (by decide)).1.2 (by decide), fun hends => ?_, hlong⟩
  exact absurd ((hbefore (by decide)).1.1 hends rfl) (by decide)

end ScriptLang
