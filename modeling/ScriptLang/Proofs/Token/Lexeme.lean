import ScriptLang.Token.Lexeme

/-!
# Lexemes cover the text

Cutting a text into lexemes loses nothing: the lexemes are not empty and put together they are the
text. Each is what the scanner finds where it starts, with all of the text after it in view, and
ends inside the text. So the line of a token can be read off the text before it.
-/

namespace ScriptLang

namespace Lexeme

/-! ### Extents -/

theorem run_le (p : Char → Bool) (cs : List Char) : run p cs ≤ cs.length :=
  (List.takeWhile_prefix p).length_le

theorem blockComment_le {cs : List Char} {n : Nat} (h : blockComment cs = some n) :
    n ≤ cs.length := by
  fun_induction blockComment cs generalizing n with
  | case1 => cases h
  | case2 cs =>
    cases h
    simp
  | case3 c cs _ ih =>
    obtain ⟨k, hk, rfl⟩ := Option.map_eq_some_iff.1 h
    exact Nat.succ_le_succ (ih hk)

theorem longString_le {q : Char} {cs : List Char} {n : Nat} (h : longString q cs = some n) :
    n ≤ cs.length := by
  fun_induction longString q cs generalizing n with
  | case1 => cases h
  | case2 => cases h
  | case3 c cs ih =>
    obtain ⟨k, hk, rfl⟩ := Option.map_eq_some_iff.1 h
    exact Nat.succ_le_succ (Nat.succ_le_succ (ih hk))
  | case4 c cs _ _ _ hquotes =>
    cases h
    have hlen : (cs.take 2).length = 2 := by rw [beq_iff_eq.1 hquotes]; rfl
    simp only [List.length_take, List.length_cons] at hlen ⊢
    omega
  | case5 => cases h
  | case6 c cs _ _ _ ih =>
    obtain ⟨k, hk, rfl⟩ := Option.map_eq_some_iff.1 h
    exact Nat.succ_le_succ (ih hk)

theorem shortString_le {q : Char} {cs : List Char} {n : Nat} (h : shortString q cs = some n) :
    n ≤ cs.length := by
  fun_induction shortString q cs generalizing n with
  | case1 => cases h
  | case2 c cs _ k hk ih =>
    cases h
    exact Nat.succ_le_succ (Nat.succ_le_succ (ih hk))
  | case3 c cs _ _ =>
    cases h
    simp
  | case4 c cs _ ih =>
    obtain ⟨k, hk, rfl⟩ := Option.map_eq_some_iff.1 h
    exact Nat.succ_le_succ (ih hk)
  | case5 c cs _ _ =>
    cases h
    simp
  | case6 c cs _ _ ih =>
    obtain ⟨k, hk, rfl⟩ := Option.map_eq_some_iff.1 h
    exact Nat.succ_le_succ (ih hk)

theorem stringLexeme_le (q : Char) (cs : List Char) : (stringLexeme q cs).2 ≤ cs.length := by
  unfold stringLexeme
  dsimp only
  split
  · next n hlong =>
    split at hlong
    · next hquotes =>
      obtain ⟨k, hk, rfl⟩ := Option.map_eq_some_iff.1 hlong
      have hbody := longString_le hk
      have hlen : (cs.take 2).length = 2 := by rw [beq_iff_eq.1 hquotes]; rfl
      simp only [List.length_take, List.length_drop] at hlen hbody ⊢
      omega
    · cases hlong
  · split
    · next n hshort => exact shortString_le hshort
    · exact Nat.zero_le _

theorem numberTail_le (cs : List Char) : numberTail cs ≤ cs.length := by
  have hwhole := run_le Text.isDecimal cs
  unfold numberTail
  dsimp only
  split
  · next rest hrest =>
    have hfraction := run_le Text.isDecimal rest
    have hlen := congrArg List.length hrest
    simp only [List.length_drop, List.length_cons] at hlen
    split <;> omega
  · exact hwhole

theorem oneOrTwo_le (c : Char) (two one : TokenKind) (cs : List Char) :
    (oneOrTwo c two one cs).2 ≤ cs.length := by
  unfold oneOrTwo
  cases cs with
  | nil => simp
  | cons d cs => split <;> simp

theorem slashLexeme_le (cs : List Char) : (slashLexeme cs).2 ≤ cs.length := by
  unfold slashLexeme
  split
  · exact Nat.succ_le_succ (run_le _ _)
  · split
    · next hcomment => exact Nat.succ_le_succ (blockComment_le hcomment)
    · exact Nat.zero_le _
  · simp
  · exact Nat.zero_le _

/-- A lexeme ends inside the text. -/
theorem scan_le (c : Char) (cs : List Char) : (scan c cs).2 ≤ cs.length := by
  have hnext (d : Char) (h : cs.head? = some d) : 1 ≤ cs.length := by
    cases cs with
    | nil => cases h
    | cons => simp
  unfold scan
  split <;> grind [run_le, oneOrTwo_le, stringLexeme_le, slashLexeme_le, numberTail_le]

/-! ### Cutting -/

theorem text_ne_nil {skip : Nat} {cs : List Char} {l : Lexeme} (h : l ∈ splitFrom skip cs) :
    l.text ≠ [] := by
  fun_induction splitFrom skip cs with
  | case1 => cases h
  | case2 skip c cs ih => exact ih h
  | case3 c cs kind extent _ ih =>
    rcases List.mem_cons.1 h with rfl | h
    · exact List.cons_ne_nil _ _
    · exact ih h

/-- The lexemes of a text make up the text. -/
theorem flatMap_text_splitFrom (skip : Nat) (cs : List Char) :
    (splitFrom skip cs).flatMap text = cs.drop skip := by
  fun_induction splitFrom skip cs with
  | case1 skip => simp
  | case2 skip c cs ih => exact ih
  | case3 c cs kind extent _ ih =>
    rw [List.flatMap_cons, ih, List.cons_append, List.take_append_drop, List.drop_zero]

/-- A lexeme is the one that the scanner finds where it starts. -/
def FoundBefore (l : Lexeme) (rest : List Char) : Prop :=
  ∃ c cs, l.text ++ rest = c :: cs ∧ scan c cs = (l.kind, l.text.length - 1)

/-- Each lexeme is what the scanner finds at its place. -/
theorem foundBefore_splitFrom {skip : Nat} {cs : List Char} {before after : List Lexeme}
    {l : Lexeme} (h : splitFrom skip cs = before ++ l :: after) :
    l.FoundBefore (after.flatMap text) := by
  fun_induction splitFrom skip cs generalizing before with
  | case1 => simp at h
  | case2 skip c cs ih => exact ih h
  | case3 c cs kind extent hscan ih =>
    cases before with
    | cons first before => exact ih (List.cons.inj h).2
    | nil =>
      obtain ⟨rfl, rfl⟩ := List.cons.inj h
      have hle : extent ≤ cs.length := by simpa [hscan] using scan_le c cs
      refine ⟨c, cs, ?_, ?_⟩
      · rw [flatMap_text_splitFrom, List.cons_append, List.take_append_drop]
      · simp [hscan, hle]

/-! ### Tokens -/

def isToken (l : Lexeme) : Bool := !l.kind.isGap

theorem toTokens_cons (line : Nat) (l : Lexeme) (ls : List Lexeme) :
    toTokens line (l :: ls) = (if l.isToken then [⟨l.kind, String.ofList l.text, line⟩] else []) ++
      toTokens (line + l.newlines) ls := by
  unfold isToken
  rw [toTokens]
  cases l.kind.isGap <;> rfl

theorem map_toTokens (line : Nat) (ls : List Lexeme) :
    (toTokens line ls).map (fun t => (t.kind, t.text.toList)) =
      (ls.filter isToken).map fun l => (l.kind, l.text) := by
  induction ls generalizing line with
  | nil => rfl
  | cons l ls ih =>
    rw [toTokens_cons, List.map_append, ih]
    cases h : l.isToken <;> simp [h]

/-- The tokens of lexemes in a row, where the lines go on from those before. -/
theorem toTokens_append (line : Nat) (ls more : List Lexeme) :
    toTokens line (ls ++ more) =
      toTokens line ls ++ toTokens (line + (ls.flatMap text).count '\n') more := by
  induction ls generalizing line with
  | nil => rfl
  | cons l ls ih =>
    rw [List.cons_append, toTokens_cons, toTokens_cons, ih, List.append_assoc, List.flatMap_cons,
      List.count_append, newlines, Nat.add_assoc]

theorem length_toTokens (line : Nat) (ls : List Lexeme) :
    (toTokens line ls).length = (ls.filter isToken).length := by
  simpa using congrArg List.length (map_toTokens line ls)

end Lexeme

/-- Tokenizing loses nothing and counts lines right. The lexemes of a text are not empty, put
together they are the text, and each is the one that the scanner finds where it starts. The tokens
are the lexemes that are no gaps, in order. The line of a token is one more than the number of line
ends in the text before it. -/
theorem tokenize_lossless (s : String) :
    (∀ l ∈ Lexeme.split s, l.text ≠ []) ∧
    (Lexeme.split s).flatMap Lexeme.text = s.toList ∧
    (∀ before l after, Lexeme.split s = before ++ l :: after →
      l.FoundBefore (after.flatMap Lexeme.text)) ∧
    (tokenize s).map (fun t => (t.kind, t.text.toList)) =
      ((Lexeme.split s).filter Lexeme.isToken).map (fun l => (l.kind, l.text)) ∧
    ∀ before l after, Lexeme.split s = before ++ l :: after → l.isToken = true →
      (tokenize s)[(before.filter Lexeme.isToken).length]? = some
        ⟨l.kind, String.ofList l.text, 1 + (before.flatMap Lexeme.text).count '\n'⟩ := by
  refine ⟨fun l => Lexeme.text_ne_nil, Lexeme.flatMap_text_splitFrom 0 s.toList,
    fun before l after => Lexeme.foundBefore_splitFrom, Lexeme.map_toTokens 1 _,
    fun before l after hsplit htoken => ?_⟩
  rw [tokenize, hsplit, Lexeme.toTokens_append, Lexeme.toTokens_cons, if_pos htoken,
    ← Lexeme.length_toTokens 1 before, List.getElem?_append_right (Nat.le_refl _), Nat.sub_self]
  rfl

end ScriptLang
