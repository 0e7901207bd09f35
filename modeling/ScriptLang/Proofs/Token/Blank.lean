import ScriptLang.Proofs.Token.Newline
import ScriptLang.Text.Blank

/-!
# Blanks around the tokens of a line

Blanks at the ends of a line can be taken away without a change of its tokens, provided that all its
tokens can stand in an expression. Of the blanks only the space and the tab are a gap: any other one
is a token that starts nothing. And a command for the shell goes on to the end of the line.

At the start, blanks are gaps. At the end, a blank continues no token; it is a gap of its own or
lies in a comment.
-/

namespace ScriptLang

/-- The kinds that stand in no expression: a command for the shell, and a character that starts
nothing. -/
def TokenKind.isForeign : TokenKind → Bool
  | .shell | .mismatch => true
  | _ => false

namespace Lexeme

/-! ### Blanks start nothing and continue nothing -/

def blankCodes : List Nat :=
  [9, 10, 11, 12, 13, 0x1c, 0x1d, 0x1e, 0x1f, 0x20, 0x85, 0xa0, 0x1680, 0x2000, 0x2001, 0x2002,
   0x2003, 0x2004, 0x2005, 0x2006, 0x2007, 0x2008, 0x2009, 0x200a, 0x2028, 0x2029, 0x202f, 0x205f,
   0x3000]

/-- A character that is part of no token beyond strings. -/
def isInert (c : Char) : Bool :=
  !Text.isDecimal c && !isNameRest c && !"\"'/>=&|.*\\".toList.contains c

/-- Blanks are part of no token beyond strings. -/
theorem isInert_of_isBlank {c : Char} (h : Text.isBlank c = true) : isInert c = true := by
  have hcode : c.toNat ∈ blankCodes := by
    simp only [Text.isBlank, Bool.or_eq_true, Bool.and_eq_true, decide_eq_true_eq,
      beq_iff_eq] at h
    simp only [blankCodes, List.mem_cons, List.not_mem_nil, or_false]
    omega
  have hall : ∀ n ∈ blankCodes, isInert (Char.ofNat n) = true := by decide
  rw [← Char.ofNat_toNat c]
  exact hall _ hcode

/-- A blank other than those of a gap starts nothing. -/
theorem scan_of_isBlank {c : Char} (h : Text.isBlank c = true)
    (hgap : c ≠ ' ' ∧ c ≠ '\t' ∧ c ≠ '\n') (cs : List Char) : scan c cs = (.mismatch, 0) := by
  have hinert : isInert c = true := isInert_of_isBlank h
  simp only [isInert, isNameRest, Bool.and_eq_true, Bool.not_eq_true', Bool.or_eq_false_iff]
    at hinert
  unfold scan
  split
  all_goals first
    | exact absurd h (by decide)
    | exact absurd rfl hgap.1
    | exact absurd rfl hgap.2.1
    | exact absurd rfl hgap.2.2
    | simp [hinert]

/-- A run to the end of the line. -/
theorem run_line {cs : List Char} (h : '\n' ∉ cs) : run (· != '\n') cs = cs.length := by
  have hall : ∀ c ∈ cs, (c != '\n') = true := by
    intro c hc
    exact bne_iff_ne.2 fun heq => h (heq ▸ hc)
  have hself : (cs ++ []).takeWhile (· != '\n') = cs ++ [].takeWhile (· != '\n') :=
    List.takeWhile_append_of_pos hall
  rw [List.append_nil, List.takeWhile_nil, List.append_nil] at hself
  rw [run, hself]

theorem slashLexeme_cons (c : Char) (cs : List Char) : slashLexeme (c :: cs) =
    if c = '/' then (.comment, run (· != '\n') cs + 1)
    else if c = '*' then ((blockComment cs).map fun n => (TokenKind.comment, n + 1)).getD (.op, 0)
    else if c = '=' then (.divEq, 1) else (.op, 0) := by
  unfold slashLexeme
  split
  · next h => obtain ⟨rfl, rfl⟩ := List.cons.inj h; rfl
  · next h =>
    obtain ⟨rfl, rfl⟩ := List.cons.inj h
    split <;> simp_all
  · next h => obtain ⟨rfl, rfl⟩ := List.cons.inj h; rfl
  · simp_all

section Blanks

variable {u b : List Char} (hb : ∀ c ∈ b, isInert c = true)

include hb

theorem not_mem_of_isInert {c : Char} (hc : isInert c = false) : c ∉ b := by
  intro hmem
  rw [hb c hmem] at hc
  cases hc

/-- A run of characters that are part of tokens ends before blanks. -/
theorem run_append_inert {p : Char → Bool} (hp : ∀ c, p c = true → isInert c = false) :
    run p (u ++ b) = run p u := by
  have hnone : run p b = 0 := by
    cases b with
    | nil => rfl
    | cons c b =>
      have hc : p c = false := by
        rw [Bool.eq_false_iff]
        intro h
        exact not_mem_of_isInert hb (hp c h) List.mem_cons_self
      simp [run, hc]
  rw [run_append, hnone]
  split <;> omega

theorem head?_append_inert {c : Char} (hc : isInert c = false) :
    (u ++ b).head? = some c ↔ u.head? = some c := by
  cases u with
  | cons d u => rfl
  | nil =>
    refine ⟨fun h => ?_, nofun⟩
    exact absurd (List.mem_of_mem_head? h) (not_mem_of_isInert hb hc)

theorem oneOrTwo_append_inert {c : Char} (hc : isInert c = false) (two one : TokenKind) :
    oneOrTwo c two one (u ++ b) = oneOrTwo c two one u := by
  simp only [oneOrTwo, beq_iff_eq, head?_append_inert hb hc]

theorem fractionTail_append_inert : fractionTail (u ++ b) = fractionTail u := by
  cases u with
  | cons c u =>
    by_cases hc : c = '.'
    · subst hc
      have hrun : run Text.isDecimal (u ++ b) = run Text.isDecimal u :=
        run_append_inert hb fun c h => by simp [isInert, h]
      rw [List.cons_append, fractionTail, fractionTail, hrun]
    · simp [fractionTail, hc]
  | nil =>
    cases b with
    | nil => rfl
    | cons c b =>
      have hc : c ≠ '.' := by
        rintro rfl
        exact not_mem_of_isInert hb rfl List.mem_cons_self
      simp [fractionTail, hc]

theorem numberTail_append_inert : numberTail (u ++ b) = numberTail u := by
  have hrun : run Text.isDecimal (u ++ b) = run Text.isDecimal u :=
    run_append_inert hb fun c h => by simp [isInert, h]
  rw [numberTail_eq, numberTail_eq, hrun, List.drop_append_of_le_length (run_le _ _),
    fractionTail_append_inert hb]

theorem blockComment_append_inert : blockComment (u ++ b) = blockComment u := by
  induction u with
  | cons c u ih =>
    have hhead : (u ++ b).head? = some '/' ↔ u.head? = some '/' := head?_append_inert hb rfl
    simp only [List.cons_append, blockComment_cons, ih, hhead]
  | nil =>
    rw [List.nil_append]
    induction b with
    | nil => rfl
    | cons c b ih =>
      have hc : c ≠ '*' := by
        rintro rfl
        exact not_mem_of_isInert hb rfl List.mem_cons_self
      rw [blockComment_cons, if_neg fun h => hc h.1,
        ih fun d hd => hb d (List.mem_cons_of_mem c hd)]
      rfl

theorem take_two_append_inert {q : Char} (hq : isInert q = false) :
    (u ++ b).take 2 = [q, q] ↔ u.take 2 = [q, q] := by
  have hmem : q ∉ b := not_mem_of_isInert hb hq
  rcases u with _ | ⟨c, _ | ⟨d, u⟩⟩
  · rcases b with _ | ⟨c, b⟩ <;> grind
  · rcases b with _ | ⟨d, b⟩ <;> grind
  · rfl

/-- Blanks after a text close no long string. -/
theorem longString_append_inert {q : Char} (hq : isInert q = false) :
    longString q (u ++ b) = longString q u := by
  have hnone {b : List Char} (h : q ∉ b) : longString q b = none := by
    cases hlong : longString q b with
    | none => rfl
    | some n => exact absurd (mem_of_longString hlong) h
  have hmem : q ∉ b := not_mem_of_isInert hb hq
  induction u using escapes_induction with
  | nil => exact hnone hmem
  | slash =>
    cases b with
    | nil => rfl
    | cons c b =>
      rw [List.cons_append, List.nil_append, longString_escape,
        hnone fun h => hmem (List.mem_cons_of_mem c h)]
      rfl
  | escape c u ih =>
    rw [List.cons_append, List.cons_append, longString_escape, longString_escape, ih]
  | cons c u hc ih =>
    have htake : (u ++ b).take 2 = [q, q] ↔ u.take 2 = [q, q] := take_two_append_inert hb hq
    simp only [List.cons_append, longString_cons hc, ih, htake]

theorem shortString_append_inert {q : Char} (hq : isInert q = false) (hslash : q ≠ '\\') :
    shortString q (u ++ b) = shortString q u := by
  have hmem : q ∉ b := not_mem_of_isInert hb hq
  have hnone : shortString q b = none := (shortString_eq_none_iff hslash).2 hmem
  fun_induction shortString q u with
  | case1 => exact hnone
  | case2 c u hc n hn ih =>
    rw [beq_iff_eq.1 hc, List.cons_append, List.cons_append, shortString_escape, ih, hn]
    rfl
  | case3 c u hc hn ih =>
    rw [beq_iff_eq.1 hc, List.cons_append, List.cons_append, shortString_escape, ih, hn]
    rfl
  | case4 c u hc ih =>
    have hhead : (c :: (u ++ b)).head? ≠ some q := by simpa using hc
    rw [← ih, List.cons_append]
    exact shortString_cons (Ne.symm hslash) fun _ => hhead
  | case5 c u _ hc =>
    rw [beq_iff_eq.1 hc, List.cons_append, shortString_close hslash]
  | case6 c u hescape hc ih =>
    rw [← ih, List.cons_append]
    refine shortString_cons (by simpa using hc) fun hc => ?_
    cases u with
    | nil => exact fun h => hmem (List.mem_of_mem_head? h)
    | cons d u => exact (hescape d u hc rfl).elim

theorem stringLexeme_append_inert {q : Char} (hq : isInert q = false) (hslash : q ≠ '\\') :
    stringLexeme q (u ++ b) = stringLexeme q u := by
  have hlong : ((u ++ b).take 2 = [q, q] ↔ u.take 2 = [q, q]) := take_two_append_inert hb hq
  have hbody (h : u.take 2 = [q, q]) : (u ++ b).drop 2 = u.drop 2 ++ b := by
    refine List.drop_append_of_le_length ?_
    have hlen := congrArg List.length h
    simp only [List.length_take, List.length_cons, List.length_nil] at hlen
    omega
  unfold stringLexeme
  rw [shortString_append_inert hb hq hslash]
  by_cases h : u.take 2 = [q, q]
  · simp only [beq_iff_eq, hlong, h, if_true, hbody h, longString_append_inert hb hq]
  · simp only [beq_iff_eq, hlong, h, if_false]

/-- A gap at the end of a line that blanks after it become part of. -/
def Extends (short long : TokenKind × Nat) (length : Nat) : Prop :=
  long.1.isGap = true ∧ short.1 = long.1 ∧ short.2 = length ∧ length ≤ long.2

/-- Blanks after a text go on with a comment at most. -/
theorem slashLexeme_append_inert (hline : '\n' ∉ u ++ b) :
    slashLexeme (u ++ b) = slashLexeme u ∨
      Extends (slashLexeme u) (slashLexeme (u ++ b)) u.length := by
  rcases u with _ | ⟨c, u⟩
  · left
    rcases b with _ | ⟨c, b⟩
    · rfl
    · have hc : isInert c = true := hb c List.mem_cons_self
      have hslash : c ≠ '/' := by rintro rfl; cases hc
      have hstar : c ≠ '*' := by rintro rfl; cases hc
      have hequal : c ≠ '=' := by rintro rfl; cases hc
      rw [List.nil_append, slashLexeme_cons, if_neg hslash, if_neg hstar, if_neg hequal]
      rfl
  · rw [List.cons_append, slashLexeme_cons, slashLexeme_cons, blockComment_append_inert hb]
    by_cases hslash : c = '/'
    · rw [List.cons_append, List.mem_cons, not_or, List.mem_append, not_or] at hline
      right
      rw [if_pos hslash, if_pos hslash, run_line hline.2.1, run_line (by simp [hline.2])]
      exact ⟨rfl, rfl, rfl, by simp⟩
    · left
      rw [if_neg hslash, if_neg hslash]

/-- With blanks after it, a lexeme is the same, unless it is a gap at the end of the line or a
command. -/
theorem scan_append_inert (hline : '\n' ∉ u ++ b) (c : Char) :
    scan c (u ++ b) = scan c u ∨ (scan c (u ++ b)).1 = .shell ∨
      Extends (scan c u) (scan c (u ++ b)) u.length := by
  have hu : run (· != '\n') u = u.length := run_line fun h => hline (List.mem_append_left b h)
  have hub : run (· != '\n') (u ++ b) = (u ++ b).length := run_line hline
  by_cases hspace : c = ' ' ∨ c = '\t'
  · have hscan (cs : List Char) : scan c cs = (.skip, run (fun c => c == ' ' || c == '\t') cs) := by
      obtain rfl | rfl := hspace <;> rfl
    rw [hscan, hscan, run_append]
    split
    · next hall => exact .inr (.inr ⟨rfl, rfl, hall, Nat.le_add_right _ _⟩)
    · exact .inl rfl
  by_cases hhash : c = '#'
  · subst hhash
    refine .inr (.inr ⟨rfl, rfl, hu, ?_⟩)
    change u.length ≤ run _ (u ++ b)
    rw [hub]
    simp
  by_cases hshell : c = '$'
  · subst hshell
    by_cases hempty : u ++ b = []
    · obtain ⟨rfl, rfl⟩ := List.append_eq_nil_iff.1 hempty
      exact .inl rfl
    · have hlen : (u ++ b).length ≠ 0 := by simpa using hempty
      refine .inr (.inl ?_)
      simp only [scan, hub, beq_iff_eq, hlen, if_false]
  by_cases hslash : c = '/'
  · subst hslash
    exact (slashLexeme_append_inert hb hline).imp_right .inr
  left
  have hdouble : stringLexeme '"' (u ++ b) = stringLexeme '"' u :=
    stringLexeme_append_inert hb rfl (by decide)
  have hsingle : stringLexeme '\'' (u ++ b) = stringLexeme '\'' u :=
    stringLexeme_append_inert hb rfl (by decide)
  have harrow : (u ++ b).head? = some '>' ↔ u.head? = some '>' := head?_append_inert hb rfl
  have hequal : ∀ two one, oneOrTwo '=' two one (u ++ b) = oneOrTwo '=' two one u :=
    oneOrTwo_append_inert hb rfl
  have hand : ∀ two one, oneOrTwo '&' two one (u ++ b) = oneOrTwo '&' two one u :=
    oneOrTwo_append_inert hb rfl
  have hor : ∀ two one, oneOrTwo '|' two one (u ++ b) = oneOrTwo '|' two one u :=
    oneOrTwo_append_inert hb rfl
  have hnumber : numberTail (u ++ b) = numberTail u := numberTail_append_inert hb
  have hname : run isNameRest (u ++ b) = run isNameRest u :=
    run_append_inert hb fun c h => by simp [isInert, h]
  fun_cases scan c u <;> grind [scan]

end Blanks

/-! ### Tokens -/

def tokens (cs : List Char) : List Lexeme := (splitFrom 0 cs).filter isToken

theorem tokens_cons (c : Char) (cs : List Char) : tokens (c :: cs) =
    (if (scan c cs).1.isGap then [] else [⟨(scan c cs).1, c :: cs.take (scan c cs).2⟩]) ++
      tokens (cs.drop (scan c cs).2) := by
  rw [tokens, splitFrom_cons, List.filter_cons, isToken]
  cases (scan c cs).1.isGap <;> rfl

/-- The tokens after the first lexeme are an end of all tokens. -/
theorem tokens_drop_suffix (c : Char) (cs : List Char) :
    tokens (cs.drop (scan c cs).2) <:+ tokens (c :: cs) := by
  rw [tokens_cons]
  exact List.suffix_append _ _

def IsPlain (cs : List Char) : Prop := ∀ l ∈ tokens cs, l.kind.isForeign = false

theorem IsPlain.rest {c : Char} {cs : List Char} (h : IsPlain (c :: cs)) :
    IsPlain (cs.drop (scan c cs).2) :=
  fun l hl => h l ((tokens_drop_suffix c cs).mem hl)

theorem IsPlain.scan {c : Char} {cs : List Char} (h : IsPlain (c :: cs)) :
    (scan c cs).1.isForeign = false := by
  cases hgap : (Lexeme.scan c cs).1.isGap with
  | true => cases hkind : (Lexeme.scan c cs).1 <;> simp_all [TokenKind.isGap, TokenKind.isForeign]
  | false =>
    refine h ⟨(Lexeme.scan c cs).1, c :: cs.take (Lexeme.scan c cs).2⟩ ?_
    simp [tokens_cons, hgap]

/-- A space is a gap with the spaces after it, or without them. -/
theorem tokens_space {c : Char} (hc : c = ' ' ∨ c = '\t') (cs : List Char) :
    tokens (c :: cs) = tokens cs := by
  have hscan {c : Char} (hc : c = ' ' ∨ c = '\t') (cs : List Char) :
      tokens (c :: cs) = tokens (cs.drop (run (fun c => c == ' ' || c == '\t') cs)) := by
    rw [tokens_cons]
    obtain rfl | rfl := hc <;> rfl
  rw [hscan hc]
  cases cs with
  | nil => rfl
  | cons d cs =>
    by_cases hd : d = ' ' ∨ d = '\t'
    · have hrun : run (fun c => c == ' ' || c == '\t') (d :: cs) =
          run (fun c => c == ' ' || c == '\t') cs + 1 := by simp [run, hd]
      rw [hrun, hscan hd, List.drop_succ_cons]
    · have hrun : run (fun c => c == ' ' || c == '\t') (d :: cs) = 0 := by simp [run, hd]
      rw [hrun, List.drop_zero]

/-- Blanks in front of a line are no tokens. -/
theorem tokens_dropWhile_isBlank {cs : List Char} (hline : '\n' ∉ cs) (hplain : IsPlain cs) :
    tokens (cs.dropWhile Text.isBlank) = tokens cs := by
  induction cs with
  | nil => rfl
  | cons c cs ih =>
    rw [List.mem_cons, not_or] at hline
    rw [List.dropWhile_cons]
    split
    · next hblank =>
      have hspace : c = ' ' ∨ c = '\t' := by
        apply Decidable.byContradiction
        intro hc
        rw [not_or] at hc
        have hscan := scan_of_isBlank hblank ⟨hc.1, hc.2, Ne.symm hline.1⟩ cs
        have hforeign := hplain.scan
        rw [hscan] at hforeign
        cases hforeign
      have hsame := tokens_space hspace cs
      have hrest : IsPlain cs := by rwa [IsPlain, ← hsame]
      rw [hsame, ih hline.2 hrest]
    · rfl

theorem tokens_blanks {b : List Char} (hb : ∀ c ∈ b, Text.isBlank c = true) (hline : '\n' ∉ b)
    (hplain : IsPlain b) : tokens b = [] := by
  have hnone : (b ++ []).dropWhile Text.isBlank = [].dropWhile Text.isBlank :=
    List.dropWhile_append_of_pos hb
  rw [List.append_nil] at hnone
  rw [← tokens_dropWhile_isBlank hline hplain, hnone]
  rfl

/-- Blanks at the end of a line are no tokens. -/
theorem tokens_append_blanks {u b : List Char} (hb : ∀ c ∈ b, Text.isBlank c = true)
    (hline : '\n' ∉ u ++ b) (hplain : IsPlain (u ++ b)) : tokens (u ++ b) = tokens u := by
  have hinert : ∀ c ∈ b, isInert c = true := fun c hc => isInert_of_isBlank (hb c hc)
  induction hlen : u.length using Nat.strongRecOn generalizing u with
  | ind k ih =>
  cases u with
  | nil => exact tokens_blanks hb hline hplain
  | cons c u =>
    rw [List.cons_append] at hline hplain ⊢
    have hline : '\n' ∉ u ++ b := fun h => hline (List.mem_cons_of_mem c h)
    have hrest : IsPlain ((u ++ b).drop (scan c (u ++ b)).2) := hplain.rest
    rw [tokens_cons, tokens_cons]
    obtain hsame | hshell | ⟨hgap, hkind, hextent, hle⟩ := scan_append_inert hinert hline c
    · rw [hsame, List.drop_append_of_le_length (scan_le c u)] at hrest ⊢
      have hline' : '\n' ∉ u.drop (scan c u).2 ++ b := by
        intro h
        exact hline ((List.mem_append.1 h).elim
          (fun h => List.mem_append_left b (List.mem_of_mem_drop h)) (List.mem_append_right u))
      have hshorter : (u.drop (scan c u).2).length < k := by
        simp only [List.length_drop, List.length_cons] at hlen ⊢
        omega
      rw [List.take_append_of_le_length (scan_le c u), ih _ hshorter hline' hrest rfl]
    · have hforeign := hplain.scan
      rw [hshell] at hforeign
      cases hforeign
    · -- only blanks are left after the gap
      have hdrop : (u ++ b).drop (scan c (u ++ b)).2 = b.drop ((scan c (u ++ b)).2 - u.length) := by
        rw [List.drop_append, List.drop_eq_nil_of_le hle, List.nil_append]
      rw [hkind, hextent, hgap, List.drop_length]
      rw [hdrop] at hrest ⊢
      rw [tokens_blanks (fun c hc => hb c (List.mem_of_mem_drop hc)) ?_ hrest]
      · rfl
      · exact fun h => hline (List.mem_append_right u (List.mem_of_mem_drop h))

/-- On a single line all tokens have its number. -/
theorem toTokens_line (line : Nat) {ls : List Lexeme} (h : ∀ l ∈ ls, l.newlines = 0) :
    toTokens line ls = (ls.filter isToken).map fun l => ⟨l.kind, String.ofList l.text, line⟩ := by
  induction ls with
  | nil => rfl
  | cons l ls ih =>
    rw [List.forall_mem_cons] at h
    rw [toTokens_cons, h.1, Nat.add_zero, ih h.2, List.filter_cons]
    cases l.isToken <;> rfl

end Lexeme

/-- All tokens of a text without a line end stand on its first line. -/
theorem tokenize_eq_map {s : String} (hline : '\n' ∉ s.toList) :
    tokenize s = (Lexeme.tokens s.toList).map fun l => ⟨l.kind, String.ofList l.text, 1⟩ := by
  refine Lexeme.toTokens_line 1 fun l hl => List.count_eq_zero.2 fun hmem => hline ?_
  have htext : (Lexeme.split s).flatMap Lexeme.text = s.toList :=
    Lexeme.flatMap_text_splitFrom 0 s.toList
  rw [← htext]
  exact List.mem_flatMap.2 ⟨l, hl, hmem⟩

/-- Blanks at the ends of a line do not matter, if no token is foreign. -/
theorem tokenize_strip {s : String} (hline : '\n' ∉ s.toList)
    (hplain : ∀ t ∈ tokenize s, t.kind.isForeign = false) :
    tokenize (Text.strip s) = tokenize s := by
  let front := s.toList.dropWhile Text.isBlank
  let back := (front.reverse.takeWhile Text.isBlank).reverse
  have hfront : (Text.strip s).toList ++ back = front := by
    simp only [Text.strip, Text.trimWhere, String.toList_ofList, back]
    rw [← List.reverse_append, List.takeWhile_append_dropWhile, List.reverse_reverse]
  have hsub : front.Sublist s.toList := (List.dropWhile_suffix _).sublist
  have hlineFront : '\n' ∉ front := fun h => hline (hsub.mem h)
  have hlineStrip : '\n' ∉ (Text.strip s).toList := by
    intro h
    exact hlineFront (hfront ▸ List.mem_append_left back h)
  have hlexemes : Lexeme.IsPlain s.toList := by
    intro l hl
    rw [tokenize_eq_map hline] at hplain
    exact hplain _ (List.mem_map_of_mem hl)
  have hstart : Lexeme.tokens front = Lexeme.tokens s.toList :=
    Lexeme.tokens_dropWhile_isBlank hline hlexemes
  have hblank : ∀ c ∈ back, Text.isBlank c = true := by
    intro c hc
    exact List.all_eq_true.1 (List.all_takeWhile ..) c (List.mem_reverse.1 hc)
  have hend : Lexeme.tokens front = Lexeme.tokens (Text.strip s).toList := by
    rw [← hfront]
    rw [← hfront] at hlineFront hstart
    refine Lexeme.tokens_append_blanks hblank hlineFront ?_
    rwa [Lexeme.IsPlain, hstart]
  rw [tokenize_eq_map hlineStrip, tokenize_eq_map hline, ← hend, hstart]

end ScriptLang
