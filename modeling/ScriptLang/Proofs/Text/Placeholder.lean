import Mathlib.Data.List.Nodup
import Mathlib.Data.List.TakeWhile
import ScriptLang.Language
import ScriptLang.Proofs.Text.Search

/-!
# Placeholders

A placeholder is a name in braces. `Filled` says what filling in placeholders is meant to give: each
one that occurs in a text is replaced by the text that goes with its name, all else stays, and what
is put in is not read again. Whether `fillIn` does this in every order hangs on the texts that
are put in.

## Main statements

* `filled_fillIn_iff`: it does so for all texts exactly if none of the texts that are put in
  completes another placeholder next to a piece of it.
* `filled_fillIn_of_grouped`: for a text in which each opening brace starts a placeholder it is
  enough that no opening brace is put in.
-/

namespace ScriptLang

open Text

def placeholder (name : String) : List Char := '{' :: (name.toList ++ ['}'])

def Braceless (name : String) : Prop := '{' ∉ name.toList ∧ '}' ∉ name.toList

structure Named (items : List (String × String)) : Prop where
  nodup : (items.map Prod.fst).Nodup
  braceless : ∀ item ∈ items, Braceless item.1

/-- The second text is the first one with its placeholders filled in. -/
inductive Filled (items : List (String × String)) : List Char → List Char → Prop
  | done : Filled items [] []
  | fill {name value : String} {rest out : List Char} (hitem : (name, value) ∈ items)
    (h : Filled items rest out) : Filled items (placeholder name ++ rest) (value.toList ++ out)
  | keep {c : Char} {rest out : List Char}
    (hfree : ∀ item ∈ items, ¬ placeholder item.1 <+: c :: rest) (h : Filled items rest out) :
    Filled items (c :: rest) (c :: out)

/-- Next to pieces of a placeholder, or on its own, a text completes it. -/
def Completes (value : List Char) (name : String) : Prop :=
  ∃ p q, p <+: placeholder name ∧ p ≠ placeholder name ∧ q <:+ placeholder name ∧
    q ≠ placeholder name ∧ placeholder name <:+: p ++ value ++ q

variable {name other : String} {items : List (String × String)} {value : List Char}
  {cs rest out : List Char} {c : Char}

theorem placeholder_ne_nil : placeholder name ≠ [] := List.cons_ne_nil _ _

theorem not_prefix_of_ne (hc : c ≠ '{') : ¬ placeholder name <+: c :: rest := by
  rintro ⟨_, h⟩
  exact hc (List.cons.inj h).1.symm

/-- The text before the first closing brace. -/
theorem takeWhile_of_not_mem (h : '}' ∉ cs) : (cs ++ '}' :: rest).takeWhile (· != '}') = cs := by
  rw [List.takeWhile_append_of_pos (by grind)]
  simp

/-- A placeholder starts only where one of the same name does. -/
theorem eq_of_placeholder_isPrefix (hname : Braceless name) (hother : Braceless other)
    (h : placeholder name <+: placeholder other ++ rest) : name = other := by
  obtain ⟨t, h⟩ := h
  simp only [placeholder, List.cons_append, List.append_assoc, List.cons.injEq, true_and] at h
  have hbefore := congrArg (List.takeWhile (· != '}')) h
  rw [takeWhile_of_not_mem hname.2, takeWhile_of_not_mem hother.2] at hbefore
  exact String.toList_inj.1 hbefore

theorem Named.perm {items' : List (String × String)} (h : Named items)
    (hperm : items'.Perm items) : Named items' where
  nodup := (hperm.map Prod.fst).nodup_iff.2 h.nodup
  braceless item hitem := h.braceless item (hperm.mem_iff.1 hitem)

theorem Named.of_cons {item : String × String} (h : Named (item :: items)) : Named items where
  nodup := (List.nodup_cons.1 h.nodup).2
  braceless i hi := h.braceless i (List.mem_cons_of_mem _ hi)

theorem Named.ne_of_cons {item i : String × String} (h : Named (item :: items)) (hi : i ∈ items) :
    i.1 ≠ item.1 := by
  intro heq
  exact (List.nodup_cons.1 h.nodup).1 (heq ▸ List.mem_map_of_mem hi)

/-! ### Texts in which nothing starts -/

/-- No occurrence of a text starts inside of a text that is followed by another one. -/
def Clear (pat cs rest : List Char) : Prop := ∀ c v, c :: v <:+ cs → ¬ pat <+: c :: (v ++ rest)

theorem Clear.head {pat : List Char} (h : Clear pat (c :: cs) rest) :
    ¬ pat <+: c :: (cs ++ rest) := h c cs List.suffix_rfl

theorem Clear.tail {pat : List Char} (h : Clear pat (c :: cs) rest) : Clear pat cs rest :=
  fun d v hv => h d v (hv.trans (List.suffix_cons c cs))

/-- Where no brace opens, no placeholder starts. -/
theorem clear_of_not_mem (h : '{' ∉ cs) : Clear (placeholder name) cs rest :=
  fun _ _ hv => not_prefix_of_ne fun hc => h (hc ▸ hv.mem List.mem_cons_self)

/-- Inside of a placeholder no other one starts. -/
theorem clear_placeholder (hname : Braceless name) (hother : Braceless other)
    (hne : name ≠ other) : Clear (placeholder name) (placeholder other) rest := by
  intro c v hv
  rcases List.suffix_cons_iff.1 hv with h | h
  · obtain ⟨rfl, rfl⟩ := List.cons.inj h
    exact fun hfront => hne (eq_of_placeholder_isPrefix hname hother hfront)
  · refine not_prefix_of_ne ?_
    rintro rfl
    have hmem := h.mem List.mem_cons_self
    simp [hother.1] at hmem

/-- Where no occurrence starts, replacing goes past. -/
theorem replaceFrom_append_of_clear {pat new : List Char} (h : Clear pat cs rest) :
    replaceFrom pat new 0 (cs ++ rest) = cs ++ replaceFrom pat new 0 rest := by
  induction cs with
  | nil => rfl
  | cons c cs ih => rw [List.cons_append, replaceFrom_cons h.head, ih h.tail, List.cons_append]

/-! ### What filling in gives -/

namespace Filled

/-- What is clear of all placeholders stays as it is. -/
theorem keep_append (hclear : ∀ item ∈ items, Clear (placeholder item.1) cs rest)
    (h : Filled items rest out) : Filled items (cs ++ rest) (cs ++ out) := by
  induction cs with
  | nil => exact h
  | cons c cs ih =>
    exact .keep (fun item hitem => (hclear item hitem).head)
      (ih fun item hitem => (hclear item hitem).tail)

theorem of_cons (hfree : ∀ item ∈ items, ¬ placeholder item.1 <+: c :: rest)
    (h : Filled items (c :: rest) out) : ∃ out', out = c :: out' ∧ Filled items rest out' := by
  generalize hcs : c :: rest = cs at h
  cases h with
  | done => cases hcs
  | fill hitem _ => exact absurd (hcs ▸ List.prefix_append _ _) (hfree _ hitem)
  | keep _ h =>
    cases hcs
    exact ⟨_, rfl, h⟩

theorem of_append (hclear : ∀ item ∈ items, Clear (placeholder item.1) cs rest)
    (h : Filled items (cs ++ rest) out) : ∃ out', out = cs ++ out' ∧ Filled items rest out' := by
  induction cs generalizing out with
  | nil => exact ⟨out, rfl, h⟩
  | cons c cs ih =>
    obtain ⟨out', rfl, hrest⟩ := h.of_cons fun item hitem => (hclear item hitem).head
    obtain ⟨out'', rfl, hlast⟩ := ih (fun item hitem => (hclear item hitem).tail) hrest
    exact ⟨out'', rfl, hlast⟩

/-- A placeholder in front is replaced by the text of its item. -/
theorem of_placeholder {value : String} (hitems : Named items) (hitem : (name, value) ∈ items)
    (h : Filled items (placeholder name ++ rest) out) :
    ∃ out', out = value.toList ++ out' ∧ Filled items rest out' := by
  generalize hcs : placeholder name ++ rest = cs at h
  cases h with
  | done => exact absurd hcs (by simp [placeholder])
  | @fill other v rest' out' hother h =>
    have hname : name = other := eq_of_placeholder_isPrefix (hitems.braceless _ hitem)
      (hitems.braceless _ hother) ⟨rest, hcs⟩
    subst hname
    obtain rfl : v = value :=
      congrArg Prod.snd (List.inj_on_of_nodup_map hitems.nodup hother hitem rfl)
    rw [List.append_cancel_left_eq] at hcs
    exact ⟨out', rfl, hcs ▸ h⟩
  | @keep c rest' _ hfree _ => exact absurd ⟨rest, hcs⟩ (hfree _ hitem)

/-- A text has one filled form. -/
theorem unique (hitems : Named items) {out' : List Char} (h : Filled items cs out)
    (h' : Filled items cs out') : out = out' := by
  induction h generalizing out' with
  | done =>
    cases h'
    rfl
  | fill hitem _ ih =>
    obtain ⟨_, rfl, hrest⟩ := h'.of_placeholder hitems hitem
    rw [ih hrest]
  | keep hfree _ ih =>
    obtain ⟨_, rfl, hrest⟩ := h'.of_cons hfree
    rw [ih hrest]

theorem congr {items' : List (String × String)} (hmem : ∀ item, item ∈ items ↔ item ∈ items')
    (h : Filled items cs out) : Filled items' cs out := by
  induction h with
  | done => exact .done
  | fill hitem _ ih => exact .fill ((hmem _).1 hitem) ih
  | keep hfree _ ih => exact .keep (fun item hitem => hfree item ((hmem item).2 hitem)) ih

/-- Replacing one placeholder and filling in the others is filling in all of them, if no other one
starts inside of what is put in, nor before it where none started in the text. -/
theorem of_replaceFrom {value : String} (hitems : Named ((name, value) :: items))
    (hinside : ∀ item ∈ items, ∀ rest, Clear (placeholder item.1) value.toList rest)
    (hbefore : ∀ item ∈ items, ∀ c rest, c :: rest <:+ cs → ¬ placeholder name <+: c :: rest →
      ¬ placeholder item.1 <+: c :: rest →
      ¬ placeholder item.1 <+: c :: replaceFrom (placeholder name) value.toList 0 rest)
    (h : Filled items (replaceFrom (placeholder name) value.toList 0 cs) out) :
    Filled ((name, value) :: items) cs out := by
  have hname := hitems.braceless _ List.mem_cons_self
  have hothers := hitems.of_cons
  induction hn : cs.length using Nat.strong_induction_on generalizing cs out with
  | _ n ih =>
  subst hn
  -- The step on what is left after a piece of the text.
  have hstep {piece rest out : List Char} (hcs : piece ++ rest = cs) (hpiece : piece ≠ [])
      (h : Filled items (replaceFrom (placeholder name) value.toList 0 rest) out) :
      Filled ((name, value) :: items) rest out := by
    have hlength : 0 < piece.length := List.length_pos_iff.2 hpiece
    refine ih rest.length (by simp [← hcs, hlength]) (fun item hitem c r hr => ?_) h rfl
    exact hbefore item hitem c r (hr.trans ⟨piece, hcs⟩)
  rcases cs with _ | ⟨c, rest⟩
  · cases h
    exact .done
  by_cases hhit : placeholder name <+: c :: rest
  · obtain ⟨after, hafter⟩ := hhit
    rw [← hafter] at h ⊢
    rw [replaceFrom_append placeholder_ne_nil] at h
    obtain ⟨out', rfl, hrest⟩ := h.of_append fun item hitem => hinside item hitem _
    exact .fill List.mem_cons_self (hstep hafter placeholder_ne_nil hrest)
  by_cases hother : ∃ item ∈ items, placeholder item.1 <+: c :: rest
  · obtain ⟨item, hitem, after, hafter⟩ := hother
    rw [← hafter] at h ⊢
    rw [replaceFrom_append_of_clear (clear_placeholder hname (hothers.braceless _ hitem)
      (hitems.ne_of_cons hitem).symm)] at h
    obtain ⟨out', rfl, hrest⟩ := h.of_placeholder hothers hitem
    exact .fill (List.mem_cons_of_mem _ hitem) (hstep hafter placeholder_ne_nil hrest)
  · push Not at hother
    rw [replaceFrom_cons hhit] at h
    obtain ⟨out', rfl, hrest⟩ := h.of_cons fun item hitem =>
      hbefore item hitem c rest List.suffix_rfl hhit (hother item hitem)
    refine .keep (List.forall_mem_cons.2 ⟨hhit, hother⟩) ?_
    exact hstep (List.singleton_append) (List.cons_ne_nil _ _) hrest

/-- A placeholder that stands for itself may be filled in or not. -/
theorem cons_self {value : String} (hitems : Named ((name, value) :: items))
    (hvalue : value.toList = placeholder name) (h : Filled items cs out) :
    Filled ((name, value) :: items) cs out := by
  have hname := hitems.braceless _ List.mem_cons_self
  refine of_replaceFrom hitems (fun item hitem rest => ?_) (fun item _ c rest _ _ hfree => ?_) ?_
  · rw [hvalue]
    exact clear_placeholder (hitems.of_cons.braceless _ hitem) hname (hitems.ne_of_cons hitem)
  · rwa [hvalue, replaceFrom_self placeholder_ne_nil]
  · rwa [hvalue, replaceFrom_self placeholder_ne_nil]

end Filled

/-! ### Texts that complete no placeholder -/

/-- A text that fits between pieces of a placeholder completes it. -/
theorem completes_of_pieces {p q : List Char} (h : placeholder name = p ++ value ++ q)
    (hp : p ≠ placeholder name) (hq : q ≠ placeholder name) : Completes value name :=
  ⟨p, q, ⟨value ++ q, by simp [h]⟩, hp, ⟨p ++ value, by simp [h]⟩, hq, h ▸ List.infix_rfl⟩

/-- No placeholder starts inside of a text that does not complete it. -/
theorem clear_of_not_completes (h : ¬ Completes value name) :
    Clear (placeholder name) value rest := by
  rintro c v ⟨u, hu⟩ hfront
  refine h ?_
  rcases List.prefix_or_prefix_of_prefix hfront (List.prefix_append (c :: v) rest) with hin | hin
  · refine ⟨[], [], List.nil_prefix, placeholder_ne_nil.symm, List.nil_suffix,
      placeholder_ne_nil.symm, ?_⟩
    simpa using hin.isInfix.trans (List.IsSuffix.isInfix ⟨u, hu⟩)
  · obtain ⟨q, hq⟩ := hin
    refine ⟨[], q, List.nil_prefix, placeholder_ne_nil.symm, ⟨c :: v, hq⟩, ?_, ?_⟩
    · rintro rfl
      have hlength := congrArg List.length hq
      simp only [List.length_append, List.length_cons] at hlength
      omega
    · rw [← hq, ← hu]
      exact ⟨u, [], by simp⟩

/-- If the end of a placeholder comes after a text is put in, it was there before, unless the text
completes the placeholder. -/
theorem prefix_of_prefix_replaceFrom (h : ¬ Completes value other) {a p : List Char} (ha : a ≠ [])
    (hother : placeholder other = a ++ p)
    (hfront : p <+: replaceFrom (placeholder name) value 0 cs) : p <+: cs := by
  induction cs using occurrence_induction (placeholder_ne_nil : placeholder name ≠ [])
    generalizing a p with
  | nil => exact hfront
  | hit cs _ =>
    rcases p with _ | ⟨d, p⟩
    · exact List.nil_prefix
    rw [replaceFrom_append placeholder_ne_nil] at hfront
    refine absurd ?_ h
    have hlength := congrArg List.length hother
    have hpositive : 0 < a.length := List.length_pos_iff.2 ha
    simp only [List.length_append, List.length_cons] at hlength
    have hne {l : List Char} (hl : l.length ≠ (placeholder other).length) : l ≠ placeholder other :=
      fun heq => hl (congrArg List.length heq)
    rcases List.prefix_or_prefix_of_prefix hfront (List.prefix_append value _) with hin | hin
    · refine ⟨a, [], ⟨d :: p, hother.symm⟩, hne (by omega), List.nil_suffix,
        placeholder_ne_nil.symm, ?_⟩
      obtain ⟨t, rfl⟩ := hin
      exact ⟨[], t, by simp [hother]⟩
    · obtain ⟨q, hq⟩ := hin
      have hlengthq := congrArg List.length hq
      simp only [List.length_append, List.length_cons] at hlengthq
      exact completes_of_pieces (by rw [hother, ← hq, List.append_assoc]) (hne (by omega))
        (hne (by omega))
  | miss c cs hmiss ih =>
    rw [replaceFrom_cons hmiss] at hfront
    rcases p with _ | ⟨d, p⟩
    · exact List.nil_prefix
    obtain ⟨rfl, hend⟩ := List.cons_prefix_cons.1 hfront
    have hpieces : placeholder other = (a ++ [d]) ++ p := by simp [hother]
    exact List.cons_prefix_cons.2 ⟨rfl, ih (by simp) hpieces hend⟩

theorem fillIn_nil (text : String) : fillIn [] text = text := rfl

theorem fillIn_append (items items' : List (String × String)) (text : String) :
    fillIn (items ++ items') text = fillIn items' (fillIn items text) := List.foldl_append

theorem fillIn_cons (item : String × String) (items : List (String × String)) (text : String) :
    fillIn (item :: items) text =
      fillIn items (replace text ("\x7b" ++ item.1 ++ "\x7d") item.2) := rfl

/-- Filling in one placeholder is replacing its occurrences. -/
theorem toList_replace_placeholder (text name value : String) :
    (replace text ("\x7b" ++ name ++ "\x7d") value).toList =
      replaceFrom (placeholder name) value.toList 0 text.toList := by
  have hpat : ("\x7b" ++ name ++ "\x7d").toList = placeholder name := by simp [placeholder]
  rw [toList_replace text (by rw [hpat]; exact placeholder_ne_nil), hpat]

/-- Filling in one placeholder after the other fills in all of them, if what is put in completes
none of the others. -/
theorem filled_fillIn_of_not_completes (hitems : Named items)
    (h : ∀ i ∈ items, ∀ j ∈ items, i.1 ≠ j.1 → ¬ Completes i.2.toList j.1) (text : String) :
    Filled items text.toList (fillIn items text).toList := by
  induction items generalizing text with
  | nil =>
    have hkeep : Filled [] (text.toList ++ []) (text.toList ++ []) :=
      Filled.keep_append (fun _ hitem => (by cases hitem)) .done
    simpa [fillIn] using hkeep
  | cons item items ih =>
    have hrest := ih hitems.of_cons (fun i hi j hj => h i (List.mem_cons_of_mem _ hi) j
      (List.mem_cons_of_mem _ hj)) (replace text ("\x7b" ++ item.1 ++ "\x7d") item.2)
    rw [toList_replace_placeholder] at hrest
    have hother {i : String × String} (hi : i ∈ items) : ¬ Completes item.2.toList i.1 :=
      h item List.mem_cons_self i (List.mem_cons_of_mem _ hi) (hitems.ne_of_cons hi).symm
    refine Filled.of_replaceFrom hitems (fun i hi rest => clear_of_not_completes (hother hi))
      (fun i hi c rest _ _ hfree hfront => hfree ?_) hrest
    obtain ⟨rfl, hend⟩ := List.cons_prefix_cons.1 hfront
    exact List.cons_prefix_cons.2 ⟨rfl, prefix_of_prefix_replaceFrom (hother hi)
      (List.cons_ne_nil _ []) rfl hend⟩

theorem replace_self {item : String × String} (h : item.2.toList = placeholder item.1)
    (text : String) : replace text ("\x7b" ++ item.1 ++ "\x7d") item.2 = text := by
  rw [← String.toList_inj, toList_replace_placeholder, h, replaceFrom_self placeholder_ne_nil]

def isChange (item : String × String) : Bool := item.2.toList != placeholder item.1

theorem isChange_eq_false {item : String × String} (h : isChange item = false) :
    item.2.toList = placeholder item.1 := by
  simpa [isChange] using h

/-- Items that put in their own placeholder can be left out. -/
theorem fillIn_filter_isChange (items : List (String × String)) (text : String) :
    fillIn (items.filter isChange) text = fillIn items text := by
  induction items generalizing text with
  | nil => rfl
  | cons item items ih =>
    rw [List.filter_cons, fillIn_cons]
    cases h : isChange item with
    | true => exact ih _
    | false =>
      rw [replace_self (isChange_eq_false h)]
      exact ih text

theorem Filled.of_filter_isChange (before : List (String × String))
    (hitems : Named (before ++ items)) (h : Filled (before ++ items.filter isChange) cs out) :
    Filled (before ++ items) cs out := by
  induction items generalizing before with
  | nil => exact h
  | cons item items ih =>
    rw [List.filter_cons] at h
    have happend : before ++ [item] ++ items = before ++ item :: items := by simp
    cases hchange : isChange item with
    | true =>
      rw [hchange, if_pos rfl] at h
      rw [← happend] at hitems ⊢
      exact ih _ hitems (by simpa using h)
    | false =>
      rw [hchange, if_neg Bool.false_ne_true] at h
      have hmiddle : Named (item :: (before ++ items)) := hitems.perm List.perm_middle.symm
      have hrest := ih _ hmiddle.of_cons h
      refine (Filled.cons_self hmiddle (isChange_eq_false hchange) hrest).congr ?_
      exact fun i => (List.perm_middle.mem_iff (a := i)).symm

/-! ### Texts that complete a placeholder -/

theorem not_mem_of_prefix {p : List Char} (hname : Braceless name) (h : p <+: placeholder name)
    (hp : p ≠ placeholder name) : '}' ∉ p := by
  rw [placeholder, ← List.cons_append] at h hp
  have hin := (List.prefix_concat_iff.1 h).resolve_left hp
  exact fun hmem => by simpa [hname.2] using hin.mem hmem

theorem not_mem_of_suffix {q : List Char} (hname : Braceless name) (h : q <:+ placeholder name)
    (hq : q ≠ placeholder name) : '{' ∉ q := by
  have hin := (List.suffix_cons_iff.1 h).resolve_left hq
  exact fun hmem => by simpa [hname.1] using hin.mem hmem

/-- No placeholder starts before another one where no brace closes. -/
theorem clear_of_open (hname : Braceless name) (hcs : '}' ∉ cs) :
    Clear (placeholder name) cs (placeholder other ++ rest) := by
  intro c v hv hfront
  rcases List.prefix_or_prefix_of_prefix hfront (List.prefix_append (c :: v) _) with hin | hin
  · have hclose : '}' ∈ placeholder name := by simp [placeholder]
    exact hcs (hv.mem (hin.mem hclose))
  · obtain ⟨t, ht⟩ := hin
    rw [← ht, ← List.cons_append, List.prefix_append_right_inj] at hfront
    rcases t with _ | ⟨d, t⟩
    · rw [List.append_nil] at ht
      have hclose : '}' ∈ c :: v := by simp [ht, placeholder]
      exact hcs (hv.mem hclose)
    · obtain ⟨rfl, -⟩ := List.cons_prefix_cons.1 hfront
      obtain ⟨-, htail⟩ := List.cons.inj ht
      have hopen : '{' ∈ name.toList ++ ['}'] := htail ▸ by simp
      simp [hname.1] at hopen

/-- The placeholder of a name between pieces of another one is the only one there. -/
theorem replaceFrom_between {p q : List Char} {new : List Char} (hp : '}' ∉ p) (hq : '{' ∉ q)
    (hname : Braceless name) (hother : Braceless other) (hne : name ≠ other) :
    replaceFrom (placeholder name) new 0 (p ++ (placeholder other ++ q)) =
      p ++ (placeholder other ++ q) := by
  rw [replaceFrom_append_of_clear (clear_of_open hname hp),
    replaceFrom_append_of_clear (clear_placeholder hname hother hne), ← List.append_nil q,
    replaceFrom_append_of_clear (clear_of_not_mem hq)]
  rfl

/-- Placeholders of other names go through unchanged, whatever pieces are around them. -/
theorem fillIn_between {p q : List Char} (hp : '}' ∉ p) (hq : '{' ∉ q) (hother : Braceless other)
    (hitems : ∀ item ∈ items, Braceless item.1 ∧ item.1 ≠ other) :
    fillIn items (String.ofList (p ++ (placeholder other ++ q))) =
      String.ofList (p ++ (placeholder other ++ q)) := by
  induction items with
  | nil => rfl
  | cons item items ih =>
    obtain ⟨hitem, hrest⟩ := List.forall_mem_cons.1 hitems
    have hsame : replace (String.ofList (p ++ (placeholder other ++ q)))
        ("\x7b" ++ item.1 ++ "\x7d") item.2 = String.ofList (p ++ (placeholder other ++ q)) := by
      rw [← String.toList_inj, toList_replace_placeholder, String.toList_ofList,
        replaceFrom_between hp hq hitem.1 hother hitem.2]
    rw [fillIn_cons, hsame, ih hrest]

/-- What is put in between the pieces is read again for the placeholder that comes next. -/
theorem toList_fillIn_pair {i j : String × String} {p q : List Char} (hi : Braceless i.1)
    (hp : '}' ∉ p) (hq : '{' ∉ q) :
    (fillIn [i, j] (String.ofList (p ++ (placeholder i.1 ++ q)))).toList =
      replaceFrom (placeholder j.1) j.2.toList 0 (p ++ i.2.toList ++ q) := by
  simp only [fillIn_cons, fillIn_nil, toList_replace_placeholder, String.toList_ofList]
  rw [replaceFrom_append_of_clear (clear_of_open hi hp), replaceFrom_append placeholder_ne_nil,
    ← List.append_nil q, replaceFrom_append_of_clear (clear_of_not_mem hq)]
  simp [replaceFrom]

/-- A placeholder between pieces without braces is filled in. -/
theorem filled_between {item : String × String} {p q : List Char} (hitems : Named items)
    (hitem : item ∈ items) (hp : '}' ∉ p) (hq : '{' ∉ q) :
    Filled items (p ++ (placeholder item.1 ++ q)) (p ++ item.2.toList ++ q) := by
  have hend : Filled items (q ++ []) (q ++ []) :=
    Filled.keep_append (fun _ _ => clear_of_not_mem hq) .done
  rw [List.append_nil] at hend
  rw [List.append_assoc]
  exact Filled.keep_append (fun i hi => clear_of_open (hitems.braceless i hi) hp)
    (.fill hitem hend)

/-- A text that completes another placeholder is read again, if that placeholder comes last. -/
theorem not_completes_of_filled {i j : String × String} (hitems : Named items) (hi : i ∈ items)
    (hj : j ∈ items) (hne : i.1 ≠ j.1) (hchange : j.2.toList ≠ placeholder j.1)
    (h : ∀ (text : String) (items' : List (String × String)), items'.Perm items →
      Filled items text.toList (fillIn items' text).toList) : ¬ Completes i.2.toList j.1 := by
  rintro ⟨p, q, hp, hpne, hq, hqne, hoccurs⟩
  have hi' := hitems.braceless i hi
  have hj' := hitems.braceless j hj
  have hopen := not_mem_of_prefix hj' hp hpne
  have hclose := not_mem_of_suffix hj' hq hqne
  obtain ⟨others, hothers⟩ : ∃ others, items.Perm (i :: j :: others) := by
    have hmem : j ∈ items.erase i := (List.mem_erase_of_ne (by rintro rfl; exact hne rfl)).2 hj
    exact ⟨(items.erase i).erase j,
      (List.perm_cons_erase hi).trans ((List.perm_cons_erase hmem).cons i)⟩
  have hnamed := hitems.perm hothers.symm
  have hapart : ∀ item ∈ others, Braceless item.1 ∧ item.1 ≠ i.1 := fun item hitem =>
    ⟨hnamed.of_cons.of_cons.braceless item hitem, hnamed.ne_of_cons (List.mem_cons_of_mem _ hitem)⟩
  -- The other placeholders come first, and find nothing.
  have hlast := h (String.ofList (p ++ (placeholder i.1 ++ q))) (others ++ [i, j])
    ((List.perm_append_comm).trans hothers.symm)
  rw [fillIn_append, fillIn_between hopen hclose hi' hapart, toList_fillIn_pair hi' hopen hclose,
    String.toList_ofList] at hlast
  exact hchange (eq_of_replaceFrom_eq placeholder_ne_nil hoccurs
    (hlast.unique hitems (filled_between hitems hi hopen hclose)))

/-- Filling in placeholders one after the other, in whatever order, fills in all texts as it should
exactly if what is put in completes no other placeholder, those that stand for themselves apart. -/
theorem filled_fillIn_iff (hitems : Named items) :
    (∀ (text : String) (items' : List (String × String)), items'.Perm items →
      Filled items text.toList (fillIn items' text).toList) ↔
    ∀ i ∈ items, ∀ j ∈ items, i.1 ≠ j.1 → j.2.toList ≠ placeholder j.1 →
      ¬ Completes i.2.toList j.1 := by
  refine ⟨fun h i hi j hj hne hchange => not_completes_of_filled hitems hi hj hne hchange h,
    fun h text items' hperm => ?_⟩
  have hnamed := hitems.perm hperm
  have hchanges : Named (items'.filter isChange) :=
    ⟨hnamed.nodup.sublist (List.filter_sublist.map _),
      fun item hitem => hnamed.braceless item (List.mem_filter.1 hitem).1⟩
  have hfilled := filled_fillIn_of_not_completes hchanges (fun i hi j hj hne => by
    obtain ⟨hi, -⟩ := List.mem_filter.1 hi
    obtain ⟨hj, hchange⟩ := List.mem_filter.1 hj
    exact h i (hperm.mem_iff.1 hi) j (hperm.mem_iff.1 hj) hne (by simpa [isChange] using hchange))
    text
  rw [fillIn_filter_isChange] at hfilled
  exact (Filled.of_filter_isChange [] hnamed hfilled).congr fun item => hperm.mem_iff

/-! ### Texts whose braces belong to placeholders -/

/-- Whether each opening brace of a text starts a placeholder, of whatever name. -/
def grouped : List Char → Bool
  | [] => true
  | c :: cs =>
    (c != '{' || (cs.dropWhile fun d => d != '{' && d != '}').head? == some '}') && grouped cs

theorem grouped_of_suffix {cs' : List Char} (h : cs' <:+ cs) (hcs : grouped cs) : grouped cs' := by
  induction cs with
  | nil => rwa [List.suffix_nil.1 h]
  | cons c cs ih =>
    rcases List.suffix_cons_iff.1 h with rfl | h
    · exact hcs
    · exact ih h (Bool.and_eq_true_iff.1 hcs).2

/-- In a grouped text each opening brace starts a placeholder. -/
theorem exists_placeholder_of_grouped (h : grouped ('{' :: cs)) :
    ∃ name rest, Braceless name ∧ '{' :: cs = placeholder name ++ rest := by
  obtain ⟨hhead, -⟩ := Bool.and_eq_true_iff.1 h
  simp only [bne_self_eq_false, Bool.false_or, beq_iff_eq] at hhead
  obtain ⟨rest, hrest⟩ := List.head?_eq_some_iff.1 hhead
  have hname (d : Char) (hd : d ∈ cs.takeWhile fun d => d != '{' && d != '}') :
      d ≠ '{' ∧ d ≠ '}' := by simpa using List.mem_takeWhile_imp hd
  refine ⟨String.ofList (cs.takeWhile fun d => d != '{' && d != '}'), rest, ⟨?_, ?_⟩, ?_⟩
  · exact fun hmem => (hname _ (by simpa using hmem)).1 rfl
  · exact fun hmem => (hname _ (by simpa using hmem)).2 rfl
  · conv_lhs =>
      rw [← List.takeWhile_append_dropWhile (p := fun d => d != '{' && d != '}') (l := cs)]
    rw [hrest]
    simp [placeholder]

theorem grouped_append (hcs : '{' ∉ cs) (hrest : grouped rest) : grouped (cs ++ rest) := by
  induction cs with
  | nil => exact hrest
  | cons c cs ih =>
    rw [List.mem_cons, not_or] at hcs
    rw [List.cons_append, grouped, ih hcs.2, Bool.and_true, bne_iff_ne.2 (Ne.symm hcs.1),
      Bool.true_or]

theorem grouped_placeholder_append (hname : Braceless name) (hrest : grouped rest) :
    grouped (placeholder name ++ rest) := by
  have hbody : '{' ∉ name.toList ++ ['}'] := by simp [hname.1]
  have hdrop : ((name.toList ++ ['}'] ++ rest).dropWhile fun d => d != '{' && d != '}') =
      '}' :: rest := by
    rw [List.append_assoc, List.dropWhile_append_of_pos]
    · simp
    · intro d hd
      simp only [Bool.and_eq_true, bne_iff_ne]
      exact ⟨fun h => hname.1 (h ▸ hd), fun h => hname.2 (h ▸ hd)⟩
  rw [placeholder, List.cons_append, grouped, grouped_append hbody hrest, hdrop]
  rfl

/-- Filling in texts without opening braces adds none. -/
theorem grouped_replaceFrom (hname : Braceless name) (hvalue : '{' ∉ value) (h : grouped cs) :
    grouped (replaceFrom (placeholder name) value 0 cs) := by
  induction hn : cs.length using Nat.strong_induction_on generalizing cs with
  | _ n ih =>
  subst hn
  have hstep {piece rest : List Char} (hcs : piece ++ rest = cs) (hpiece : piece ≠ []) :
      grouped (replaceFrom (placeholder name) value 0 rest) := by
    have hlength : 0 < piece.length := List.length_pos_iff.2 hpiece
    exact ih rest.length (by simp [← hcs, hlength]) (grouped_of_suffix ⟨piece, hcs⟩ h) rfl
  rcases cs with _ | ⟨c, rest⟩
  · rfl
  by_cases hhit : placeholder name <+: c :: rest
  · obtain ⟨after, hafter⟩ := hhit
    rw [← hafter, replaceFrom_append placeholder_ne_nil]
    exact grouped_append hvalue (hstep hafter placeholder_ne_nil)
  by_cases hc : c = '{'
  · subst hc
    obtain ⟨other, after, hother, hafter⟩ := exists_placeholder_of_grouped h
    have hne : name ≠ other := by
      rintro rfl
      exact hhit ⟨after, hafter.symm⟩
    rw [hafter, replaceFrom_append_of_clear (clear_placeholder hname hother hne)]
    exact grouped_placeholder_append hother (hstep hafter.symm placeholder_ne_nil)
  · rw [replaceFrom_cons hhit]
    have hclosed : '{' ∉ [c] := by simpa using Ne.symm hc
    exact grouped_append hclosed (hstep List.singleton_append (List.cons_ne_nil c []))

/-- In a text whose opening braces all start placeholders, filling in texts without opening braces
goes as it should, in whatever order. -/
theorem filled_fillIn_of_grouped (hitems : Named items)
    (hvalues : ∀ item ∈ items, '{' ∉ item.2.toList) {text : String} (htext : grouped text.toList) :
    Filled items text.toList (fillIn items text).toList := by
  induction items generalizing text with
  | nil => exact filled_fillIn_of_not_completes hitems (by simp) text
  | cons item items ih =>
    have hname := hitems.braceless _ List.mem_cons_self
    obtain ⟨hvalue, hothers⟩ := List.forall_mem_cons.1 hvalues
    have hgrouped : grouped (replace text ("\x7b" ++ item.1 ++ "\x7d") item.2).toList := by
      rw [toList_replace_placeholder]
      exact grouped_replaceFrom hname hvalue htext
    have hrest := ih hitems.of_cons hothers hgrouped
    rw [toList_replace_placeholder] at hrest
    refine Filled.of_replaceFrom hitems (fun i hi rest => clear_of_not_mem hvalue) ?_ hrest
    intro i hi c rest hsuffix hhit hfree hfront
    obtain rfl : c = '{' := (List.cons_prefix_cons.1 hfront).1.symm
    -- The brace starts a placeholder, which stays.
    obtain ⟨other, after, hother, hafter⟩ :=
      exists_placeholder_of_grouped (grouped_of_suffix hsuffix htext)
    have hne : item.1 ≠ other := by
      rintro rfl
      exact hhit ⟨after, hafter.symm⟩
    rw [← replaceFrom_cons hhit, hafter,
      replaceFrom_append_of_clear (clear_placeholder hname hother hne)] at hfront
    obtain rfl := eq_of_placeholder_isPrefix (hitems.of_cons.braceless i hi) hother hfront
    exact hfree ⟨after, hafter.symm⟩

end ScriptLang
