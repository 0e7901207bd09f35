import Mathlib.Data.List.Infix
import ScriptLang.Text.Search

/-!
# Occurrences

What it means for one text to occur in another: it is a run of consecutive characters of it.
Replacing is told by three equations, of which one applies to every text: there is nothing left, an
occurrence comes next, or a character that starts none.
-/

namespace ScriptLang.Text

variable {pat new : List Char}

/-- A text is found exactly if it occurs. -/
theorem isSome_findFrom (pat : List Char) (start : Nat) (cs : List Char) :
    (findFrom pat start cs).isSome ↔ pat <:+: cs := by
  induction cs generalizing start with
  | nil => cases pat <;> simp [findFrom]
  | cons c cs ih =>
    rw [findFrom, List.infix_cons_iff, ← ih (start + 1)]
    by_cases h : pat <+: c :: cs <;> simp [h]

theorem contains_iff (s pat : String) : contains s pat ↔ pat.toList <:+: s.toList :=
  isSome_findFrom pat.toList 0 s.toList

/-! ### Replacing -/

theorem replaceFrom_length (xs cs : List Char) :
    replaceFrom pat new xs.length (xs ++ cs) = replaceFrom pat new 0 cs := by
  induction xs with
  | nil => rfl
  | cons _ _ ih => simpa only [List.length_cons, List.cons_append, replaceFrom] using ih

/-- An occurrence is replaced. -/
theorem replaceFrom_append (hpat : pat ≠ []) (cs : List Char) :
    replaceFrom pat new 0 (pat ++ cs) = new ++ replaceFrom pat new 0 cs := by
  obtain ⟨c, rest, rfl⟩ := List.exists_cons_of_ne_nil hpat
  rw [List.cons_append, replaceFrom, if_pos (by simp), List.length_cons, Nat.add_sub_cancel,
    replaceFrom_length]

/-- A character that starts no occurrence stays. -/
theorem replaceFrom_cons {c : Char} {cs : List Char} (h : ¬ pat <+: c :: cs) :
    replaceFrom pat new 0 (c :: cs) = c :: replaceFrom pat new 0 cs := by
  rw [replaceFrom, if_neg (by simpa using h)]

/-- Induction along the occurrences of a text in another. -/
@[elab_as_elim]
theorem occurrence_induction {motive : List Char → Prop} (hpat : pat ≠ []) (nil : motive [])
    (hit : ∀ cs, motive cs → motive (pat ++ cs))
    (miss : ∀ c cs, ¬ pat <+: c :: cs → motive cs → motive (c :: cs)) (cs : List Char) :
    motive cs := by
  induction hn : cs.length using Nat.strong_induction_on generalizing cs with
  | _ n ih =>
    subst hn
    rcases cs with _ | ⟨c, cs⟩
    · exact nil
    by_cases h : pat <+: c :: cs
    · obtain ⟨rest, hrest⟩ := h
      have hlength : 0 < pat.length := List.length_pos_iff.2 hpat
      rw [← hrest] at ih ⊢
      exact hit rest (ih rest.length (by simpa using hlength) rest rfl)
    · exact miss c cs h (ih cs.length (by simp) cs rfl)

/-- Replacing a text by itself changes nothing. -/
theorem replaceFrom_self (hpat : pat ≠ []) (cs : List Char) : replaceFrom pat pat 0 cs = cs := by
  induction cs using occurrence_induction hpat with
  | nil => rfl
  | hit cs ih => rw [replaceFrom_append hpat, ih]
  | miss c cs h ih => rw [replaceFrom_cons h, ih]

/-- Replacing by something shorter makes no text longer. -/
theorem length_replaceFrom_le (hpat : pat ≠ []) (hnew : new.length ≤ pat.length) (cs : List Char) :
    (replaceFrom pat new 0 cs).length ≤ cs.length := by
  induction cs using occurrence_induction hpat with
  | nil => rfl
  | hit cs ih =>
    rw [replaceFrom_append hpat, List.length_append, List.length_append]
    omega
  | miss c cs h ih => simpa [replaceFrom_cons h] using ih

theorem le_length_replaceFrom (hpat : pat ≠ []) (hnew : pat.length ≤ new.length) (cs : List Char) :
    cs.length ≤ (replaceFrom pat new 0 cs).length := by
  induction cs using occurrence_induction hpat with
  | nil => rfl
  | hit cs ih =>
    rw [replaceFrom_append hpat, List.length_append, List.length_append]
    omega
  | miss c cs h ih => simpa [replaceFrom_cons h] using ih

/-- Replacing a text that occurs leaves everything as it was only if the text is replaced by
itself. -/
theorem eq_of_replaceFrom_eq (hpat : pat ≠ []) {cs : List Char} (hoccurs : pat <:+: cs)
    (h : replaceFrom pat new 0 cs = cs) : new = pat := by
  induction cs using occurrence_induction hpat with
  | nil => exact absurd (List.infix_nil.1 hoccurs) hpat
  | hit cs _ =>
    rw [replaceFrom_append hpat] at h
    have hlength := congrArg List.length h
    rw [List.length_append, List.length_append] at hlength
    have hle (hnew : new.length ≤ pat.length) := length_replaceFrom_le hpat hnew cs
    have hge (hnew : pat.length ≤ new.length) := le_length_replaceFrom hpat hnew cs
    exact (List.append_inj h (by omega)).1
  | miss c cs hmiss ih =>
    rw [replaceFrom_cons hmiss] at h
    exact ih ((List.infix_cons_iff.1 hoccurs).resolve_left hmiss) (List.cons.inj h).2

theorem toList_replace (s : String) {pat : String} (hpat : pat.toList ≠ []) (new : String) :
    (replace s pat new).toList = replaceFrom pat.toList new.toList 0 s.toList := by
  rw [replace, String.toList_ofList, replaceChars, if_neg (by simpa using hpat)]

end ScriptLang.Text
