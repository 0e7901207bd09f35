import Mathlib.Data.List.TakeWhile
import ScriptLang.Path

/-!
# Files of different names

Resolving a path keeps its last step if that is a plain name. So paths that end in different names
are different files, wherever they start.
-/

namespace ScriptLang.Path

open Text

variable {n n' p : String}

/-- A step that stands for itself. -/
structure IsName (n : String) : Prop where
  step : n ≠ "" ∧ n ≠ "." ∧ n ≠ ".."
  slash : '/' ∉ n.toList

instance (n : String) : Decidable (IsName n) :=
  decidable_of_iff ((n ≠ "" ∧ n ≠ "." ∧ n ≠ "..") ∧ '/' ∉ n.toList)
    ⟨fun h => ⟨h.1, h.2⟩, fun h => ⟨h.step, h.slash⟩⟩

def EndsIn (p n : String) : Prop := ∃ front, splitOn p "/" = front ++ [n]

/-- A slash in a text ends the piece before it. -/
theorem splitFrom_append_slash (piece a b : List Char) :
    splitFrom ['/'] 0 piece (a ++ '/' :: b) =
      splitFrom ['/'] 0 piece a ++ splitFrom ['/'] 0 [] b := by
  induction a generalizing piece with
  | nil => simp [splitFrom]
  | cons c a ih =>
    by_cases hc : '/' = c
    · subst hc
      simp [splitFrom, ih]
    · simp [splitFrom, hc, ih]

theorem splitFrom_of_not_mem {cs : List Char} (h : '/' ∉ cs) (piece : List Char) :
    splitFrom ['/'] 0 piece cs = [piece.reverse ++ cs] := by
  induction cs generalizing piece with
  | nil => simp [splitFrom]
  | cons c cs ih =>
    rw [List.mem_cons, not_or] at h
    simp [splitFrom, h.1, ih h.2]

/-- The pieces of two paths with a slash between them are those of the first and then those of the
second. -/
theorem splitOn_append_slash (a b : String) :
    splitOn (a ++ "/" ++ b) "/" = splitOn a "/" ++ splitOn b "/" := by
  simp [splitOn, splitFrom_append_slash]

theorem IsName.endsIn (h : IsName n) : EndsIn n n :=
  ⟨[], by simp [splitOn, splitFrom_of_not_mem h.slash]⟩

theorem EndsIn.append_slash (h : EndsIn p n) (base : String) : EndsIn (base ++ "/" ++ p) n := by
  obtain ⟨front, hfront⟩ := h
  exact ⟨splitOn base "/" ++ front, by rw [splitOn_append_slash, hfront, List.append_assoc]⟩

theorem EndsIn.join (h : EndsIn p n) (base : String) : EndsIn (Path.join base p) n := by
  unfold Path.join
  split
  · exact h
  split
  · rename_i hbase
    rcases Bool.or_eq_true_iff.1 hbase with hempty | hslash
    · rw [String.isEmpty_iff.1 hempty, String.empty_append]
      exact h
    · obtain ⟨front, hfront⟩ := List.isSuffixOf_iff_suffix.1 hslash
      have hbase : base = String.ofList front ++ "/" := by
        rw [← String.toList_inj, ← hfront]
        simp
      rw [hbase]
      exact h.append_slash _
  · exact h.append_slash base

/-- A step that stands for itself is kept at the end, and takes none of the steps before it away. -/
theorem takeSteps_append_name (h : IsName n) (taken steps : List String) :
    takeSteps taken (steps ++ [n]) = takeSteps taken steps ++ [n] := by
  obtain ⟨hempty, hdot, hdots⟩ := h.step
  induction steps generalizing taken with
  | nil => simp [takeSteps, hempty, hdot, hdots]
  | cons step steps ih =>
    simp only [List.cons_append, takeSteps]
    split_ifs <;> exact ih _

theorem exists_join_append_name (steps : List String) (n : String) :
    ∃ front, ("/" ++ Text.join "/" (steps ++ [n])).toList = front ++ '/' :: n.toList := by
  induction steps with
  | nil => exact ⟨[], by simp [Text.join]⟩
  | cons step steps ih =>
    obtain ⟨front, hfront⟩ := ih
    refine ⟨'/' :: step.toList ++ front, ?_⟩
    have hjoin : Text.join "/" (step :: (steps ++ [n])) =
        step ++ "/" ++ Text.join "/" (steps ++ [n]) := by
      cases steps <;> rfl
    rw [String.toList_append] at hfront
    rw [List.cons_append, hjoin, String.toList_append, String.toList_append, String.toList_append,
      List.append_assoc step.toList, hfront]
    simp

/-- Seen from any directory, a path that ends in a name is resolved to one that ends in it. -/
theorem EndsIn.exists_resolve (h : EndsIn p n) (hn : IsName n) (directory : String) :
    ∃ front, (resolve directory p).toList = front ++ '/' :: n.toList := by
  obtain ⟨front, hfront⟩ := h.join directory
  rw [resolve, normalize, steps, hfront, takeSteps_append_name hn]
  exact exists_join_append_name _ n

/-- Two paths that are the same have the same last step. -/
theorem eq_of_append_slash {front front' : List Char} (hn : IsName n) (hn' : IsName n')
    (h : front ++ '/' :: n.toList = front' ++ '/' :: n'.toList) : n = n' := by
  have htail (m : String) (hm : IsName m) (front : List Char) :
      (front ++ '/' :: m.toList).reverse.takeWhile (· != '/') = m.toList.reverse := by
    have hall (c : Char) (hc : c ∈ m.toList.reverse) : c != '/' :=
      bne_iff_ne.2 fun h => hm.slash (h ▸ List.mem_reverse.1 hc)
    rw [List.reverse_append, List.reverse_cons, List.append_assoc,
      List.takeWhile_append_of_pos hall]
    simp
  have hreverse := (htail n hn front).symm.trans (h ▸ htail n' hn' front')
  exact String.toList_inj.1 (List.reverse_inj.1 hreverse)

/-- Files of different names are different files. -/
theorem resolve_join_ne (hn : IsName n) (hn' : IsName n') (hne : n ≠ n')
    (directory base base' : String) :
    resolve directory (Path.join base n) ≠ resolve directory (Path.join base' n') := by
  intro heq
  obtain ⟨front, hfront⟩ := (hn.endsIn.join base).exists_resolve hn directory
  obtain ⟨front', hfront'⟩ := (hn'.endsIn.join base').exists_resolve hn' directory
  rw [heq, hfront'] at hfront
  exact hne (eq_of_append_slash hn hn' hfront.symm)

end ScriptLang.Path
