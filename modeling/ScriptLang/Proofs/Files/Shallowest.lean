import Mathlib.Data.List.Induction
import ScriptLang.Run.Library

/-!
# The least deep file

The search for a file keeps the best directory so far, and depth is counted in slashes of paths.
Whatever the order of the visits, the first directory of least depth is found: after a root that
ends in a slash, directories in it have as many slashes as the root itself, but the root is visited
first.
-/

namespace ScriptLang

/-! ### Slashes and depth -/

namespace Path

variable {n p root : String} {k : Nat}

def IsStep (n : String) : Prop := n ≠ "" ∧ '/' ∉ n.toList

instance (n : String) : Decidable (IsStep n) := inferInstanceAs (Decidable (_ ∧ _))

/-- The paths of the directories below a root, by depth. -/
inductive Below (root : String) : Nat → String → Prop where
  | root : Below root 0 root
  | step {k : Nat} {p n : String} : Below root k p → IsStep n → Below root (k + 1) (join p n)

def gap (p : String) : List Char := if p.isEmpty || Text.endsWith p "/" then [] else ['/']

theorem toList_join (hn : IsStep n) (p : String) :
    (join p n).toList = p.toList ++ (gap p ++ n.toList) := by
  have hrelative : isAbsolute n = false := by
    rw [isAbsolute, Text.startsWith, Bool.eq_false_iff, ne_eq, List.isPrefixOf_iff_prefix]
    exact fun h => hn.2 (h.subset List.mem_cons_self)
  rw [join, hrelative, if_neg nofun, gap]
  split <;> simp

/-- A step does not end in a slash. -/
theorem gap_join (hn : IsStep n) (p : String) : gap (join p n) = ['/'] := by
  obtain ⟨front, last, hname⟩ :=
    (List.eq_nil_or_concat n.toList).resolve_left (mt String.toList_eq_nil_iff.1 hn.1)
  have hlast : '/' ≠ last := fun h => hn.2 (by simp [hname, ← h])
  rw [gap, if_neg]
  simp [← String.toList_eq_nil_iff, toList_join hn, hname, Text.endsWith, List.isSuffixOf, hlast]

theorem count_gap (p : String) : (gap p).count '/' = (gap p).length ∧ (gap p).length ≤ 1 := by
  rw [gap]
  split <;> simp

/-- A path below a root goes on from it, with a slash for each step but one if the root has none to
be put after it. -/
theorem Below.exists_append (h : Below root k p) : ∃ rest, p.toList = root.toList ++ rest ∧
    rest.count '/' = k - (1 - (gap root).length) ∧ k ≤ rest.length ∧
    (gap p).length = if k = 0 then (gap root).length else 1 := by
  induction h with
  | root => exact ⟨[], by simp⟩
  | @step k p n _ hn ih =>
    obtain ⟨rest, hrest, hcount, hlength, hgap⟩ := ih
    have hpos : n.toList.length ≠ 0 := by simpa using hn.1
    refine ⟨rest ++ (gap p ++ n.toList), by simp [toList_join hn, hrest], ?_, ?_, by
      rw [gap_join hn]; rfl⟩
    · have hroot := (count_gap root).2
      rw [List.count_append, List.count_append, hcount, (count_gap p).1, hgap,
        List.count_eq_zero_of_not_mem hn.2]
      split_ifs <;> omega
    · simp only [List.length_append]
      omega

/-- The slashes of a path below a root tell its depth, up to the slash after the root itself. -/
theorem Below.depthBelow_eq (h : Below root k p) :
    Files.depthBelow root p = k - (1 - (gap root).length) := by
  obtain ⟨rest, hrest, hcount, -⟩ := h.exists_append
  rw [Files.depthBelow, hrest, String.length, List.drop_left, hcount]

/-- Only the root itself is at depth zero. -/
theorem Below.eq_zero_iff (h : Below root k p) : k = 0 ↔ p = root := by
  obtain ⟨rest, hrest, -, hlength, -⟩ := h.exists_append
  constructor
  · rintro rfl
    cases h
    rfl
  · rintro rfl
    simp_all

end Path

namespace Files

open ScriptLang.Path

variable {root name : String} {visits : List (String × List String)}

/-! ### The best directory so far -/

/-- What the search has after some visits: the first directory with the file that has the fewest
slashes. -/
def IsBest (root name : String) (visits : List (String × List String)) : Option String → Prop
  | none => ∀ v ∈ visits, name ∉ v.2
  | some d => ∃ before files after, visits = before ++ (d, files) :: after ∧ name ∈ files ∧
      (∀ u ∈ before, name ∈ u.2 → depthBelow root d < depthBelow root u.1) ∧
      ∀ u ∈ after, name ∈ u.2 → depthBelow root d ≤ depthBelow root u.1

/-- One visit of a directory keeps the best choice so far, or takes the visited one. -/
theorem IsBest.step {best : Option String} (h : IsBest root name visits best)
    (v : String × List String) : IsBest root name (visits ++ [v]) (lessDeep root name best v) := by
  unfold lessDeep
  by_cases hv : name ∈ v.2
  · rw [if_pos (by simpa using hv)]
    cases best with
    | none => exact ⟨visits, v.2, [], rfl, hv, fun u hu hname => absurd hname (h u hu), nofun⟩
    | some d =>
      obtain ⟨before, files, after, rfl, hfiles, hbefore, hafter⟩ := h
      dsimp only
      split_ifs with hless
      · exact ⟨before ++ (d, files) :: after, v.2, [], rfl, hv, by grind, nofun⟩
      · exact ⟨before, files, after ++ [v], by simp, hfiles, hbefore, by grind⟩
  · rw [if_neg (by simpa using hv)]
    cases best with
    | none => exact List.forall_mem_append.2 ⟨h, by simpa using hv⟩
    | some d =>
      obtain ⟨before, files, after, rfl, hfiles, hbefore, hafter⟩ := h
      exact ⟨before, files, after ++ [v], by simp, hfiles, hbefore, by grind⟩

/-- What the search has after all visits, by induction from the last one. -/
theorem isBest_foldl (visits : List (String × List String)) :
    IsBest root name visits (visits.foldl (lessDeep root name) none) := by
  induction visits using List.reverseRecOn with
  | nil => exact nofun
  | append_singleton visits v ih =>
    rw [List.foldl_append]
    exact ih.step v

/-! ### Walks -/

/-- Visits of directories below a root, with the names of their files; the root can only be the
first one. -/
structure IsWalk (root : String) (visits : List (String × List String)) : Prop where
  below : ∀ v ∈ visits, ∃ k, Below root k v.1
  once : ∀ v ∈ visits.tail, v.1 ≠ root

/-- The file is found if there is one, in the first directory of least depth that has it. -/
structure Finds (root name : String) (visits : List (String × List String))
    (found : Option String) : Prop where
  eq_none_iff : found = none ↔ ∀ v ∈ visits, name ∉ v.2
  least : ∀ p ∈ found, ∃ before d files after k, visits = before ++ (d, files) :: after ∧
    p = join d name ∧ name ∈ files ∧ Below root k d ∧
    (∀ u ∈ before, name ∈ u.2 → ∀ j, Below root j u.1 → k < j) ∧
    ∀ u ∈ after, name ∈ u.2 → ∀ j, Below root j u.1 → k ≤ j

/-- In every walk, the search finds the first file of least depth. -/
theorem IsWalk.finds (h : IsWalk root visits) (name : String) :
    Finds root name visits (shallowestOf? root name visits) := by
  have hbest : IsBest root name visits _ := isBest_foldl visits
  rw [shallowestOf?]
  cases hfound : visits.foldl (lessDeep root name) none with
  | none =>
    rw [hfound] at hbest
    exact ⟨iff_of_true rfl hbest, nofun⟩
  | some d =>
    rw [hfound] at hbest
    obtain ⟨before, files, after, rfl, hfiles, hbefore, hafter⟩ := hbest
    obtain ⟨k, hk⟩ := h.below (d, files) (by simp)
    refine ⟨iff_of_false nofun fun hnone => hnone (d, files) (by simp) hfiles, ?_⟩
    rintro _ ⟨⟩
    refine ⟨before, d, files, after, k, rfl, rfl, hfiles, hk, fun u hu hname j hj => ?_,
      fun u hu hname j hj => ?_⟩
    · have hless := hbefore u hu hname
      rw [hk.depthBelow_eq, hj.depthBelow_eq] at hless
      omega
    · have hle := hafter u hu hname
      rw [hk.depthBelow_eq, hj.depthBelow_eq] at hle
      -- slashes do not tell the root from the directories in it, but it is not visited again
      have hne : u.1 ≠ root := h.once u (by cases before <;> simp [hu])
      have hpos := mt hj.eq_zero_iff.1 hne
      omega

theorem isStep_of_mem_children {fs : Files} {d n : String} (h : n ∈ fs.children d) : IsStep n := by
  obtain ⟨e, -, he⟩ := List.mem_filterMap.1 h
  simp only [Option.ite_none_right_eq_some, Option.ite_none_left_eq_some, Option.some.injEq] at he
  obtain ⟨-, hrest, rfl⟩ := he
  simpa [IsStep] using hrest

/-- What is visited after the first directory lies deeper. -/
theorem below_of_mem_walkFrom {fs : Files} {start p : String} {fuel k : Nat} (hp : Below root k p)
    {e : String × List String} (he : e ∈ fs.walkFrom start fuel p) :
    ∃ j ≥ k, Below root j e.1 ∧ e.2 = fs.fileNames (resolve start e.1) ∧
      (e ∈ (fs.walkFrom start fuel p).tail → k < j) := by
  induction fuel generalizing p k with
  | zero => cases he
  | succ fuel ih =>
    by_cases htail : e ∈ (fs.walkFrom start (fuel + 1) p).tail
    · obtain ⟨n, hn, he⟩ := List.mem_flatMap.1 htail
      have hn := isStep_of_mem_children (List.mem_filter.1 hn).1
      obtain ⟨j, hj, hbelow, hfiles, -⟩ := ih (hp.step hn) he
      exact ⟨j, by omega, hbelow, hfiles, fun _ => hj⟩
    · obtain rfl := (List.mem_cons.1 he).resolve_right htail
      exact ⟨k, Nat.le_refl k, hp, rfl, (absurd · htail)⟩

/-- The walk through the files of a directory visits directories below it, with the names of their
files. -/
theorem isWalk_walk (fs : Files) (root start : String) : IsWalk root (fs.walk root start) ∧
    ∀ v ∈ fs.walk root start, v.2 = fs.fileNames (resolve start v.1) := by
  rw [walk]
  split_ifs
  · refine ⟨⟨fun v hv => ?_, fun v hv => ?_⟩, fun v hv => ?_⟩
    · obtain ⟨k, -, hk, -⟩ := below_of_mem_walkFrom .root hv
      exact ⟨k, hk⟩
    · obtain ⟨k, -, hk, -, hpos⟩ := below_of_mem_walkFrom .root (List.mem_of_mem_tail hv)
      exact mt hk.eq_zero_iff.2 (Nat.ne_of_gt (hpos hv))
    · obtain ⟨-, -, -, hfiles, -⟩ := below_of_mem_walkFrom .root hv
      exact hfiles
  · exact ⟨⟨nofun, nofun⟩, nofun⟩

/-- The search finds a file exactly if a visited directory has it, and then in the first directory
of least depth, in whatever order the directories below the root are visited and whether the root
ends in a slash or not. The walk through the files visits them as it must, and the search for
libraries is this search. -/
theorem shallowest_finds (root name : String) :
    (∀ visits, IsWalk root visits →
      Finds root name visits (shallowestOf? root name visits)) ∧
    (∀ (fs : Files) (start : String), IsWalk root (fs.walk root start) ∧
      (∀ v ∈ fs.walk root start, v.2 = fs.fileNames (resolve start v.1)) ∧
      Finds root name (fs.walk root start) (fs.shallowest? root name start)) ∧
    ∀ w : World, w.deepFile? name = w.files.shallowest? w.libraries name w.directory := by
  refine ⟨fun visits h => h.finds name, fun fs start => ?_, fun w => ?_⟩
  · obtain ⟨hwalk, hfiles⟩ := isWalk_walk fs root start
    exact ⟨hwalk, hfiles, hwalk.finds name⟩
  · rw [World.deepFile?, World.resolve]
    split
    · rename_i hmissing
      have hnone : w.files.walk w.libraries w.directory = [] := by
        rw [walk, if_neg (by simpa [or_iff_not_imp_left] using hmissing)]
      rw [shallowest?, hnone]
      rfl
    · rfl

/-- A root that ends in a slash, with the file in two directories of different depth. -/
theorem shallowest_finds_after_slash :
    let visits := [("lib/", []), ("lib/x/y", ["m"]), ("lib/z", ["m"])]
    IsWalk "lib/" visits ∧ Finds "lib/" "m" visits (shallowestOf? "lib/" "m" visits) ∧
      shallowestOf? "lib/" "m" visits = some "lib/z/m" := by
  have hwalk : IsWalk "lib/" [("lib/", []), ("lib/x/y", ["m"]), ("lib/z", ["m"])] := by
    have hx : Below "lib/" 1 (join "lib/" "x") := .step .root (by decide)
    have hy : Below "lib/" 2 (join "lib/x" "y") := .step hx (by decide)
    have hz : Below "lib/" 1 (join "lib/" "z") := .step .root (by decide)
    refine ⟨?_, by simp⟩
    simp only [List.forall_mem_cons]
    exact ⟨⟨0, .root⟩, ⟨2, hy⟩, ⟨1, hz⟩, nofun⟩
  exact ⟨hwalk, (shallowest_finds "lib/" "m").1 _ hwalk, by decide⟩

end Files

end ScriptLang
