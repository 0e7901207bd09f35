import ScriptLang.Install.Startup
import ScriptLang.Proofs.Files.Contents
import ScriptLang.Proofs.Run.Basic
import ScriptLang.Proofs.Text.Search
import ScriptLang.Proofs.Text.Utf8

/-!
# Start-up files are only extended

However far registering a directory gets, the files that it changes have got the line of the
directory at their ends and are as they were before it. A file that has got the line mentions the
directory, so that a second registration finds it.
-/

namespace ScriptLang

namespace Files

/-- Line ends before a newline do not change what is read after it. -/
theorem suffix_universalNewlines (xs ys : List Char) :
    universalNewlines ys <:+ universalNewlines (xs ++ '\n' :: ys) := by
  fun_induction universalNewlines xs with
  | case1 => simp [universalNewlines]
  | case2 cs ih => exact ih.trans (by simp [universalNewlines])
  | case3 cs hcs ih =>
    -- A carriage return at the end is read as one line end with the newline after it.
    rcases cs with _ | ⟨c, cs⟩
    · simp [universalNewlines]
    · refine ih.trans ?_
      rw [List.cons_append, List.cons_append, universalNewlines]
      · exact List.suffix_cons _ _
      · exact fun cs' heq => hcs cs (by rw [(List.cons.inj heq).1])
  | case4 c cs hc hc' ih =>
    refine ih.trans ?_
    rw [List.cons_append, universalNewlines]
    · exact List.suffix_cons _ _
    · exact fun _ hreturn => absurd hreturn hc'
    · exact hc'

theorem universalNewlines_of_not_mem {cs : List Char} (h : '\r' ∉ cs) :
    universalNewlines cs = cs := by
  fun_induction universalNewlines cs with
  | case1 => rfl
  | case2 => simp at h
  | case3 => simp at h
  | case4 c cs _ _ ih => rw [ih (List.not_mem_of_not_mem_cons h)]

end Files

namespace Install

variable {d p : String} {w w' w'' : World} {changed changed' : List String}

/-- What is added for a directory starts with a newline and spells the directory. -/
theorem exists_toList_startupLine (d : String) : ∃ front back, '\r' ∉ front ∧ '\r' ∉ back ∧
    (startupLine d).toList = '\n' :: (front ++ d.toList ++ back) := by
  refine ⟨"# Added by YPSH installer\nexport PATH=\"".toList, ":$PATH\"\n".toList, by simp,
    by simp, ?_⟩
  delta startupLine
  simp

theorem bytes_startupLine_ne_nil (d : String) : Text.bytes (startupLine d) ≠ [] := by
  obtain ⟨front, back, -, -, hline⟩ := exists_toList_startupLine d
  rw [Text.bytes, hline, List.flatMap_cons]
  exact List.append_ne_nil_of_left_ne_nil (Text.charBytes_ne_nil _) _

/-- A file that ends in the line for a directory mentions it. -/
theorem mentions_of_bytes? (hd : '\r' ∉ d.toList) {bytes : List Nat}
    (h : w.files.bytes? (w.resolve p) = some (bytes ++ Text.bytes (startupLine d))) :
    mentions w p d := by
  obtain ⟨front, back, hfront, hback, hline⟩ := exists_toList_startupLine d
  have hreturn : '\r' ∉ front ++ d.toList ++ back := by simp [hfront, hd, hback]
  have hsuffix := Files.suffix_universalNewlines (Text.ofBytes bytes).toList
    (front ++ d.toList ++ back)
  rw [Files.universalNewlines_of_not_mem hreturn, ← Text.toList_ofBytes_append (by decide),
    ← hline, String.ofList_toList] at hsuffix
  have hcontents : w.contentsOf? p = some (String.ofList (Files.universalNewlines
      (Text.ofBytes (bytes ++ Text.bytes (startupLine d))).toList)) := by
    rw [World.contentsOf?, h, Option.map_some, Files.readBytes]
  delta mentions
  rw [hcontents]
  change Text.contains _ d
  rw [Text.contains_iff, String.toList_ofList]
  exact (List.infix_append front d.toList back).trans hsuffix.isInfix

/-- From the first surroundings to the second one only files are different, and only those at some
paths: they got the line for a directory, after all that they held. -/
structure Registered (d : String) (w w' : World) (changed : List String) : Prop where
  rest : w' = { w with files := w'.files }
  others : ∀ q, (∀ p ∈ changed, w.resolve p ≠ q) → w'.files.bytes? q = w.files.bytes? q
  extended : ∀ p ∈ changed, ∃ front, (w.files.bytes? (w.resolve p)).getD [] <+: front ∧
    w'.files.bytes? (w.resolve p) = some (front ++ Text.bytes (startupLine d))

namespace Registered

theorem of_keepsContents (h : World.KeepsContents w w') : Registered d w w' [] :=
  ⟨h.rest, fun q _ => h.bytes? q, by simp⟩

theorem resolve (h : Registered d w w' changed) (p : String) : w'.resolve p = w.resolve p := by
  rw [h.rest]
  rfl

/-- No file loses anything. -/
theorem prefix_bytes? (h : Registered d w w' changed) (q : String) :
    (w.files.bytes? q).getD [] <+: (w'.files.bytes? q).getD [] := by
  by_cases hq : ∃ p ∈ changed, w.resolve p = q
  · obtain ⟨p, hp, rfl⟩ := hq
    obtain ⟨front, hfront, hbytes⟩ := h.extended p hp
    rw [hbytes]
    exact hfront.trans (List.prefix_append front _)
  · rw [h.others q fun p hp hresolve => hq ⟨p, hp, hresolve⟩]

/-- Two registrations after each other register the files of both. -/
theorem trans (h : Registered d w w' changed) (h' : Registered d w' w'' changed') :
    Registered d w w'' (changed ++ changed') := by
  refine ⟨by rw [h'.rest, h.rest], fun q hq => ?_, fun p hp => ?_⟩
  · have hlater (p : String) (hp : p ∈ changed') : w'.resolve p ≠ q :=
      (h.resolve p).symm ▸ hq p (List.mem_append_right _ hp)
    rw [h'.others q hlater, h.others q fun p hp => hq p (List.mem_append_left _ hp)]
  -- Two paths may be one file, which then ends in the line that was added last.
  by_cases hlater : ∃ p' ∈ changed', w.resolve p' = w.resolve p
  · obtain ⟨p', hp', hresolve⟩ := hlater
    obtain ⟨front, hfront, hbytes⟩ := h'.extended p' hp'
    rw [h.resolve, hresolve] at hfront hbytes
    exact ⟨front, (h.prefix_bytes? _).trans hfront, hbytes⟩
  · have hfirst : p ∈ changed := (List.mem_append.1 hp).resolve_right fun hp' =>
      hlater ⟨p, hp', rfl⟩
    obtain ⟨front, hfront, hbytes⟩ := h.extended p hfirst
    refine ⟨front, hfront, ?_⟩
    have hothers (p' : String) (hp' : p' ∈ changed') : w'.resolve p' ≠ w.resolve p :=
      fun hresolve => hlater ⟨p', hp', (h.resolve p').symm.trans hresolve⟩
    rw [h'.others _ hothers, hbytes]

theorem of_extendFile (h : w.extendFile p (startupLine d) = .ok w') : Registered d w w' [p] where
  rest := by
    obtain ⟨-, hw⟩ := World.putFile_eq_ok h
    rw [hw]
  others q hq := by
    rw [World.bytes?_putFile h, if_neg (hq p (List.mem_singleton_self p))]
  extended q hq := by
    obtain rfl := List.mem_singleton.1 hq
    exact ⟨_, List.prefix_rfl, by rw [World.bytes?_putFile h, if_pos rfl]⟩

/-- A file that was there is still there, with its old contents as the first part. -/
theorem exists_bytes? (h : Registered d w w' changed) {q : String} {old : List Nat}
    (hq : w.files.bytes? q = some old) : ∃ new, w'.files.bytes? q = some new ∧ old <+: new := by
  have hprefix := h.prefix_bytes? q
  rw [hq, Option.getD_some] at hprefix
  by_cases hchanged : ∃ p ∈ changed, w.resolve p = q
  · obtain ⟨p, hp, rfl⟩ := hchanged
    obtain ⟨front, -, hbytes⟩ := h.extended p hp
    rw [hbytes] at hprefix ⊢
    exact ⟨_, rfl, hprefix⟩
  · rw [h.others q fun p hp hresolve => hchanged ⟨p, hp, hresolve⟩]
    exact ⟨old, hq, List.prefix_rfl⟩

/-- Exactly the files at the given paths are different. -/
theorem bytes?_ne_iff (h : Registered d w w' changed) (q : String) :
    w'.files.bytes? q ≠ w.files.bytes? q ↔ ∃ p ∈ changed, w.resolve p = q := by
  refine ⟨fun hne => ?_, ?_⟩
  · by_contra hnone
    exact hne (h.others q fun p hp hresolve => hnone ⟨p, hp, hresolve⟩)
  · rintro ⟨p, hp, rfl⟩ heq
    obtain ⟨front, hfront, hbytes⟩ := h.extended p hp
    rw [← heq, hbytes, Option.getD_some] at hfront
    have hlength := hfront.length_le
    rw [List.length_append] at hlength
    exact bytes_startupLine_ne_nil d (List.eq_nil_of_length_eq_zero (by omega))

end Registered

theorem run_change (f : World → Except Failure World) (w : World) :
    (change f).run w = match f w with
      | .ok w' => (.ok (), w')
      | .error e => (.error e, w) := by
  rw [change, run_bind_state]
  change (match f w with | .ok w' => set w' | .error e => throw e : Task Unit).run w = _
  cases f w <;> rfl

/-- One file of a list: it gets the line if it is there and does not mention the directory. -/
theorem run_addToEach_cons (d p : String) (rest : List String) (w : World) :
    (addToEach d (p :: rest)).run w =
      if w.has p && !mentions w p d then
        match w.extendFile p (startupLine d) with
        | .ok w' => (((addToEach d rest).run w').1.map (p :: ·), ((addToEach d rest).run w').2)
        | .error e => (.error e, w)
      else (addToEach d rest).run w := by
  have hmore (w' : World) : ((p :: ·) <$> addToEach d rest).run w' =
      (((addToEach d rest).run w').1.map (p :: ·), ((addToEach d rest).run w').2) := by
    rw [map_eq_pure_bind, run_bind_state]
    rcases (addToEach d rest).run w' with ⟨_ | _, _⟩ <;> rfl
  rw [addToEach, run_bind_state]
  change (if w.has p && !mentions w p d then do
      change fun w => w.extendFile p (startupLine d)
      (p :: ·) <$> addToEach d rest
    else addToEach d rest : Task (List String)).run w = _
  split
  · rw [run_bind_state, run_change]
    cases w.extendFile p (startupLine d) with
    | error e => rfl
    | ok w' => exact hmore w'
  · rfl

/-- One file after the other is extended, until one cannot be. -/
theorem registered_addToEach (d : String) (paths : List String) (w : World) :
    ∃ changed ⊆ paths, Registered d w ((addToEach d paths).run w).2 changed ∧
      ∀ given, ((addToEach d paths).run w).1 = .ok given → given = changed := by
  induction paths generalizing w with
  | nil =>
    exact ⟨[], List.Subset.refl _, .of_keepsContents (.refl w), fun _ h => (Except.ok.inj h).symm⟩
  | cons p rest ih =>
    rw [run_addToEach_cons]
    split
    · cases hextend : w.extendFile p (startupLine d) with
      | error e =>
        exact ⟨[], List.nil_subset _, .of_keepsContents (.refl w), fun _ h => by cases h⟩
      | ok w' =>
        obtain ⟨changed, hsubset, hregistered, hgiven⟩ := ih w'
        refine ⟨p :: changed, List.cons_subset_cons p hsubset,
          (Registered.of_extendFile hextend).trans hregistered, fun given h => ?_⟩
        dsimp only at h
        rcases hrun : ((addToEach d rest).run w').1 with _ | more <;> rw [hrun] at h <;> cases h
        rw [hgiven more hrun]
    · obtain ⟨changed, hsubset, hrest⟩ := ih w
      exact ⟨changed, List.subset_cons_of_subset p hsubset, hrest⟩

/-- If no file is extended, all that are there mention the directory. -/
theorem mentions_of_addToEach {paths : List String} (h : ((addToEach d paths).run w).1 = .ok []) :
    ∀ p ∈ paths, w.has p → mentions w p d := by
  induction paths with
  | nil => simp
  | cons p rest ih =>
    rw [run_addToEach_cons] at h
    split at h
    · cases hextend : w.extendFile p (startupLine d) with
      | error e => rw [hextend] at h; cases h
      | ok w' =>
        rw [hextend] at h
        dsimp only at h
        rcases hrun : ((addToEach d rest).run w').1 with _ | more <;> rw [hrun] at h <;> cases h
    · rename_i hp
      refine List.forall_mem_cons.2 ⟨fun hhas => ?_, ih h⟩
      simpa [hhas] using hp

def startupPaths (w : World) : List String := startupNames.map (Path.join (home w))

def chosenPaths (w : World) : List String :=
  (startupNamesOf (shellName w)).map (Path.join (home w))

theorem chosenPaths_subset (w : World) : chosenPaths w ⊆ startupPaths w := by
  refine List.map_subset _ ?_
  unfold startupNamesOf
  split_ifs <;> decide

theorem exists_chosenPaths_eq_cons (w : World) : ∃ p rest, chosenPaths w = p :: rest := by
  unfold chosenPaths startupNamesOf
  split_ifs <;> exact ⟨_, _, rfl⟩

/-- Nothing is done if any start-up file mentions the directory; otherwise the files of the user's
shell get the line, and the first one is made if none is there. -/
theorem run_addToStartup (d : String) (w : World) : (addToStartup d).run w =
    if (startupPaths w).any fun p => mentions w p d then (.ok [], w)
    else if (chosenPaths w).any w.has then (addToEach d (chosenPaths w)).run w
    else match w.makeDirectories (Path.parent ((chosenPaths w).headD "")) with
      | .error e => (.error e, w)
      | .ok w₁ => match w₁.extendFile ((chosenPaths w).headD "") (startupLine d) with
        | .error e => (.error e, w₁)
        | .ok w₂ => (.ok [(chosenPaths w).headD ""], w₂) := by
  rw [addToStartup, run_bind_state]
  change (if (startupPaths w).any fun p => mentions w p d then pure []
    else if (chosenPaths w).any w.has then addToEach d (chosenPaths w)
    else do
      change fun w₁ => w₁.makeDirectories (Path.parent ((chosenPaths w).headD ""))
      change fun w₁ => w₁.extendFile ((chosenPaths w).headD "") (startupLine d)
      pure [(chosenPaths w).headD ""] : Task (List String)).run w = _
  split
  · rfl
  split
  · rfl
  rw [run_bind_state, run_change]
  cases w.makeDirectories (Path.parent ((chosenPaths w).headD "")) with
  | error e => rfl
  | ok w₁ =>
    dsimp only
    rw [run_bind_state, run_change]
    cases w₁.extendFile ((chosenPaths w).headD "") (startupLine d) <;> rfl

/-- However far a registration gets, start-up files are only extended. -/
theorem registered_addToStartup (d : String) (w : World) :
    ∃ changed ⊆ startupPaths w, Registered d w ((addToStartup d).run w).2 changed ∧
      ∀ given, ((addToStartup d).run w).1 = .ok given → given = changed := by
  rw [run_addToStartup]
  split
  · exact ⟨[], List.nil_subset _, .of_keepsContents (.refl w),
      fun _ h => (Except.ok.inj h).symm⟩
  split
  · obtain ⟨changed, hsubset, hrest⟩ := registered_addToEach d (chosenPaths w) w
    exact ⟨changed, List.Subset.trans hsubset (chosenPaths_subset w), hrest⟩
  obtain ⟨target, rest, hchosen⟩ := exists_chosenPaths_eq_cons w
  rw [hchosen, List.headD_cons]
  cases hdirectories : w.makeDirectories (Path.parent target) with
  | error e => exact ⟨[], List.nil_subset _, .of_keepsContents (.refl w), fun _ h => by cases h⟩
  | ok w₁ =>
    have hkeeps : Registered d w w₁ [] :=
      .of_keepsContents (World.makeDirectories_keepsContents hdirectories)
    dsimp only
    cases hextend : w₁.extendFile target (startupLine d) with
    | error e => exact ⟨[], List.nil_subset _, hkeeps, fun _ h => by cases h⟩
    | ok w₂ =>
      have htarget : target ∈ startupPaths w :=
        chosenPaths_subset w (hchosen ▸ List.mem_cons_self)
      exact ⟨[target], List.cons_subset.2 ⟨htarget, List.nil_subset _⟩,
        hkeeps.trans (.of_extendFile hextend), fun _ h => (Except.ok.inj h).symm⟩

/-- Only start-up files are changed, and each of those gets the line. -/
theorem registered_of_addToStartup (h : (addToStartup d).run w = (.ok changed, w')) :
    changed ⊆ startupPaths w ∧ Registered d w w' changed := by
  obtain ⟨changed', hsubset, hregistered, hgiven⟩ := registered_addToStartup d w
  rw [h] at hregistered hgiven
  obtain rfl := hgiven changed rfl
  exact ⟨hsubset, hregistered⟩

/-- A directory that a start-up file mentions already is not registered again. -/
theorem run_addToStartup_of_mentions (h : ∃ p ∈ startupPaths w, mentions w p d) :
    (addToStartup d).run w = (.ok [], w) := by
  rw [run_addToStartup, if_pos (List.any_eq_true.2 h)]

/-- If no known file mentions the directory, some file is extended. -/
theorem ne_nil_of_addToStartup (hnone : ¬ ∃ p ∈ startupPaths w, mentions w p d)
    (h : ((addToStartup d).run w).1 = .ok changed) : changed ≠ [] := by
  rintro rfl
  rw [run_addToStartup, if_neg (fun hany => hnone (List.any_eq_true.1 hany))] at h
  split at h
  · rename_i hchosen
    obtain ⟨p, hp, hhas⟩ := List.any_eq_true.1 hchosen
    exact hnone ⟨p, chosenPaths_subset w hp, mentions_of_addToEach h p hp hhas⟩
  · split at h
    · cases h
    · split at h <;> cases h

/-- A registration that goes well leaves a start-up file that mentions the directory. -/
theorem exists_mentions_of_addToStartup (hd : '\r' ∉ d.toList)
    (h : (addToStartup d).run w = (.ok changed, w')) : ∃ p ∈ startupPaths w, mentions w' p d := by
  by_cases hnone : ∃ p ∈ startupPaths w, mentions w p d
  · rw [run_addToStartup_of_mentions hnone] at h
    obtain ⟨-, rfl⟩ := Prod.mk.inj h
    exact hnone
  obtain ⟨hsubset, hregistered⟩ := registered_of_addToStartup h
  obtain ⟨p, hp⟩ := List.exists_mem_of_ne_nil changed
    (ne_nil_of_addToStartup hnone (congrArg Prod.fst h))
  obtain ⟨front, -, hbytes⟩ := hregistered.extended p hp
  rw [← hregistered.resolve] at hbytes
  exact ⟨p, hsubset hp, mentions_of_bytes? hd hbytes⟩

/-- Registering a directory adds to the files that it gives, at their ends, and changes no other.
Then a start-up file mentions the directory, and registering it once more changes nothing. -/
theorem addToStartup_extends (hd : '\r' ∉ d.toList)
    (h : (addToStartup d).run w = (.ok changed, w')) :
    w' = { w with files := w'.files } ∧
    (∀ q old, w.files.bytes? q = some old → ∃ new, w'.files.bytes? q = some new ∧ old <+: new) ∧
    (∀ q, w'.files.bytes? q ≠ w.files.bytes? q ↔ ∃ p ∈ changed, w.resolve p = q) ∧
    (∃ p ∈ startupPaths w, mentions w' p d) ∧ (addToStartup d).run w' = (.ok [], w') := by
  obtain ⟨-, hregistered⟩ := registered_of_addToStartup h
  have hmentions := exists_mentions_of_addToStartup hd h
  have hpaths : startupPaths w' = startupPaths w := by
    rw [hregistered.rest]
    rfl
  refine ⟨hregistered.rest, fun q old => hregistered.exists_bytes?, hregistered.bytes?_ne_iff,
    hmentions, run_addToStartup_of_mentions ?_⟩
  rwa [hpaths]

def unendedHome : World :=
  { environment := [("HOME", "/root")],
    files := [("/root", .directory), ("/root/.bashrc", .file [0x61] 0o644)] }

/-- The line goes on a line of its own after a file that does not end in a newline. -/
theorem addToStartup_extends_unended :
    '\r' ∉ "/opt".toList ∧ ((addToStartup "/opt").run unendedHome).1 = .ok ["/root/.bashrc"] ∧
      (addToStartup "/opt").run ((addToStartup "/opt").run unendedHome).2 =
        (.ok [], ((addToStartup "/opt").run unendedHome).2) := by
  have hd : '\r' ∉ "/opt".toList := by decide
  have hrun : ((addToStartup "/opt").run unendedHome).1 = .ok ["/root/.bashrc"] := by
    decide +kernel
  exact ⟨hd, hrun, (addToStartup_extends hd (Prod.ext hrun rfl)).2.2.2.2⟩

end Install

end ScriptLang
