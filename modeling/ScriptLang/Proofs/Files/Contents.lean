import Mathlib.Tactic.SplitIfs
import ScriptLang.Directory

/-!
# The contents of files

What the operations on files do to the contents of each file. Making directories changes no
contents, and no operation looks at what was shown before.
-/

namespace ScriptLang

namespace Files

variable {fs : Files} {p : String}

/-- Setting an entry of a path other than the top changes what is found there, and nothing else. -/
theorem entry?_set (hp : p ≠ "/") (e : Entry) (q : String) :
    entry? (fs.set p e) q = if p = q then some e else fs.entry? q := by
  rw [ entry?, Table.get?_set]
  by_cases hq : q = "/"
  · simp [ entry?, hq, hp]
  · simp [ entry?, hq]

theorem ne_root_of_isDirectory (h : fs.isDirectory p = false) : p ≠ "/" := by
  rintro rfl
  simp [isDirectory, entry?] at h

/-- Writing a file changes the contents at its path only. -/
theorem bytes?_write (hp : p ≠ "/") (bytes : List Nat) (q : String) :
    (fs.write p bytes).bytes? q = if p = q then some bytes else fs.bytes? q := by
  have hentry : ∃ mode, fs.write p bytes = fs.set p (.file bytes mode) := by
    unfold write
    split <;> exact ⟨_, rfl⟩
  obtain ⟨mode, hwrite⟩ := hentry
  rw [hwrite, bytes?, entry?_set hp]
  split_ifs <;> rfl

/-- The mode of a file has no part in its contents. -/
theorem bytes?_setMode (mode : Nat) (q : String) : (fs.setMode p mode).bytes? q = fs.bytes? q := by
  unfold setMode
  split
  · rename_i bytes old hentry
    have hp : p ≠ "/" := by
      rintro rfl
      simp [ entry?] at hentry
    rw [bytes?, entry?_set hp]
    split_ifs with hq
    · rw [bytes?, ← hq, hentry]
    · rfl
  · rfl

/-- A directory where there was nothing is no file. -/
theorem bytes?_set_directory (h : fs.entry? p = none) (q : String) :
    bytes? (fs.set p .directory) q = fs.bytes? q := by
  have hp : p ≠ "/" := by
    rintro rfl
    simp [ entry?] at h
  rw [bytes?, entry?_set hp]
  split_ifs with hq
  · rw [bytes?, ← hq, h]
  · rfl

end Files

namespace World

variable {w w' w'' : World} {p : String}

/-- A file that was put is at a path other than the top, and nothing else about the surroundings is
different. -/
theorem putFile_eq_ok {bytes : List Nat} (h : w.putFile p bytes = .ok w') :
    w.resolve p ≠ "/" ∧ w' = { w with files := w.files.write (w.resolve p) bytes } := by
  rw [putFile] at h
  split at h
  · cases h
  split at h
  · cases h
  rename_i hdirectory
  split at h
  · exact ⟨Files.ne_root_of_isDirectory (eq_false_of_ne_true hdirectory),
      (Except.ok.inj h).symm⟩
  · cases h

/-- Putting a file changes the contents at its path only. -/
theorem bytes?_putFile {bytes : List Nat} (h : w.putFile p bytes = .ok w') (q : String) :
    w'.files.bytes? q = if w.resolve p = q then some bytes else w.files.bytes? q := by
  obtain ⟨hroot, hw⟩ := putFile_eq_ok h
  have hfiles : w'.files = w.files.write (w.resolve p) bytes := by rw [hw]
  rw [hfiles, Files.bytes?_write hroot]

/-- Only files are different, and none in its contents. -/
structure KeepsContents (w w' : World) : Prop where
  rest : w' = { w with files := w'.files }
  bytes? : ∀ q, w'.files.bytes? q = w.files.bytes? q

namespace KeepsContents

theorem refl (w : World) : KeepsContents w w := ⟨rfl, fun _ => rfl⟩

theorem trans (h : KeepsContents w w') (h' : KeepsContents w' w'') : KeepsContents w w'' :=
  ⟨by rw [h'.rest, h.rest], fun q => (h'.bytes? q).trans (h.bytes? q)⟩

end KeepsContents

/-- Making a directory changes the contents of no file. -/
theorem makeDirectory_keepsContents (h : w.makeDirectory p = .ok w') : KeepsContents w w' := by
  rw [makeDirectory] at h
  split at h
  · cases h
  split at h
  · obtain rfl := Except.ok.inj h
    exact .refl w
  rename_i hdirectory
  split at h
  · cases h
  rename_i hfile
  split at h
  case isFalse => cases h
  obtain rfl := Except.ok.inj h
  refine ⟨rfl, Files.bytes?_set_directory ?_⟩
  rcases hentry : w.files.entry? (w.resolve p) with _ | _ | _
  · rfl
  · simp [Files.isDirectory, hentry] at hdirectory
  · simp [Files.isFile, hentry] at hfile

/-- A path is cut once; whether the front is made first hangs on the files. -/
theorem exists_makeDirectoriesWithin_eq (depth : Nat) (p : String) :
    ∃ front last : String, ∀ w, makeDirectoriesWithin (depth + 1) w p =
      if !front.isEmpty && !last.isEmpty && !w.has front then do
        let w ← makeDirectoriesWithin depth w front
        if last == "." then .ok w else w.makeDirectory p
      else w.makeDirectory p := by
  by_cases h : (Path.cut p).2.isEmpty
  · refine ⟨(Path.cut (Path.cut p).1).1, (Path.cut (Path.cut p).1).2, fun w => ?_⟩
    simp only [makeDirectoriesWithin, h, if_true]
  · refine ⟨(Path.cut p).1, (Path.cut p).2, fun w => ?_⟩
    simp only [makeDirectoriesWithin, h, Bool.false_eq_true, if_false]

/-- By induction on the bound: each directory that is made on the way keeps all contents. -/
theorem makeDirectoriesWithin_keepsContents {depth : Nat}
    (h : makeDirectoriesWithin depth w p = .ok w') : KeepsContents w w' := by
  induction depth generalizing w' p with
  | zero => cases h
  | succ depth ih =>
    obtain ⟨front, last, hcut⟩ := exists_makeDirectoriesWithin_eq depth p
    rw [hcut] at h
    split at h
    · rcases hfront : makeDirectoriesWithin depth w front with f | w₁ <;> rw [hfront] at h
      · cases h
      · change (if last == "." then .ok w₁ else w₁.makeDirectory p) = _ at h
        split at h
        · cases h
          exact ih hfront
        · exact (ih hfront).trans (makeDirectory_keepsContents h)
    · exact makeDirectory_keepsContents h

theorem makeDirectories_keepsContents (h : w.makeDirectories p = .ok w') : KeepsContents w w' :=
  makeDirectoriesWithin_keepsContents h

/-! ### What was shown before -/

def withEvents (w : World) (events : List Event) : World := { w with events }

@[simp] theorem files_withEvents (w : World) (events : List Event) :
    (w.withEvents events).files = w.files := rfl

@[simp] theorem resolve_withEvents (w : World) (events : List Event) (p : String) :
    (w.withEvents events).resolve p = w.resolve p := rfl

@[simp] theorem has_withEvents (w : World) (events : List Event) :
    (w.withEvents events).has = w.has := rfl

@[simp] theorem contentsOf?_withEvents (w : World) (events : List Event) (p : String) :
    (w.withEvents events).contentsOf? p = w.contentsOf? p := by
  rw [contentsOf?, contentsOf?, files_withEvents, resolve_withEvents]

/-- A change of the surroundings that does not look at what was shown, and shows nothing. -/
def Silent (f : World → Except Failure World) : Prop :=
  ∀ w events, f (w.withEvents events) = (f w).map (·.withEvents events)

theorem silent_putFile (p : String) (bytes : List Nat) : Silent (putFile · p bytes) := by
  intro w events
  simp only [putFile, apply_ite (Except.map _), files_withEvents, resolve_withEvents]
  -- The tests are the same on both sides, but deciding whether they are would compare the files.
  refine ite_congr rfl (fun _ => rfl) fun _ => ?_
  refine ite_congr rfl (fun _ => rfl) fun _ => ?_
  refine ite_congr rfl (fun _ => ?_) fun _ => rfl
  simp only [Except.map, withEvents]

theorem silent_extendFile (p text : String) : Silent (extendFile · p text) := by
  intro w events
  simp only [extendFile, files_withEvents, resolve_withEvents]
  exact silent_putFile p _ w events

theorem silent_makeDirectory (p : String) : Silent (makeDirectory · p) := by
  intro w events
  simp only [makeDirectory, apply_ite (Except.map _)]
  refine ite_congr rfl (fun _ => rfl) fun _ => ?_
  refine ite_congr rfl (fun _ => rfl) fun _ => ?_
  refine ite_congr rfl (fun _ => rfl) fun _ => ?_
  exact ite_congr rfl (fun _ => rfl) fun _ => rfl

/-- By induction on the bound: directories are made alike, whatever was shown. -/
theorem silent_makeDirectoriesWithin (depth : Nat) (p : String) :
    Silent (makeDirectoriesWithin depth · p) := by
  induction depth generalizing p with
  | zero => exact fun _ _ => rfl
  | succ depth ih =>
    obtain ⟨front, last, hcut⟩ := exists_makeDirectoriesWithin_eq depth p
    intro w events
    have hhas : (w.withEvents events).has front = w.has front := rfl
    have hlast (w : World) : (w.withEvents events).makeDirectory p =
      (w.makeDirectory p).map (·.withEvents events) := silent_makeDirectory p w events
    simp only [hcut, hhas, ih front w events, hlast]
    split
    · rcases makeDirectoriesWithin depth w front with f | w₁
      · rfl
      · change (if last == "." then .ok (w₁.withEvents events) else _) =
          Except.map _ (if last == "." then .ok w₁ else w₁.makeDirectory p)
        rw [hlast, apply_ite (Except.map _)]
        rfl
    · rfl

theorem silent_makeDirectories (p : String) : Silent (makeDirectories · p) :=
  silent_makeDirectoriesWithin _ p

end World

end ScriptLang
