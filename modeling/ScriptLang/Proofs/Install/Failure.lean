import ScriptLang.Archive
import ScriptLang.Proofs.Files.Path
import ScriptLang.Proofs.Install.Silent

/-!
# What a failed installation leaves behind

Before the program is in place an installation changes no contents of files. A failure after that
leaves the program where it is, with start-up files extended as far as the registration got.
-/

namespace ScriptLang.Install

variable {o : Order} {r : Release} {program : List Nat} {w w' w₁ : World}

/-! ### Names of programs -/

theorem Target.mem_of_ofHost {system machine : String} {t : Target}
    (h : Target.ofHost system machine = .ok t) :
    t.system ∈ ["macos", "linux", "windows"] ∧ t.processor ∈ ["amd64", "arm64"] := by
  unfold Target.ofHost at h
  dsimp only [bind, Except.bind] at h
  split at h
  case h_5 => cases h
  all_goals
    split at h
    case h_4 => cases h
    all_goals
      obtain rfl := Except.ok.inj h
      decide

def IsProgramName (n : String) : Prop := Path.IsName n ∧ n ∉ startupNames

instance (n : String) : Decidable (IsProgramName n) :=
  inferInstanceAs (Decidable (Path.IsName n ∧ n ∉ startupNames))

/-- Only the build with an ending of its own makes a difference to the names. -/
theorem Artifact.exists_of_eq (system processor build : String) :
    ∃ build' ∈ ["nuitka", ""], Artifact.of system processor build =
      Artifact.of system processor build' := by
  by_cases h : build = "nuitka"
  · exact ⟨"nuitka", by decide, by rw [h]⟩
  · exact ⟨"", by decide, by simp [Artifact.of, h]⟩

/-- The programs of a release have names that are given to no start-up file. -/
theorem isProgramName_of {tag build system machine : String}
    (h : Release.of tag build system machine = .ok r) :
    IsProgramName r.artifact.command ∧ IsProgramName r.artifact.binary := by
  have hall : ∀ system ∈ ["macos", "linux", "windows"], ∀ processor ∈ ["amd64", "arm64"],
      ∀ build ∈ ["nuitka", ""], IsProgramName (Artifact.of system processor build).command ∧
        IsProgramName (Artifact.of system processor build).binary := by decide +kernel
  unfold Release.of at h
  cases htarget : Target.ofHost system machine with
  | error f => rw [htarget] at h; cases h
  | ok t =>
    rw [htarget] at h
    obtain rfl := Except.ok.inj h
    obtain ⟨hsystem, hprocessor⟩ := Target.mem_of_ofHost htarget
    obtain ⟨build', hbuild, hartifact⟩ := Artifact.exists_of_eq t.system t.processor build
    dsimp only
    rw [hartifact]
    exact hall t.system hsystem t.processor hprocessor build' hbuild

/-! ### Contents of files -/

/-- Makes the directory of an order and puts a program into its place there. -/
def put (o : Order) (r : Release) (program : List Nat) (w : World) : Except Failure World := do
  let w ← w.makeDirectories o.directory
  place (Path.join o.directory r.artifact.command) r.artifact.binary program w

theorem put_of_ok (h : w.makeDirectories o.directory = .ok w₁) : put o r program w =
    place (Path.join o.directory r.artifact.command) r.artifact.binary program w₁ := by
  rw [put, h]
  dsimp only [bind, Except.bind]

theorem put_of_error {f : Failure} (h : w.makeDirectories o.directory = .error f) :
    put o r program w = .error f := by
  rw [put, h]
  rfl

/-- Putting a program in its place changes one file, at the path or in a directory there. -/
theorem bytes?_place {path binary : String} (h : place path binary program w = .ok w') :
    ∃ p, (p = path ∨ p = Path.join path binary) ∧ w' = { w with files := w'.files } ∧
      ∀ q, w'.files.bytes? q = if w.resolve p = q then some program else w.files.bytes? q := by
  unfold place at h
  split at h
  · obtain ⟨-, hw⟩ := World.putFile_eq_ok h
    exact ⟨_, .inr rfl, by rw [hw], World.bytes?_putFile h⟩
  · cases hput : w.putFile path program with
    | error f => rw [hput] at h; cases h
    | ok w₁ =>
      rw [hput] at h
      obtain rfl := Except.ok.inj h
      obtain ⟨-, hw⟩ := World.putFile_eq_ok hput
      refine ⟨_, .inl rfl, by rw [hw], fun q => ?_⟩
      rw [Files.bytes?_setMode, World.bytes?_putFile hput]

/-- Putting a program in place changes the contents of one file, which has the name of a program. -/
theorem exists_bytes?_put (hr : IsProgramName r.artifact.command ∧ IsProgramName r.artifact.binary)
    (h : put o r program w = .ok w') :
    ∃ base n, IsProgramName n ∧ w' = { w with files := w'.files } ∧
      ∀ q, w'.files.bytes? q =
        if w.resolve (Path.join base n) = q then some program else w.files.bytes? q := by
  cases hdirectories : w.makeDirectories o.directory with
  | error f => rw [put_of_error hdirectories] at h; cases h
  | ok w₁ =>
    rw [put_of_ok hdirectories] at h
    have hkeeps := World.makeDirectories_keepsContents hdirectories
    have hresolve (p : String) : w₁.resolve p = w.resolve p := by
      rw [hkeeps.rest]
      rfl
    obtain ⟨p, hp, hrest, hbytes⟩ := bytes?_place h
    simp only [hresolve, hkeeps.bytes?] at hbytes
    have hworld : w' = { w with files := w'.files } := by rw [hrest, hkeeps.rest]
    rcases hp with rfl | rfl
    · exact ⟨_, _, hr.1, hworld, hbytes⟩
    · exact ⟨_, _, hr.2, hworld, hbytes⟩

/-- Settling is putting the program in place and then registering, unless the first fails, which
changes no contents. -/
theorem run_settle (o : Order) (r : Release) (program : List Nat) (w : World) :
    (∃ w₁, put o r program w = .ok w₁ ∧ (settle o r program).run w =
      (do register o; pure (.installed o.directory r.artifact.command) : Task Result).run w₁) ∨
    ∃ f w₁, put o r program w = .error f ∧ World.KeepsContents w w₁ ∧
      (settle o r program).run w = (.error f, w₁) := by
  unfold settle
  rw [run_bind_state, run_change]
  cases hdirectories : w.makeDirectories o.directory with
  | error f => exact .inr ⟨f, w, put_of_error hdirectories, .refl w, rfl⟩
  | ok w₁ =>
    have hkeeps := World.makeDirectories_keepsContents hdirectories
    rw [put_of_ok hdirectories]
    dsimp only
    rw [run_bind_state, run_change]
    cases place (Path.join o.directory r.artifact.command) r.artifact.binary program w₁ with
    | error f => exact .inr ⟨f, w₁, rfl, hkeeps, rfl⟩
    | ok w₂ => exact .inl ⟨w₂, rfl, rfl⟩

theorem run_bind_snd {α β : Type} {t : Task α} {f : α → Task β}
    (hf : ∀ x w, ((f x).run w).2 = w) : ((t >>= f).run w).2 = (t.run w).2 := by
  rw [run_bind_state]
  rcases t.run w with ⟨_ | x, w'⟩
  · rfl
  · exact hf x w'

/-- A system without start-up files is not changed. -/
theorem run_addToPath_snd (d : String) (w : World) :
    ((addToPath d).run w).2 = w ∨ ((addToPath d).run w).2 = ((addToStartup d).run w).2 := by
  rw [addToPath, run_bind_state, run_get]
  dsimp only
  split
  · refine .inr (run_bind_snd fun changed w => ?_)
    split <;> rfl
  · refine .inr (run_bind_snd fun changed w => ?_)
    split <;> rfl
  · left
    split <;> rfl
  · exact .inl rfl

/-- However far it gets, registering only extends start-up files. -/
theorem registered_register (o : Order) (w : World) :
    ∃ changed ⊆ startupPaths w, Registered o.directory w ((register o).run w).2 changed := by
  have hnone : ∃ changed ⊆ startupPaths w, Registered o.directory w w changed :=
    ⟨[], List.nil_subset _, .of_keepsContents (.refl w)⟩
  have hstartup : ∃ changed ⊆ startupPaths w,
      Registered o.directory w ((addToStartup o.directory).run w).2 changed := by
    obtain ⟨changed, hsubset, hregistered, -⟩ := registered_addToStartup o.directory w
    exact ⟨changed, hsubset, hregistered⟩
  unfold register
  split
  · rw [run_bind_snd fun _ _ => rfl]
    rcases run_addToPath_snd o.directory w with h | h <;> rw [h]
    · exact hnone
    · exact hstartup
  · exact hnone

/-- What was fetched for an order is a program that can be installed. -/
theorem isProgramName_of_fetch? (h : fetch? w o = some (r, program)) :
    IsProgramName r.artifact.command ∧ IsProgramName r.artifact.binary := by
  unfold fetch? at h
  simp only [Option.bind_eq_bind, Option.bind_eq_some_iff] at h
  obtain ⟨tag, -, h⟩ := h
  by_cases htag : tag.isEmpty
  · rw [if_pos htag] at h
    cases h
  rw [if_neg htag] at h
  obtain ⟨r', hr', h⟩ := Option.bind_eq_some_iff.1 h
  obtain ⟨program', -, h⟩ := Option.bind_eq_some_iff.1 h
  cases h
  cases hrelease : Release.of tag o.build w.system w.machine with
  | error f => rw [hrelease] at hr'; cases hr'
  | ok r' =>
    rw [hrelease] at hr'
    cases hr'
    exact isProgramName_of hrelease

/-- No start-up file has the name of a program. -/
theorem resolve_startup_ne {p n : String} (hp : p ∈ startupPaths w) (hn : IsProgramName n)
    (base : String) : w.resolve p ≠ w.resolve (Path.join base n) := by
  obtain ⟨m, hm, rfl⟩ := List.mem_map.1 hp
  have hnames : ∀ m ∈ startupNames, Path.IsName m := by decide +kernel
  exact Path.resolve_join_ne (hnames m hm) hn.1 (fun h => hn.2 (h ▸ hm)) _ _ _

/-- An installation ends as its steps do with nobody told. -/
theorem exists_install_eq (a : Audience) (o : Order) (s : State) :
    (install a o s).1 = (match ((stepsSilently o).run s.world).1 with
      | .ok result => result
      | .error f => .ofFailure f) ∧
    ∃ events, (install a o s).2.world = ((stepsSilently o).run s.world).2.withEvents events := by
  obtain ⟨hending, events, hworld⟩ := reports_steps a o s s.world s.world.events rfl
  rw [← hending]
  unfold install
  rcases hrun : (steps a o).run s with ⟨_ | _, s'⟩ <;> rw [hrun] at hworld <;>
    exact ⟨rfl, events, hworld⟩

def Result.IsFailed (result : Result) : Prop := ∃ reason, result = .failed reason

theorem isFailed_ofFailure (f : Failure) : (Result.ofFailure f).IsFailed := by
  unfold Result.ofFailure
  split <;> exact ⟨_, rfl⟩

/-- An installation that cannot put a program in place fails and changes no contents. -/
theorem install_of_not_put {a : Audience} {s : State}
    (h : ¬ ∃ r program w, fetch? s.world o = some (r, program) ∧ put o r program s.world = .ok w) :
    (install a o s).1.IsFailed ∧
      ∀ q, (install a o s).2.world.files.bytes? q = s.world.files.bytes? q := by
  obtain ⟨hresult, events, hworld⟩ := exists_install_eq a o s
  rw [hresult, hworld, World.files_withEvents]
  rcases run_stepsSilently o s.world with ⟨r, program, hfetch, hrun⟩ | ⟨-, ending, hrun, hending⟩
  · rw [hrun]
    rcases run_settle o r program s.world with ⟨w, hput, -⟩ | ⟨f, w, -, hkeeps, hsettle⟩
    · exact absurd ⟨r, program, w, hfetch, hput⟩ h
    · rw [hsettle]
      exact ⟨isFailed_ofFailure f, hkeeps.bytes?⟩
  · rw [hrun]
    refine ⟨?_, fun q => rfl⟩
    rcases hending with ⟨reason, rfl⟩ | ⟨f, rfl⟩
    · exact ⟨reason, rfl⟩
    · exact isFailed_ofFailure f

/-- With the program in place, an installation ends as the registration does. -/
theorem install_of_put {a : Audience} {s : State} (hfetch : fetch? s.world o = some (r, program))
    (hput : put o r program s.world = .ok w) :
    (install a o s).1 = (match ((register o).run w).1 with
      | .ok () => .installed o.directory r.artifact.command
      | .error f => .ofFailure f) ∧
    (install a o s).2.world.files = ((register o).run w).2.files := by
  obtain ⟨hresult, events, hworld⟩ := exists_install_eq a o s
  have hsteps : (stepsSilently o).run s.world = (settle o r program).run s.world := by
    rcases run_stepsSilently o s.world with ⟨r', program', hfetch', hrun⟩ | ⟨hnone, -⟩
    · rw [hfetch] at hfetch'
      cases hfetch'
      exact hrun
    · rw [hfetch] at hnone
      cases hnone
  have hsettle : (settle o r program).run s.world =
      (do register o; pure (.installed o.directory r.artifact.command) : Task Result).run w := by
    rcases run_settle o r program s.world with ⟨w₁, hput', hrun⟩ | ⟨f, w₁, herror, -, -⟩
    · rw [hput] at hput'
      cases hput'
      exact hrun
    · rw [hput] at herror
      cases herror
  rw [hresult, hworld, World.files_withEvents, hsteps, hsettle, run_bind_state]
  rcases (register o).run w with ⟨_ | _, w'⟩ <;> exact ⟨rfl, rfl⟩

/-- The program is put into one file. Registering its directory leaves that file alone and only
adds to others. -/
theorem exists_target (hfetch : fetch? w o = some (r, program))
    (hput : put o r program w = .ok w₁) :
    ∃ target, (∀ q, w₁.files.bytes? q = if target = q then some program else w.files.bytes? q) ∧
      ((register o).run w₁).2.files.bytes? target = w₁.files.bytes? target ∧
      ∀ q, (w₁.files.bytes? q).getD [] <+: (((register o).run w₁).2.files.bytes? q).getD [] := by
  obtain ⟨base, n, hn, hrest, hplaced⟩ := exists_bytes?_put (isProgramName_of_fetch? hfetch) hput
  have hresolve (p : String) : w₁.resolve p = w.resolve p := by
    rw [hrest]
    rfl
  obtain ⟨changed, hsubset, hregistered⟩ := registered_register o w₁
  refine ⟨w.resolve (Path.join base n), hplaced, hregistered.others _ fun p hp => ?_,
    hregistered.prefix_bytes?⟩
  rw [← hresolve]
  exact resolve_startup_ne (hsubset hp) hn base

/-- What putting the program in its place changes, registering its directory does not undo. -/
theorem bytes?_register_ne_iff (hfetch : fetch? w o = some (r, program))
    (hput : put o r program w = .ok w₁) (q : String) :
    ((register o).run w₁).2.files.bytes? q ≠ w.files.bytes? q ↔
      w₁.files.bytes? q ≠ w.files.bytes? q ∨
        ((register o).run w₁).2.files.bytes? q ≠ w₁.files.bytes? q := by
  obtain ⟨target, hplaced, hkept, -⟩ := exists_target hfetch hput
  by_cases htarget : target = q
  · rw [← htarget, hkept]
    simp
  · have hsame := hplaced q
    rw [if_neg htarget] at hsame
    rw [hsame]
    simp

/-- An installation fails and leaves changed contents behind exactly if it has put a program in
place and cannot register its directory, unless the program was there before and no start-up file
was extended. Then the whole program is in its place, and all other files are at most extended. -/
theorem failed_install_changes_iff (a : Audience) (o : Order) (s : State) :
    (((install a o s).1.IsFailed ∧
        ∃ q, (install a o s).2.world.files.bytes? q ≠ s.world.files.bytes? q) ↔
      ∃ r program w f w', fetch? s.world o = some (r, program) ∧
        put o r program s.world = .ok w ∧ (register o).run w = (.error f, w') ∧
        ∃ q, w.files.bytes? q ≠ s.world.files.bytes? q ∨ w'.files.bytes? q ≠ w.files.bytes? q) ∧
    ∀ r program w f w', fetch? s.world o = some (r, program) → put o r program s.world = .ok w →
      (register o).run w = (.error f, w') → (install a o s).1 = .ofFailure f ∧
      ∃ target, (install a o s).2.world.files.bytes? target = some program ∧
        ∀ q ≠ target, (s.world.files.bytes? q).getD [] <+:
          ((install a o s).2.world.files.bytes? q).getD [] := by
  refine ⟨⟨?_, ?_⟩, ?_⟩
  · rintro ⟨hfailed, q, hq⟩
    by_cases hputs : ∃ r program w, fetch? s.world o = some (r, program) ∧
        put o r program s.world = .ok w
    · obtain ⟨r, program, w, hfetch, hput⟩ := hputs
      obtain ⟨hresult, hfiles⟩ := install_of_put (a := a) hfetch hput
      rw [hfiles, bytes?_register_ne_iff hfetch hput] at hq
      rcases hregister : (register o).run w with ⟨f | u, w'⟩ <;> rw [hregister] at hresult hq
      · exact ⟨r, program, w, f, w', hfetch, hput, hregister, q, hq⟩
      · -- With its directory registered the installation has not failed.
        obtain ⟨reason, hreason⟩ := hfailed
        rw [hresult] at hreason
        cases hreason
    · exact absurd ((install_of_not_put hputs).2 q) hq
  · rintro ⟨r, program, w, f, w', hfetch, hput, hregister, q, hq⟩
    obtain ⟨hresult, hfiles⟩ := install_of_put (a := a) hfetch hput
    have hchanged := bytes?_register_ne_iff hfetch hput q
    rw [hregister] at hresult hfiles hchanged
    refine ⟨hresult ▸ isFailed_ofFailure f, q, ?_⟩
    rw [hfiles]
    exact hchanged.2 hq
  · intro r program w f w' hfetch hput hregister
    obtain ⟨hresult, hfiles⟩ := install_of_put (a := a) hfetch hput
    obtain ⟨target, hplaced, hkept, hextended⟩ := exists_target hfetch hput
    rw [hregister] at hresult hfiles hkept hextended
    refine ⟨hresult, target, ?_, fun q hq => ?_⟩
    · rw [hfiles, hkept, hplaced, if_pos rfl]
    · have hsame := hplaced q
      rw [if_neg (Ne.symm hq)] at hsame
      rw [hfiles, ← hsame]
      exact hextended q

/-- An archive with a deflated program of one byte. -/
def smallArchive : List Nat :=
  [80, 75, 3, 4, 20, 0, 0, 0, 8, 0, 0, 0, 33, 0, 49, 207, 208, 74, 3, 0, 0, 0, 1, 0, 0, 0, 16, 0,
   0, 0, 89, 80, 83, 72, 45, 108, 105, 110, 117, 120, 45, 97, 109, 100, 54, 52, 115, 2, 0, 80, 75,
   1, 2, 20, 3, 20, 0, 0, 0, 8, 0, 0, 0, 33, 0, 49, 207, 208, 74, 3, 0, 0, 0, 1, 0, 0, 0, 16, 0, 0,
   0, 0, 0, 0, 0, 0, 0, 0, 0, 128, 1, 0, 0, 0, 0, 89, 80, 83, 72, 45, 108, 105, 110, 117, 120, 45,
   97, 109, 100, 54, 52, 80, 75, 5, 6, 0, 0, 0, 0, 1, 0, 1, 0, 62, 0, 0, 0, 49, 0, 0, 0, 0, 0]

/-- A home directory with a directory in the place of a start-up file, and a release. -/
def crowdedHome : World where
  environment := [("HOME", "/root")]
  files := [("/root", .directory), ("/root/.bash_profile", .file [0x61] 0o644),
    ("/root/.bashrc", .directory)]
  replies := [(releaseAddress ++ "/v1/YPSH-linux-amd64.zip", .response 200 smallArchive none none)]
  tools := { extract := Archive.extract }

def plainOrder : Order :=
  { directory := "/opt", channel := "custom", tag := some "v1", build := "pyinstaller" }

/-- The program and one start-up file are changed, then the other one cannot be written. -/
theorem failed_install_changes_crowded :
    let s : State := { world := crowdedHome }
    (install .nobody plainOrder s).2.world.files.bytes? "/opt/ypsh" = some [0x42] ∧
    ∃ r program w f w', fetch? s.world plainOrder = some (r, program) ∧
      put plainOrder r program s.world = .ok w ∧ (register plainOrder).run w = (.error f, w') ∧
      ∃ q, w.files.bytes? q ≠ s.world.files.bytes? q ∨ w'.files.bytes? q ≠ w.files.bytes? q := by
  intro s
  have hfailed : (install .nobody plainOrder s).1.IsFailed :=
    ⟨"Unhandled error: [Errno 21] Is a directory: '/root/.bashrc'", by decide +kernel⟩
  have hprogram : (install .nobody plainOrder s).2.world.files.bytes? "/opt/ypsh" =
      some [0x42] := by decide +kernel
  have hmissing : s.world.files.bytes? "/opt/ypsh" = none := by decide +kernel
  have hchanged : (install .nobody plainOrder s).2.world.files.bytes? "/opt/ypsh" ≠
      s.world.files.bytes? "/opt/ypsh" := by
    rw [hprogram, hmissing]
    exact Option.some_ne_none _
  exact ⟨hprogram, (failed_install_changes_iff .nobody plainOrder s).1.1 ⟨hfailed, _, hchanged⟩⟩

end ScriptLang.Install
