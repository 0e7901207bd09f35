import ScriptLang.Install.Run
import ScriptLang.Proofs.Install.Startup

/-!
# Installing without reports

The steps of an installation do not look at what was shown. So an installation does the same
whoever is told about it: it fetches a program, puts it in place and registers its directory.
-/

namespace ScriptLang.Install

variable {α β : Type} {a : Audience} {o : Order} {r : Release} {w w' : World} {d : String}

/-! ### Tasks that do not look at what was shown -/

def Quiet (t : Task α) : Prop :=
  ∀ w events, t.run (w.withEvents events) = ((t.run w).1, (t.run w).2.withEvents events)

namespace Quiet

theorem pure (x : α) : Quiet (pure x) := fun _ _ => rfl

theorem bind {t : Task α} {g : α → Task β} (ht : Quiet t) (hg : ∀ x, Quiet (g x)) :
    Quiet (t >>= g) := by
  intro w events
  rw [run_bind_state, run_bind_state, ht w events]
  rcases t.run w with ⟨_ | x, w'⟩
  · rfl
  · exact hg x w' events

theorem map (f : α → β) {t : Task α} (ht : Quiet t) : Quiet (f <$> t) := by
  rw [map_eq_pure_bind]
  exact ht.bind fun x => pure (f x)

theorem getWorld {g : World → Task α} (h : ∀ w events, g (w.withEvents events) = g w)
    (hg : ∀ w, Quiet (g w)) : Quiet (do g (← get)) := by
  intro w events
  have hrun (w : World) : (do g (← get) : Task α).run w = (g w).run w := rfl
  rw [hrun, hrun, h w events, hg w w events]

theorem change {f : World → Except Failure World} (h : World.Silent f) : Quiet (change f) := by
  intro w events
  rw [run_change, run_change, h w events]
  cases f w <;> rfl

end Quiet

@[simp] theorem system_withEvents (w : World) (events : List Event) :
    (w.withEvents events).system = w.system := rfl

@[simp] theorem machine_withEvents (w : World) (events : List Event) :
    (w.withEvents events).machine = w.machine := rfl

@[simp] theorem mentions_withEvents (w : World) (events : List Event) :
    mentions (w.withEvents events) = mentions w := by
  funext p d
  delta mentions
  rw [World.contentsOf?_withEvents]

@[simp] theorem home_withEvents (w : World) (events : List Event) :
    home (w.withEvents events) = home w := rfl

@[simp] theorem shellName_withEvents (w : World) (events : List Event) :
    shellName (w.withEvents events) = shellName w := rfl

theorem quiet_addToEach (d : String) (paths : List String) : Quiet (addToEach d paths) := by
  induction paths with
  | nil => exact .pure []
  | cons p rest ih =>
    refine .getWorld (fun w events => by rw [World.has_withEvents, mentions_withEvents]) fun w => ?_
    split
    · exact .bind (.change (World.silent_extendFile p _)) fun _ => .map _ ih
    · exact ih

theorem quiet_addToStartup (d : String) : Quiet (addToStartup d) := by
  refine .getWorld (fun w events => ?_) fun w => ?_
  · rw [home_withEvents, shellName_withEvents, mentions_withEvents, World.has_withEvents]
  dsimp only
  split
  · exact .pure []
  split
  · exact quiet_addToEach d _
  · refine .bind (.change (World.silent_makeDirectories _)) fun _ => ?_
    exact .bind (.change (World.silent_extendFile _ _)) fun _ => .pure _

theorem quiet_addToPath (d : String) : Quiet (addToPath d) := by
  refine .getWorld (fun w events => by rw [system_withEvents]) fun w => ?_
  split
  · refine .bind (quiet_addToStartup d) fun changed => ?_
    split <;> exact .pure _
  · refine .bind (quiet_addToStartup d) fun changed => ?_
    split <;> exact .pure _
  · split <;> exact .pure _
  · exact .pure _

theorem silent_place (path binary : String) (bytes : List Nat) :
    World.Silent (place path binary bytes) := by
  intro w events
  have hput (p : String) : (w.withEvents events).putFile p bytes =
    (w.putFile p bytes).map (·.withEvents events) := World.silent_putFile p bytes w events
  unfold place
  rw [World.files_withEvents, World.resolve_withEvents, hput, hput]
  split
  · rfl
  · cases w.putFile path bytes with
    | error e => rfl
    | ok w' =>
      simp only [Except.map, bind, Except.bind]
      rw [World.files_withEvents, World.resolve_withEvents]
      simp only [World.withEvents]

/-! ### Installing without reports -/

/-- A computation that does what a task does, and may tell about it. -/
def Reports (x : Step α) (t : Task α) : Prop :=
  ∀ s w events, s.world = w.withEvents events →
    (x.run s).1 = (t.run w).1 ∧ ∃ events', (x.run s).2.world = (t.run w).2.withEvents events'

namespace Reports

theorem pure (x : α) : Reports (pure x) (pure x) := fun _ _ events h => ⟨rfl, events, h⟩

/-- The steps that tell are taken out one by one, part after part. -/
theorem bind {x : Step α} {t : Task α} {f : α → Step β} {g : α → Task β} (hx : Reports x t)
    (hf : ∀ y, Reports (f y) (g y)) : Reports (x >>= f) (t >>= g) := by
  intro s w events hs
  obtain ⟨hsame, events', hworld⟩ := hx s w events hs
  rw [run_bind_state, run_bind_state]
  rcases hxs : x.run s with ⟨_ | y, s'⟩ <;> rcases htw : t.run w with ⟨_ | y', w'⟩ <;>
    rw [hxs, htw] at hsame hworld <;> cases hsame
  · exact ⟨rfl, events', hworld⟩
  · exact hf y s' w' events' hworld

/-- What only tells something, or works something out, goes before a task. -/
theorem after {x : Step α} {y : α} {f : α → Step β} {t : Task β} (hx : Reports x (Pure.pure y))
    (hf : Reports (f y) t) : Reports (x >>= f) t := by
  intro s w events hs
  obtain ⟨hsame, events', hworld⟩ := hx s w events hs
  rw [run_bind_state]
  rcases hxs : x.run s with ⟨_ | _, s'⟩ <;> rw [hxs] at hsame hworld <;> cases hsame
  exact hf s' w events' hworld

theorem get {f : State → Step α} {g : World → Task α}
    (h : ∀ s w events, s.world = w.withEvents events → Reports (f s) (g w)) :
    Reports (get >>= f) (get >>= g) :=
  fun s w events hs => h s w events hs s w events hs

theorem ofExcept (e : Except Failure α) : Reports (ofExcept e) (liftM e) := by
  intro s w events hs
  cases e <;> exact ⟨rfl, events, hs⟩

theorem onWorld {t : Task α} (h : Quiet t) : Reports (onWorld t) t := by
  intro s w events hs
  have hrun : (Install.onWorld t).run s =
      ((t.run s.world).1, { s with world := (t.run s.world).2 }) := rfl
  rw [hrun, hs, h w events]
  exact ⟨rfl, events, rfl⟩

/-- A change of the state that leaves all but what is told alone. -/
theorem modify {f : State → State} (hf : ∀ s, ∃ events, (f s).world = s.world.withEvents events) :
    Reports (modify f) (Pure.pure ()) := by
  intro s w events hs
  obtain ⟨events', hworld⟩ := hf s
  rw [hs] at hworld
  exact ⟨rfl, events', hworld⟩

theorem printLine (text : String) : Reports (printLine text) (Pure.pure ()) :=
  modify fun _ => ⟨_, rfl⟩

theorem tell (a : Audience) (o : Order) (text : String) :
    Reports (tell a o text) (Pure.pure ()) := by
  have hverbose : Reports (if o.isVerbose then Install.printLine text else Pure.pure ())
      (Pure.pure ()) := by
    split
    · exact printLine text
    · exact pure ()
  cases a with
  | nobody => exact hverbose
  | recorder => exact after (modify fun s => ⟨s.world.events, rfl⟩) hverbose
  | terminal => exact after (printLine text) hverbose

theorem reach (a : Audience) (percent : Int) : Reports (reach a percent) (Pure.pure ()) := by
  cases a with
  | nobody => exact pure ()
  | recorder => exact modify fun s => ⟨s.world.events, rfl⟩
  | terminal => exact pure ()

/-- The pieces of a body make up the body. -/
theorem receive (a : Audience) (total : Option Int) (got : List Nat) (pieces : List (List Nat)) :
    Reports (receive a total got pieces) (Pure.pure (got ++ pieces.flatten)) := by
  induction pieces generalizing got with
  | nil => simpa [Install.receive] using pure got
  | cons piece pieces ih =>
    rw [Install.receive]
    split
    · rename_i hempty
      rw [List.flatten_cons, List.isEmpty_iff.1 hempty, List.nil_append]
      exact ih got
    · rw [List.flatten_cons, ← List.append_assoc]
      dsimp only
      split
      · exact after (reach a _) (ih (got ++ piece))
      · exact ih (got ++ piece)

theorem clearQuarantine (path : String) :
    Reports (Install.onWorld (clearQuarantine path)) (Pure.pure ()) :=
  modify fun _ => ⟨_, rfl⟩

end Reports

def register (o : Order) : Task Unit := do
  if o.addsToPath then
    let _ ← addToPath o.directory

/-- What is told while a directory is registered has no part in the outcome. -/
theorem reports_register (a : Audience) (o : Order) (result : Result) :
    Reports (do
      if o.addsToPath then
        tell a o "Adding install directory to PATH for future sessions…"
        let outcome ← onWorld (addToPath o.directory)
        tell a o outcome
      reach a 100
      pure result) (do register o; pure result) := by
  unfold register
  split
  · rw [bind_assoc]
    refine .after (.tell a o _) (.bind (.onWorld (quiet_addToPath _)) fun outcome => ?_)
    exact .after (.tell a o _) (.after (.reach a _) (.pure result))
  · exact .after (.reach a _) (.pure result)

def settle (o : Order) (r : Release) (program : List Nat) : Task Result := do
  change fun w => w.makeDirectories o.directory
  change (place (Path.join o.directory r.artifact.command) r.artifact.binary program)
  register o
  pure (.installed o.directory r.artifact.command)

def installSilently (o : Order) (r : Release) : Task Result := do
  let answer ← liftM (download (← get) r.address)
  let _ ← liftM (announced answer)
  let program ← liftM ((← get).tools.extract answer.pieces.flatten r.artifact.binary)
  settle o r program

/-- An installation does the same with nobody told. -/
theorem reports_installRelease (a : Audience) (o : Order) (r : Release) :
    Reports (installRelease a o r) (installSilently o r) := by
  unfold installRelease installSilently
  -- What is told falls away, and the steps that are left are matched one by one.
  refine .after (.tell a o _) (.after (.reach a _) ?_)
  refine .get fun s w events hs => ?_
  rw [hs]
  refine .bind (.ofExcept (download w r.address)) fun answer => ?_
  refine .bind (.ofExcept _) fun total => ?_
  refine .after (.receive a total [] answer.pieces) (.after (.tell a o _) (.after (.reach a _) ?_))
  refine .get fun s w events hs => ?_
  rw [hs]
  refine .bind (.ofExcept _) fun program => ?_
  refine .bind (.onWorld (.change (World.silent_makeDirectories _))) fun _ => ?_
  refine .after (.tell a o _) (.bind (.onWorld (.change (silent_place _ _ _))) fun _ => ?_)
  refine .after (.reach a _) ?_
  have hregister := reports_register a o (.installed o.directory r.artifact.command)
  dsimp only
  split
  · exact .after (.tell a o _) (.after (.clearQuarantine _) (.after (.reach a _) hregister))
  · exact .after (.reach a _) hregister

def stepsSilently (o : Order) : Task Result := do
  let w ← get
  let tag ← liftM (orderedTag w o)
  if tag.isEmpty then
    pure (.failed "Could not resolve a release tag for the selected channel.")
  else
    match Release.of tag o.build w.system w.machine with
    | .error f => pure (.failed f.message)
    | .ok r => installSilently o r

/-- The same for all steps, from the choice of the tag on. -/
theorem reports_steps (a : Audience) (o : Order) : Reports (steps a o) (stepsSilently o) := by
  unfold steps stepsSilently
  refine .after (.reach a _) (.after (.tell a o _) (.get fun s w events hs => ?_))
  rw [hs]
  refine .bind (.ofExcept (orderedTag w o)) fun tag => ?_
  split
  · exact .pure _
  · rw [system_withEvents, machine_withEvents]
    cases Release.of tag o.build w.system w.machine with
    | error f => exact .pure _
    | ok r => exact reports_installRelease a o r

theorem run_get (w : World) : (get : Task World).run w = (.ok w, w) := rfl

theorem run_lift (e : Except Failure α) (w : World) : (liftM e : Task α).run w = (e, w) := rfl

def fetchProgram (w : World) (r : Release) : Except Failure (List Nat) := do
  let answer ← download w r.address
  let _ ← announced answer
  w.tools.extract answer.pieces.flatten r.artifact.binary

/-- An installation fails without a change until its program is fetched. -/
theorem run_installSilently (o : Order) (r : Release) (w : World) :
    (installSilently o r).run w = match fetchProgram w r with
      | .error f => (.error f, w)
      | .ok program => (settle o r program).run w := by
  unfold installSilently fetchProgram
  simp only [run_bind_state, run_get, run_lift]
  cases download w r.address with
  | error f => rfl
  | ok answer =>
    dsimp only [bind, Except.bind]
    cases announced answer with
    | error f => rfl
    | ok total =>
      dsimp only
      cases w.tools.extract answer.pieces.flatten r.artifact.binary <;> rfl

/-- The release that an order asks for and its program, if they can be had. -/
def fetch? (w : World) (o : Order) : Option (Release × List Nat) := do
  let tag ← (orderedTag w o).toOption
  if tag.isEmpty then none
  else
    let r ← (Release.of tag o.build w.system w.machine).toOption
    let program ← (fetchProgram w r).toOption
    some (r, program)

/-- Without a program an installation fails and changes nothing; else the program is put in place
and registered. -/
theorem run_stepsSilently (o : Order) (w : World) :
    (∃ r program, fetch? w o = some (r, program) ∧
      (stepsSilently o).run w = (settle o r program).run w) ∨
    fetch? w o = none ∧ ∃ ending, (stepsSilently o).run w = (ending, w) ∧
      ((∃ reason, ending = .ok (.failed reason)) ∨ ∃ f, ending = .error f) := by
  unfold stepsSilently fetch?
  simp only [run_bind_state, run_get, run_lift, Option.bind_eq_bind]
  cases orderedTag w o with
  | error f => exact .inr ⟨rfl, _, rfl, .inr ⟨f, rfl⟩⟩
  | ok tag =>
    by_cases htag : tag.isEmpty
    · simp only [Except.toOption, Option.bind_some, htag, if_true]
      exact .inr ⟨trivial, _, rfl, .inl ⟨_, rfl⟩⟩
    · simp only [Except.toOption, Option.bind_some, htag, Bool.false_eq_true, if_false]
      cases hrelease : Release.of tag o.build w.system w.machine with
      | error f => exact .inr ⟨rfl, _, rfl, .inl ⟨_, rfl⟩⟩
      | ok r =>
        dsimp only [Option.bind_some]
        rw [run_installSilently]
        cases fetchProgram w r with
        | error f => exact .inr ⟨rfl, _, rfl, .inr ⟨f, rfl⟩⟩
        | ok program => exact .inl ⟨r, program, rfl, rfl⟩

end ScriptLang.Install
