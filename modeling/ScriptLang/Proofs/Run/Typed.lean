import ScriptLang.Prompt
import ScriptLang.Proofs.Run.Interpreter

/-!
# What is typed

Computations take what is typed from the front and add nothing to it. This is a discipline, so it
holds of all that programs do. With either line editor a prompt takes what is typed up to the next
line, interrupt or end, and replies with that. The editors do the same if no completions are asked
for.
-/

namespace ScriptLang

variable {α β : Type}

def Typed.isCompletion : Typed → Bool
  | .complete _ => true
  | _ => false

def replyTo : List Typed → PromptReply × List Typed
  | [] => (.ended, [])
  | .line s :: ts => (.line s, ts)
  | .interrupt :: ts => (.interrupted, ts)
  | .endOfInput :: ts => (.ended, ts)
  | .complete _ :: ts => replyTo ts

/-- A reply leaves an end of what is typed. -/
theorem replyTo_suffix (ts : List Typed) : (replyTo ts).2 <:+ ts := by
  fun_induction replyTo ts with
  | case1 => exact List.suffix_refl _
  | case2 | case3 | case4 => exact List.suffix_cons _ _
  | case5 _ _ ih => exact ih.trans (List.suffix_cons _ _)

/-- Every reply takes something, but for the one that nothing more comes. -/
theorem length_replyTo_lt {ts : List Typed} (h : (replyTo ts).1 ≠ .ended) :
    (replyTo ts).2.length < ts.length := by
  fun_induction replyTo ts with
  | case1 | case4 => exact absurd rfl h
  | case2 | case3 => exact Nat.lt_succ_self _
  | case5 _ _ ih => exact Nat.lt_succ_of_lt (ih h)

namespace Exec

/-- Whatever the outcome, what is typed afterwards is the rest of what was typed before. -/
def TakesTyped (x : Exec α) : Prop := ∀ m, (x.run m).2.typed <:+ m.typed

namespace TakesTyped

theorem pure (a : α) : TakesTyped (pure a : Exec α) := fun _ => List.suffix_refl _

theorem throw (s : Signal) : TakesTyped (throw s : Exec α) := fun _ => List.suffix_refl _

theorem host (x : HostExec α) : TakesTyped (liftM x : Exec α) := fun _ => List.suffix_refl _

theorem modify {f : Machine → Machine} (hf : ∀ m, (f m).typed <:+ m.typed) :
    TakesTyped (modify f : Exec PUnit) := hf

theorem bind {x : Exec α} {f : α → Exec β} (hx : TakesTyped x) (hf : ∀ a, TakesTyped (f a)) :
    TakesTyped (x >>= f) := by
  intro m
  have hm := hx m
  rw [run_bind]
  rcases hrun : x.run m with ⟨s | a, m'⟩ <;> rw [hrun] at hm
  · exact hm
  · exact (hf a m').trans hm

theorem tryCatch {x : Exec α} {f : Signal → Exec α} (hx : TakesTyped x)
    (hf : ∀ s, TakesTyped (f s)) : TakesTyped (tryCatch x f : Exec α) := by
  intro m
  have hm := hx m
  rw [run_tryCatch]
  rcases hrun : x.run m with ⟨s | a, m'⟩ <;> rw [hrun] at hm
  · exact (hf s m').trans hm
  · exact hm

theorem inBlock (e : ScopeId) {x : Exec α} (hx : TakesTyped x) : TakesTyped (inBlock e x) :=
  fun m => hx { m with scopes := m.scopes.pushBlock e }

theorem assignName (e : ScopeId) (name : String) (v : Value) :
    TakesTyped (assignName e name v) := by
  have hassign : TakesTyped (modifyScopes fun ss => ss.assign e name v) :=
    .modify fun _ => List.suffix_refl _
  refine .bind (fun _ => List.suffix_refl _) fun m => ?_
  dsimp only
  split
  · exact .bind (.host _) fun _ => hassign
  · exact hassign

end TakesTyped

end Exec

def FreeDiscipline.taking : FreeDiscipline where
  Rel x _ := Exec.TakesTyped x
  pure := .pure
  get _ := List.suffix_refl _
  host := .host
  bind := .bind
  assignName := .assignName
  Allowed _ := True
  allowed _ := trivial
  throw _ := .throw _
  tryCatch hx hf _ := .tryCatch hx fun s => hf s trivial
  modifyScopes _ := .modify fun _ => List.suffix_refl _
  newScope _ _ := List.suffix_refl _
  inScope _ := .modify fun _ => List.suffix_refl _
  inBlock e _ _ := .inBlock e
  setRoot _ := .modify fun _ => List.suffix_refl _
  passTyped := .modify fun m => m.typed.tail_suffix
  allows _ := trivial
  newCode _ _ := List.suffix_refl _

namespace Exec

/-- A program takes what is typed from the front. -/
theorem takesTyped_interpretText (code : String) : TakesTyped (interpretText code) := by
  have hcalls : FreeDiscipline.taking.GovernsCalls applyFull applyFull := fun _ _ hg _ =>
    FreeDiscipline.rel_applyFull hg (fun _ _ => trivial)
      fun _ _ => ⟨.modify fun _ => List.suffix_refl _, .modify fun _ => List.suffix_refl _⟩
  exact .bind (.host _) fun _ => rel_interpretAll fun s _ =>
    (hcalls.governsAll Engine.depthBound).execute s

theorem takesTyped_showValue (code : String) : TakesTyped (showValue code) := by
  refine .bind (takesTyped_interpretText code) fun v => ?_
  split
  · exact .pure _
  · exact .bind (.host _) fun s => .host _

/-! ### Prompts -/

theorem run_fail (f : Failure) (m : Machine) : ∃ v m',
    (liftM (fail f : HostExec α) : Exec α).run m = (.error (.raised v), m') ∧
      m'.typed = m.typed :=
  ⟨_, _, rfl, rfl⟩

def Replies : Except Signal String → PromptReply → Prop
  | .ok s, reply => reply = .line s
  | .error .interrupted, reply => reply = .interrupted
  | .error (.raised _), reply => reply = .ended
  | .error _, _ => False

/-- A line, an interrupt or the end is taken, as what is typed has it. -/
theorem run_takeTyped (editor : Editor) (m : Machine) : ∃ r m',
    (takeTyped editor m.typed).run m = (r, m') ∧ Replies r (replyTo m.typed).1 ∧
      m'.typed = (replyTo m.typed).2 := by
  generalize hts : m.typed = ts
  induction ts generalizing m with
  | nil =>
    obtain ⟨v, m', hrun, htyped⟩ := run_fail (α := String) (.other .endOfInput "") m
    exact ⟨_, m', hrun, rfl, htyped.trans hts⟩
  | cons t ts ih =>
    -- The machine after what comes first has been passed over.
    have htail : ({ m with typed := m.typed.tail } : Machine).typed = ts := by rw [hts]; rfl
    cases t with
    | line s => exact ⟨.ok s, _, rfl, rfl, htail⟩
    | interrupt => exact ⟨.error .interrupted, _, rfl, rfl, htail⟩
    | endOfInput =>
      obtain ⟨v, m', hrun, htyped⟩ := run_fail (α := String) (.other .endOfInput "")
        { m with typed := m.typed.tail }
      exact ⟨_, m', hrun, rfl, htyped.trans htail⟩
    | complete s =>
      let shown : Exec Unit := do
        passTyped
        emit (.completions (← completions editor s))
      have hrun : (takeTyped editor (.complete s :: ts)).run m =
          (takeTyped editor ts).run (shown.run m).2 := rfl
      obtain ⟨r, m', hr, hrest⟩ := ih (shown.run m).2 htail
      exact ⟨r, m', hrun.trans hr, hrest⟩

/-- A second guard makes no difference. -/
theorem replying_replying (x : Exec PromptReply) : replying (replying x) = replying x := by
  refine funext fun m => ?_
  change (replying (replying x)).run m = (replying x).run m
  unfold replying
  rw [run_tryCatch, run_tryCatch]
  rcases x.run m with ⟨s | reply, m'⟩
  · cases s <;> rfl
  · rfl

/-- Guarding the editor twice does what guarding it once does. -/
theorem promptReply_eq (editor : Editor) (prompt : String) :
    promptReply editor prompt = replying (PromptReply.line <$> promptLine editor prompt) := by
  cases editor with
  | menu => rfl
  | cycle => exact replying_replying _

/-- A prompt gives the reply to what is typed. -/
theorem run_promptReply (editor : Editor) (prompt : String) (m : Machine) : ∃ m',
    (promptReply editor prompt).run m = (.ok (replyTo m.typed).1, m') ∧
      m'.typed = (replyTo m.typed).2 := by
  obtain ⟨r, m', hrun, hr, htyped⟩ :=
    run_takeTyped editor { m with world := m.world.emit (.prompt prompt) }
  have hline : (promptLine editor prompt).run m = (r, m') := hrun
  have hreply : Replies r (replyTo m.typed).1 := hr
  refine ⟨m', ?_, htyped⟩
  rw [promptReply_eq, map_eq_pure_bind, replying]
  simp only [run_tryCatch, run_bind, hline]
  generalize (replyTo m.typed).1 = reply at hreply ⊢
  rcases r with s | s
  · cases s with
    | interrupted | raised => cases hreply; rfl
    | _ => cases hreply
  · cases hreply
    rfl

/-- A reply is what was typed next. -/
theorem run_promptReply_eq_ok {editor : Editor} {prompt : String} {reply : PromptReply}
    {m m' : Machine} (h : (promptReply editor prompt).run m = (.ok reply, m')) :
    reply = (replyTo m.typed).1 ∧ m'.typed = (replyTo m.typed).2 := by
  obtain ⟨_, hrun, htyped⟩ := run_promptReply editor prompt m
  obtain ⟨hreply, rfl⟩ := Prod.mk.inj (h.symm.trans hrun)
  exact ⟨Except.ok.inj hreply, htyped⟩

/-- Without completions the line editors are alike. -/
theorem run_promptReply_congr (editor other : Editor) (prompt : String) {m : Machine}
    (h : ∀ t ∈ m.typed, t.isCompletion = false) :
    (promptReply editor prompt).run m = (promptReply other prompt).run m := by
  have htake : takeTyped editor m.typed = takeTyped other m.typed := by
    rcases hts : m.typed with _ | ⟨t, ts⟩
    · rfl
    · have ht := h t (hts ▸ List.mem_cons_self)
      cases t with
      | complete s => cases ht
      | _ => rfl
  have hline : (promptLine editor prompt).run m = (promptLine other prompt).run m :=
    congrArg (·.run { m with world := m.world.emit (.prompt prompt) }) htake
  rw [promptReply_eq, promptReply_eq]
  simp only [replying, run_tryCatch, map_eq_pure_bind, run_bind, hline]

end Exec

end ScriptLang
