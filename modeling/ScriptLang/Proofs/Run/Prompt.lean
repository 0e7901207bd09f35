import Mathlib.Data.List.DropRight
import ScriptLang.Proofs.Run.Typed

/-!
# Sessions at the prompt

A session is told by its visits of the prompt: what was gathered before, what the prompt showed, the
reply, and the text that was evaluated upon it. The loop of the prompt runs such a session, with
either line editor.

The texts that are evaluated cut what is typed into segments, each as short as it can be: a text is
evaluated as soon as its brackets are balanced. Whatever comes of the evaluation, the next line
begins a new segment, unless the prompt ends. It ends with a line that asks for it, when nothing
more is typed, and with a program that exits with another code than 1. There is one way more: an
error whose text cannot be made is not caught.
-/

namespace ScriptLang

/-- Whether a signal counts as an error, with a text of its own. -/
def Signal.isError : Signal → Bool
  | .raised _ | .returned _ | .broke | .continued => true
  | .exit _ | .interrupted | .exhausted => false

def Machine.emit (m : Machine) (e : Event) : Machine := { m with world := m.world.emit e }

namespace Exec

/-! ### Evaluations -/

/-- The evaluation of a text from which the prompt goes on, with another machine. -/
inductive GoesOn (code : String) (m : Machine) : Machine → Prop
  | value {m' : Machine} (h : (showValue code).run m = (.ok (), m')) : GoesOn code m m'
  | exit {c : Value} {m' : Machine} (h : (showValue code).run m = (.error (.exit c), m'))
    (hc : m'.store.equal c (.int 1) = true) : GoesOn code m m'
  | interrupted {m' : Machine} (h : (showValue code).run m = (.error .interrupted, m')) :
    GoesOn code m (m'.emit (.out "\n"))
  | failed {s : Signal} {reason : String} {m' m'' : Machine} (hs : s.isError = true)
    (h : (showValue code).run m = (.error s, m'))
    (htext : (liftM (signalText? s) : Exec (Option String)).run m' = (.ok (some reason), m'')) :
    GoesOn code m (m''.emit (.styled ("[red]" ++ reason ++ "[/red]") "\n"))

/-- The evaluation of a text with which the prompt ends, and how it does. -/
inductive EndsPrompt (code : String) (m : Machine) : Except Signal Unit × Machine → Prop
  | exit {c : Value} {m' : Machine} (h : (showValue code).run m = (.error (.exit c), m'))
    (hc : m'.store.equal c (.int 1) = false) : EndsPrompt code m (.ok (), m')
  /-- There is an error, and another one when its text is made. -/
  | unshown {s e : Signal} {m' m'' : Machine} (hs : s.isError = true)
    (h : (showValue code).run m = (.error s, m'))
    (htext : (liftM (signalText? s) : Exec (Option String)).run m' = (.error e, m'')) :
    EndsPrompt code m (.error e, m'')
  /-- The evaluation reaches the bound of the engine. -/
  | exhausted {m' : Machine} (h : (showValue code).run m = (.error .exhausted, m')) :
    EndsPrompt code m (.error .exhausted, m')

/-- A signal that counts as an error has a text, if that can be made. -/
theorem isError_eq_false {s : Signal} {host host' : Host}
    (h : (signalText? s).run host = (.ok none, host')) : s.isError = false := by
  have htext (v : Value) : (some <$> text v : HostExec (Option String)).run host ≠
      (.ok none, host') := by
    rw [map_eq_pure_bind]
    intro h
    obtain ⟨_, _, -, hpure⟩ := run_hostBind_eq_ok h
    cases hpure
  cases s with
  | raised v => exact absurd h (htext v)
  | returned v => exact absurd h (htext v)
  | broke => cases h
  | continued => cases h
  | exit | interrupted | exhausted => rfl

theorem run_afterSignal {code : String} {s : Signal} {m m' : Machine}
    (h : (showValue code).run m = (.error s, m')) :
    (takeTurn (.evaluate code)).run m = (afterSignal s >>= fun goesOn =>
      pure (if goesOn then some "" else none)).run m' := by
  rw [takeTurn, run_bind, run_bind, runAtPrompt, run_tryCatch, run_bind, h]

/-- An error is shown, and the prompt goes on. -/
theorem afterSignal_of_isError {s : Signal} (h : s.isError = true) :
    afterSignal s = (do showSignal s; pure true) := by
  cases s with
  | raised | returned | broke | continued => rfl
  | exit | interrupted | exhausted => cases h

/-- The prompt goes on with nothing gathered. -/
theorem GoesOn.run {code : String} {m m' : Machine} (h : GoesOn code m m') :
    (takeTurn (.evaluate code)).run m = (.ok (some ""), m') := by
  cases h with
  | value h => rw [takeTurn, run_bind, runAtPrompt, run_tryCatch, run_bind, h]; rfl
  | @exit c _ h hc =>
    have hequal : (liftM (equal c (.int 1)) : Exec Bool).run m' = (.ok true, m') :=
      congrArg (fun b => (Except.ok b, m')) hc
    rw [run_afterSignal h, afterSignal, run_bind, hequal]
    rfl
  | interrupted h => exact run_afterSignal h
  | failed hs h htext =>
    rw [run_afterSignal h, afterSignal_of_isError hs, showSignal]
    simp only [run_bind, htext]
    rfl

/-- The prompt ends with the outcome. -/
theorem EndsPrompt.run {code : String} {m : Machine} {r : Except Signal Unit × Machine}
    (h : EndsPrompt code m r) :
    (takeTurn (.evaluate code)).run m = (r.1.map fun _ => none, r.2) := by
  cases h with
  | @exit c m' h hc =>
    have hequal : (liftM (equal c (.int 1)) : Exec Bool).run m' = (.ok false, m') :=
      congrArg (fun b => (Except.ok b, m')) hc
    rw [run_afterSignal h, afterSignal, run_bind, hequal]
    rfl
  | unshown hs h htext =>
    rw [run_afterSignal h, afterSignal_of_isError hs, showSignal]
    simp only [run_bind, htext]
    rfl
  | exhausted h => exact run_afterSignal h

/-- After an evaluation the prompt goes on, or it ends. -/
theorem goesOn_or_endsPrompt (code : String) (m : Machine) :
    (∃ m', GoesOn code m m') ∨ ∃ r, EndsPrompt code m r := by
  rcases hshow : (showValue code).run m with ⟨s | ⟨⟩, m'⟩
  · have herror (hs : s.isError = true) :
        (∃ m', GoesOn code m m') ∨ ∃ r, EndsPrompt code m r := by
      rcases htext : (liftM (signalText? s) : Exec (Option String)).run m' with
        ⟨e | _ | reason, m''⟩
      · exact .inr ⟨_, .unshown hs hshow htext⟩
      · rw [isError_eq_false (run_host_eq_ok htext).1] at hs
        cases hs
      · exact .inl ⟨_, .failed hs hshow htext⟩
    cases s with
    | exit c =>
      cases hc : m'.store.equal c (.int 1) with
      | true => exact .inl ⟨_, .exit hshow hc⟩
      | false => exact .inr ⟨_, .exit hshow hc⟩
    | interrupted => exact .inl ⟨_, .interrupted hshow⟩
    | exhausted => exact .inr ⟨_, .exhausted hshow⟩
    | raised | returned | broke | continued => exact herror rfl
  · exact .inl ⟨m', .value hshow⟩

/-- An evaluation adds nothing to what is typed. -/
theorem GoesOn.typed_suffix {code : String} {m m' : Machine} (h : GoesOn code m m') :
    m'.typed <:+ m.typed := by
  cases h with
  | value h | exit h => simpa only [h] using takesTyped_showValue code m
  | @interrupted m₁ h =>
    have hshow := takesTyped_showValue code m
    rw [h] at hshow
    exact hshow
  | @failed s reason m₁ m₂ hs h htext =>
    have hshow := takesTyped_showValue code m
    have hsignal := TakesTyped.host (signalText? s) m₁
    rw [h] at hshow
    rw [htext] at hsignal
    exact hsignal.trans hshow

end Exec

/-! ### Sessions -/

structure Visit where
  /-- What was still typed then. -/
  typed : List Typed
  /-- The text that was gathered before. -/
  gathered : String
  /-- What the prompt showed. -/
  shown : String
  reply : PromptReply
  /-- The text that was then evaluated, if one was. -/
  evaluated : Option String

open Exec in
/-- From a machine, with some text gathered, the prompt is visited and ends with an outcome. -/
inductive Session (editor : Editor) :
    String → Machine → List Visit → Except Signal Unit × Machine → Prop
  | left {g : String} {reply : PromptReply} {m m' : Machine}
    (hreply : (promptReply editor (promptText g)).run m = (.ok reply, m'))
    (hturn : turnOf g reply = .leave) :
    Session editor g m [⟨m.typed, g, promptText g, reply, none⟩] (.ok (), m')
  | dropped {g : String} {reply : PromptReply} {m m' : Machine} {visits : List Visit}
    {r : Except Signal Unit × Machine}
    (hreply : (promptReply editor (promptText g)).run m = (.ok reply, m'))
    (hturn : turnOf g reply = .drop) (rest : Session editor "" (m'.emit (.out "\n")) visits r) :
    Session editor g m (⟨m.typed, g, promptText g, reply, none⟩ :: visits) r
  | gathered {g code : String} {reply : PromptReply} {m m' : Machine} {visits : List Visit}
    {r : Except Signal Unit × Machine}
    (hreply : (promptReply editor (promptText g)).run m = (.ok reply, m'))
    (hturn : turnOf g reply = .gather code) (rest : Session editor code m' visits r) :
    Session editor g m (⟨m.typed, g, promptText g, reply, none⟩ :: visits) r
  /-- The prompt goes on with the machine that the evaluation has left. -/
  | evaluated {g code : String} {reply : PromptReply} {m m' m'' : Machine} {visits : List Visit}
    {r : Except Signal Unit × Machine}
    (hreply : (promptReply editor (promptText g)).run m = (.ok reply, m'))
    (hturn : turnOf g reply = .evaluate code) (hgo : GoesOn code m' m'')
    (rest : Session editor "" m'' visits r) :
    Session editor g m (⟨m.typed, g, promptText g, reply, some code⟩ :: visits) r
  | stopped {g code : String} {reply : PromptReply} {m m' : Machine}
    {r : Except Signal Unit × Machine}
    (hreply : (promptReply editor (promptText g)).run m = (.ok reply, m'))
    (hturn : turnOf g reply = .evaluate code) (hend : EndsPrompt code m' r) :
    Session editor g m [⟨m.typed, g, promptText g, reply, some code⟩] r

variable {editor : Editor} {g : String} {reply : PromptReply} {m : Machine} {visits : List Visit}
  {r : Except Signal Unit × Machine}

/-- The prompt is left at the end of what is typed, or by a line that asks for it. -/
theorem turnOf_eq_leave_iff :
    turnOf g reply = .leave ↔ reply = .ended ∨ ∃ s, reply = .line s ∧ leaves s = true := by
  cases reply <;> grind [turnOf]

theorem turnOf_eq_drop_iff : turnOf g reply = .drop ↔ reply = .interrupted := by
  cases reply <;> grind [turnOf]

/-- A line is gathered if the text so far is not complete. -/
theorem turnOf_eq_gather_iff {code : String} : turnOf g reply = .gather code ↔
    ∃ s, reply = .line s ∧ leaves s = false ∧ code = g ++ s ++ "\n" ∧ isComplete code = false := by
  cases reply <;> grind [turnOf]

/-- A line is evaluated if it completes the text so far. -/
theorem turnOf_eq_evaluate_iff {code : String} : turnOf g reply = .evaluate code ↔
    ∃ s, reply = .line s ∧ leaves s = false ∧ code = g ++ s ++ "\n" ∧ isComplete code = true := by
  cases reply <;> grind [turnOf]

namespace Exec

/-- The loop after a turn that goes on. -/
theorem run_promptFrom_some {rounds : Nat} {g' : String} {m' m'' : Machine}
    (hreply : (promptReply editor (promptText g)).run m = (.ok reply, m'))
    (hturn : (takeTurn (turnOf g reply)).run m' = (.ok (some g'), m'')) :
    (promptFrom editor (rounds + 1) g).run m = (promptFrom editor rounds g').run m'' := by
  rw [promptFrom, run_bind, hreply]
  dsimp only
  rw [run_bind, hturn]

/-- The loop after a turn that ends it. -/
theorem run_promptFrom_none {rounds : Nat} {m' : Machine}
    (hreply : (promptReply editor (promptText g)).run m = (.ok reply, m'))
    (hturn : (takeTurn (turnOf g reply)).run m' = (r.1.map fun _ => none, r.2)) :
    (promptFrom editor (rounds + 1) g).run m = r := by
  rw [promptFrom, run_bind, hreply]
  dsimp only
  rw [run_bind, hturn]
  obtain ⟨s | ⟨⟩, m''⟩ := r <;> rfl

/-- The loop of the prompt runs a session. It ends before its rounds do, for every reply with which
the prompt is not left takes something that is typed. -/
theorem session_promptFrom {rounds : Nat} (h : m.typed.length < rounds) :
    ∃ visits, Session editor g m visits ((promptFrom editor rounds g).run m) := by
  induction rounds generalizing g m with
  | zero => exact absurd h (Nat.not_lt_zero _)
  | succ rounds ih =>
    obtain ⟨m', hreply, htyped⟩ := run_promptReply editor (promptText g) m
    have hlt (hturn : turnOf g (replyTo m.typed).1 ≠ .leave) : m'.typed.length < rounds := by
      have hended : (replyTo m.typed).1 ≠ .ended := fun h => hturn (turnOf_eq_leave_iff.2 (.inl h))
      have htake := htyped ▸ length_replyTo_lt hended
      omega
    cases hturn : turnOf g (replyTo m.typed).1 with
    | leave =>
      rw [run_promptFrom_none (r := (.ok (), m')) hreply (by rw [hturn]; rfl)]
      exact ⟨_, .left hreply hturn⟩
    | drop =>
      rw [run_promptFrom_some hreply (by rw [hturn]; rfl)]
      obtain ⟨visits, hrest⟩ := ih (g := "") (m := m'.emit (.out "\n"))
        (hlt (hturn ▸ Turn.noConfusion))
      exact ⟨_, .dropped hreply hturn hrest⟩
    | gather code =>
      rw [run_promptFrom_some hreply (by rw [hturn]; rfl)]
      obtain ⟨visits, hrest⟩ := ih (g := code) (hlt (hturn ▸ Turn.noConfusion))
      exact ⟨_, .gathered hreply hturn hrest⟩
    | evaluate code =>
      obtain ⟨m'', hgo⟩ | ⟨r, hend⟩ := goesOn_or_endsPrompt code m'
      · rw [run_promptFrom_some hreply (by rw [hturn]; exact hgo.run)]
        obtain ⟨visits, hrest⟩ := ih (g := "") (m := m'')
          (Nat.lt_of_le_of_lt hgo.typed_suffix.length_le (hlt (hturn ▸ Turn.noConfusion)))
        exact ⟨_, .evaluated hreply hturn hgo hrest⟩
      · rw [run_promptFrom_none hreply (by rw [hturn]; exact hend.run)]
        exact ⟨_, .stopped hreply hturn hend⟩

/-- Every run of the prompt is a session: what is typed gets shorter with each visit. -/
theorem session_promptLoop (editor : Editor) (m : Machine) :
    ∃ visits, Session editor "" m visits ((promptLoop editor).run m) :=
  session_promptFrom m.typed.length.lt_succ_self

end Exec

namespace Session

open Exec

/-- A session is what the loop of the prompt does, if it has a round for each visit. -/
theorem run_promptFrom_eq (h : Session editor g m visits r) {rounds : Nat}
    (hrounds : visits.length ≤ rounds) : (promptFrom editor rounds g).run m = r := by
  induction h generalizing rounds with
  | left hreply hturn =>
    obtain ⟨rounds, rfl⟩ := Nat.exists_eq_add_of_le' hrounds
    exact run_promptFrom_none hreply (by rw [hturn]; rfl)
  | dropped hreply hturn _ ih =>
    obtain ⟨rounds, rfl⟩ := Nat.exists_eq_add_of_le' (Nat.one_le_of_lt hrounds)
    rw [run_promptFrom_some hreply (by rw [hturn]; rfl)]
    exact ih (Nat.le_of_succ_le_succ hrounds)
  | gathered hreply hturn _ ih =>
    obtain ⟨rounds, rfl⟩ := Nat.exists_eq_add_of_le' (Nat.one_le_of_lt hrounds)
    rw [run_promptFrom_some hreply (by rw [hturn]; rfl)]
    exact ih (Nat.le_of_succ_le_succ hrounds)
  | evaluated hreply hturn hgo _ ih =>
    obtain ⟨rounds, rfl⟩ := Nat.exists_eq_add_of_le' (Nat.one_le_of_lt hrounds)
    rw [run_promptFrom_some hreply (by rw [hturn]; exact hgo.run)]
    exact ih (Nat.le_of_succ_le_succ hrounds)
  | stopped hreply hturn hend =>
    obtain ⟨rounds, rfl⟩ := Nat.exists_eq_add_of_le' hrounds
    exact run_promptFrom_none hreply (by rw [hturn]; exact hend.run)

/-- There is only one session from a machine. -/
theorem run_promptLoop_eq (h : Session editor "" m visits r) : (promptLoop editor).run m = r := by
  -- The loop has a session too; with rounds for the visits of both, they have the same outcome.
  obtain ⟨others, hloop⟩ := session_promptLoop editor m
  calc (promptLoop editor).run m
      = (promptFrom editor (max visits.length others.length) "").run m :=
        (hloop.run_promptFrom_eq (le_max_right _ _)).symm
    _ = r := h.run_promptFrom_eq (le_max_left _ _)

/-- If no completions are asked for, the other line editor has the same session. -/
theorem transfer (h : Session editor g m visits r) (hm : ∀ t ∈ m.typed, t.isCompletion = false)
    (other : Editor) : Session other g m visits r := by
  have hrest {reply : PromptReply} {g : String} {m m' : Machine}
      (hreply : (promptReply editor (promptText g)).run m = (.ok reply, m'))
      (hm : ∀ t ∈ m.typed, t.isCompletion = false) : ∀ t ∈ m'.typed, t.isCompletion = false := by
    rw [(run_promptReply_eq_ok hreply).2]
    exact fun t ht => hm t ((replyTo_suffix _).mem ht)
  induction h with
  | left hreply hturn =>
    exact .left (run_promptReply_congr editor other _ hm ▸ hreply) hturn
  | dropped hreply hturn _ ih =>
    have hrest := hrest hreply hm
    exact .dropped (run_promptReply_congr editor other _ hm ▸ hreply) hturn (ih hrest)
  | gathered hreply hturn _ ih =>
    exact .gathered (run_promptReply_congr editor other _ hm ▸ hreply) hturn (ih (hrest hreply hm))
  | evaluated hreply hturn hgo _ ih =>
    exact .evaluated (run_promptReply_congr editor other _ hm ▸ hreply) hturn hgo
      (ih fun t ht => hrest hreply hm t (hgo.typed_suffix.mem ht))
  | stopped hreply hturn hend =>
    exact .stopped (run_promptReply_congr editor other _ hm ▸ hreply) hturn hend

end Session

/-! ### Segments -/

def joined (lines : List String) : String := String.join (lines.map (· ++ "\n"))

theorem joined_concat (lines : List String) (s : String) :
    joined (lines ++ [s]) = joined lines ++ s ++ "\n" := by
  simp [joined, String.append_assoc]

/-- However many of the lines are taken from the front, they are no complete text. -/
def Unfinished (lines : List String) : Prop :=
  ∀ front, front <+: lines → front ≠ [] → isComplete (joined front) = false

/-- The lines are a complete text, and fewer of them from the front are not. -/
structure IsSegment (lines : List String) : Prop where
  complete : isComplete (joined lines) = true
  shortest : ∀ front, front <+: lines → front ≠ [] → isComplete (joined front) = true →
    front = lines

theorem Unfinished.nil : Unfinished [] :=
  fun _ hfront hne => absurd (List.prefix_nil.1 hfront) hne

theorem Unfinished.concat {lines : List String} (h : Unfinished lines) {s : String}
    (hs : isComplete (joined (lines ++ [s])) = false) : Unfinished (lines ++ [s]) := by
  intro front hfront hne
  obtain rfl | hfront := List.prefix_concat_iff.1 hfront
  · exact hs
  · exact h front hfront hne

/-- A line makes a segment of unfinished lines exactly if it completes them. -/
theorem Unfinished.isSegment_concat_iff {lines : List String} (h : Unfinished lines) {s : String} :
    IsSegment (lines ++ [s]) ↔ isComplete (joined (lines ++ [s])) = true := by
  refine ⟨IsSegment.complete, fun hcode => ⟨hcode, fun front hfront hne hcomplete => ?_⟩⟩
  obtain hall | hfront := List.prefix_concat_iff.1 hfront
  · exact hall
  · rw [h front hfront hne] at hcomplete
    cases hcomplete

namespace Visit

def line? (v : Visit) : Option String :=
  match v.reply with
  | .line s => some s
  | _ => none

/-- Whether the next line begins a new segment. -/
def restarts (v : Visit) : Bool := v.evaluated.isSome || v.reply == .interrupted

/-- The lines that were read since the last evaluation or interrupt, if there was one. -/
def pending (visits : List Visit) : List String :=
  (visits.rtakeWhile fun v => !v.restarts).filterMap line?

/-- After an evaluation or an interrupt no lines are pending. -/
theorem pending_concat_of_restarts {v : Visit} (h : v.restarts = true) (front : List Visit) :
    pending (front ++ [v]) = [] := by
  simp [pending, h]

theorem pending_concat_of_line {v : Visit} {s : String} (h : v.restarts = false)
    (hs : v.reply = .line s) (front : List Visit) :
    pending (front ++ [v]) = pending front ++ [s] := by
  simp [pending, h, line?, hs]

structure Follows (v : Visit) (front : List Visit) : Prop where
  reply_eq : v.reply = (replyTo v.typed).1
  gathered_eq : v.gathered = joined (pending front)
  unfinished : v.gathered = "" ∨ isComplete v.gathered = false
  shown_eq : v.shown = if v.gathered = "" then ">>> " else "... "
  /-- A text is evaluated as soon as the lines that were read are one segment. -/
  evaluated_iff : ∀ code, v.evaluated = some code ↔
    ∃ s, v.reply = .line s ∧ leaves s = false ∧ code = joined (pending front ++ [s]) ∧
      IsSegment (pending front ++ [s])

/-- Two visits, one right after the other. Between them only a program takes what is typed. -/
structure Precedes (v w : Visit) : Prop where
  not_ended : v.reply ≠ .ended
  not_left : ∀ s, v.reply = .line s → leaves s = false
  typed_suffix : w.typed <:+ (replyTo v.typed).2
  typed_eq : v.evaluated = none → w.typed = (replyTo v.typed).2

/-- The last visit, and the outcome with which the prompt then ends. -/
inductive Ends (v : Visit) : Except Signal Unit × Machine → Prop
  | ended {m : Machine} (h : v.reply = .ended) : Ends v (.ok (), m)
  | left {s : String} {m : Machine} (h : v.reply = .line s) (hs : leaves s = true) :
    Ends v (.ok (), m)
  | stopped {code : String} {m : Machine} {r : Except Signal Unit × Machine}
    (h : v.evaluated = some code) (hend : Exec.EndsPrompt code m r) : Ends v r

/-- The invariant of a session: what is gathered after some visits, line by line. -/
structure Gathers (before : List Visit) (g : String) : Prop where
  gathered_eq : g = joined (pending before)
  unfinished : Unfinished (pending before)

namespace Gathers

variable {before : List Visit} {v : Visit}

theorem start : Gathers [] "" := ⟨rfl, .nil⟩

theorem restart (before : List Visit) (h : v.restarts = true) : Gathers (before ++ [v]) "" := by
  constructor <;> rw [pending_concat_of_restarts h]
  · rfl
  · exact .nil

/-- A line that does not complete the text is gathered. -/
theorem gather {s : String} (h : Gathers before g) (hv : v.restarts = false)
    (hs : v.reply = .line s) (hcode : isComplete (g ++ s ++ "\n") = false) :
    Gathers (before ++ [v]) (g ++ s ++ "\n") := by
  rw [h.gathered_eq, ← joined_concat] at hcode ⊢
  constructor <;> rw [pending_concat_of_line hv hs]
  exact h.unfinished.concat hcode

/-- What is gathered before a visit tells what the visit does. -/
theorem follows (h : Gathers before v.gathered) (hreply : v.reply = (replyTo v.typed).1)
    (hshown : v.shown = promptText v.gathered)
    (hcode : ∀ code, v.evaluated = some code ↔ turnOf v.gathered v.reply = .evaluate code) :
    v.Follows before where
  reply_eq := hreply
  gathered_eq := h.gathered_eq
  unfinished := by
    rw [h.gathered_eq]
    by_cases hnil : pending before = []
    · exact .inl (by rw [hnil]; rfl)
    · exact .inr (h.unfinished _ (List.prefix_refl _) hnil)
  shown_eq := by
    rw [hshown]
    simp only [promptText, String.isEmpty_iff]
  evaluated_iff code := by
    rw [hcode, turnOf_eq_evaluate_iff, h.gathered_eq]
    simp only [h.unfinished.isSegment_concat_iff, joined_concat]
    refine exists_congr fun s => and_congr_right fun _ => and_congr_right fun _ => ?_
    exact and_congr_right fun hcode => by rw [hcode]

end Gathers

def AllFollow (before visits : List Visit) : Prop :=
  ∀ front v back, visits = front ++ v :: back → v.Follows (before ++ front)

theorem AllFollow.nil (before : List Visit) : AllFollow before [] := by
  intro front v back h
  simp at h

theorem AllFollow.cons {before visits : List Visit} {v : Visit} (hv : v.Follows before)
    (hrest : AllFollow (before ++ [v]) visits) : AllFollow before (v :: visits) := by
  intro front w back h
  cases front with
  | nil =>
    obtain ⟨rfl, -⟩ := List.cons.inj h
    rwa [List.append_nil]
  | cons _ front =>
    obtain ⟨rfl, hvisits⟩ := List.cons.inj h
    simpa using hrest front w back hvisits

/-- The visits of a session by what was typed and the outcome. -/
structure Recount (ts : List Typed) (visits : List Visit) (r : Except Signal Unit × Machine) :
    Prop where
  starts : visits.head?.map Visit.typed = some ts
  follows : ∀ front v back, visits = front ++ v :: back → v.Follows front
  chain : visits.IsChain Precedes
  ends : ∃ v ∈ visits.getLast?, v.Ends r

end Visit

namespace Session

open Visit Exec

/-- By induction on the session, with what is gathered as the invariant. -/
theorem allFollow (h : Session editor g m visits r) {before : List Visit}
    (hg : Gathers before g) : AllFollow before visits := by
  -- The visits before grow by one in each case, and what is gathered then is again told by them.
  induction h generalizing before with
  | left hreply hturn =>
    have hreply := (run_promptReply_eq_ok hreply).1
    exact .cons (hg.follows hreply rfl (by simp [hturn])) (.nil _)
  | dropped hreply hturn _ ih =>
    have hreply := (run_promptReply_eq_ok hreply).1
    refine .cons (hg.follows hreply rfl (by simp [hturn])) (ih (.restart _ ?_))
    simp [restarts, turnOf_eq_drop_iff.1 hturn]
  | gathered hreply hturn _ ih =>
    have hreply := (run_promptReply_eq_ok hreply).1
    refine .cons (hg.follows hreply rfl (by simp [hturn])) (ih ?_)
    obtain ⟨s, rfl, -, rfl, hcode⟩ := turnOf_eq_gather_iff.1 hturn
    exact hg.gather rfl rfl hcode
  | evaluated hreply hturn hgo _ ih =>
    have hreply := (run_promptReply_eq_ok hreply).1
    exact .cons (hg.follows hreply rfl (by simp [hturn])) (ih (.restart _ rfl))
  | stopped hreply hturn hend =>
    have hreply := (run_promptReply_eq_ok hreply).1
    exact .cons (hg.follows hreply rfl (by simp [hturn])) (.nil _)

theorem head?_typed (h : Session editor g m visits r) :
    visits.head?.map Visit.typed = some m.typed := by
  cases h <;> rfl

/-- A visit whose turn is not to leave precedes those of the rest of the session. -/
theorem isChain_cons {v : Visit} (h : Session editor g m visits r)
    (hchain : visits.IsChain Precedes) (hleave : turnOf v.gathered v.reply ≠ .leave)
    (htyped : m.typed <:+ (replyTo v.typed).2)
    (heq : v.evaluated = none → m.typed = (replyTo v.typed).2) :
    (v :: visits).IsChain Precedes := by
  cases visits with
  | nil => exact .singleton v
  | cons w visits =>
    have hw : w.typed = m.typed := Option.some.inj h.head?_typed
    refine List.isChain_cons_cons.2 ⟨?_, hchain⟩
    refine ⟨fun hended => ?_, fun s hs => ?_, hw ▸ htyped, hw ▸ heq⟩
    · exact hleave (turnOf_eq_leave_iff.2 (.inl hended))
    · refine Bool.eq_false_iff.2 fun hleaves => ?_
      exact hleave (turnOf_eq_leave_iff.2 (.inr ⟨s, hs, hleaves⟩))

/-- Between two visits only a program takes what is typed. -/
theorem isChain (h : Session editor g m visits r) : visits.IsChain Precedes := by
  induction h with
  | left | stopped => exact .singleton _
  | dropped hreply hturn hrest ih =>
    have htyped := (run_promptReply_eq_ok hreply).2
    exact hrest.isChain_cons ih (by simp [hturn]) (htyped ▸ List.suffix_refl _) fun _ => htyped
  | gathered hreply hturn hrest ih =>
    have htyped := (run_promptReply_eq_ok hreply).2
    exact hrest.isChain_cons ih (by simp [hturn]) (htyped ▸ List.suffix_refl _) fun _ => htyped
  | evaluated hreply hturn hgo hrest ih =>
    have htyped := (run_promptReply_eq_ok hreply).2
    exact hrest.isChain_cons ih (by simp [hturn]) (htyped ▸ hgo.typed_suffix) nofun

theorem ends (h : Session editor g m visits r) : ∃ v ∈ visits.getLast?, v.Ends r := by
  induction h with
  | left hreply hturn =>
    refine ⟨_, rfl, ?_⟩
    obtain rfl | ⟨s, rfl, hs⟩ := turnOf_eq_leave_iff.1 hturn
    · exact .ended rfl
    · exact .left rfl hs
  | dropped _ _ _ ih | gathered _ _ _ ih | evaluated _ _ _ _ ih =>
    obtain ⟨v, hv, hends⟩ := ih
    exact ⟨v, List.mem_getLast?_cons hv, hends⟩
  | stopped hreply hturn hend => exact ⟨_, rfl, .stopped rfl hend⟩

/-- A session by what was typed: its visits in order, and how it ends. -/
theorem recount (h : Session editor "" m visits r) : Recount m.typed visits r where
  starts := h.head?_typed
  follows := h.allFollow .start
  chain := h.isChain
  ends := h.ends

end Session

end ScriptLang
