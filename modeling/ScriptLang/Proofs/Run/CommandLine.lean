import ScriptLang.CommandLine
import ScriptLang.Proofs.Run.Basic

/-!
# Programs on the command line

Once programs are taken from the arguments, what is done follows from the arguments alone. But an
argument that spells an option is one, also where a program is expected.
-/

namespace ScriptLang

def bareWord (arg : String) : String := Text.lower (Text.replace arg "-" "")

def optionWords : List String :=
  ["version", "v", "s", "stdin", "l", "lint", "c", "code", "r", "repl", "ypms"]

/-- An argument is no option exactly if its bare word is none of the known ones. -/
theorem Flag.ofArgument_eq_other_iff (arg : String) :
    ofArgument arg = .other ↔ bareWord arg ∉ optionWords := by
  unfold ofArgument
  rw [← bareWord]
  split <;> simp_all [optionWords]

/-- Takes an argument where programs are expected, with a terminal as standard input. -/
def Invocation.take (i : Invocation) (arg : String) : Invocation :=
  match Flag.ofArgument arg with
  | .version => { i with version := true, isDecided := true }
  | .input => i
  | .lint => { i with lint := true }
  | .code => { i with takesCode := true }
  | .prompt => { i with prompt := true, isDecided := true }
  | .install => { i with install := true, isDecided := true }
  | .other => { i with code := some arg, isDecided := true }

def codeActions (arg : String) : List Action :=
  match Flag.ofArgument arg with
  | .version => [.version]
  | .install => [.install]
  | .prompt => [.prompt]
  | .lint => [.lint none, .start]
  | .input | .code => [.start]
  | .other => [.run arg]

/-- A single argument is run as a program exactly if it is no option. -/
theorem codeActions_eq_iff (arg : String) :
    codeActions arg = [.run arg] ↔ bareWord arg ∉ optionWords := by
  rw [← Flag.ofArgument_eq_other_iff, codeActions]
  cases Flag.ofArgument arg <;> simp

/-- An option is never run as a program. -/
theorem not_run_mem_codeActions {arg : String} (h : bareWord arg ∈ optionWords) (code : String) :
    .run code ∉ codeActions arg := by
  have hflag : Flag.ofArgument arg ≠ .other := fun hother =>
    (Flag.ofArgument_eq_other_iff arg).1 hother h
  rw [codeActions]
  cases hword : Flag.ofArgument arg <;> simp_all

theorem actions_take (arg : String) :
    (Invocation.take { takesCode := true } arg).actions = codeActions arg := by
  unfold Invocation.take codeActions
  cases Flag.ofArgument arg <;> rfl

namespace Exec

variable {m : Machine}

/-- Where programs are expected, no argument makes the machine do anything yet. -/
theorem run_takeArguments {i : Invocation} (hi : i.takesCode) (args : List String) :
    (takeArguments false i args).run m = (.ok (args.foldl Invocation.take i), m) := by
  induction args generalizing i with
  | nil => rfl
  | cons arg args ih =>
    have htake : (i.take arg).takesCode := by
      unfold Invocation.take
      cases Flag.ofArgument arg <;> first | exact hi | rfl
    rw [List.foldl_cons, ← ih htake, takeArguments, Invocation.take]
    cases Flag.ofArgument arg <;> simp [takeProgram, hi]

/-- After the option for programs every argument is taken for one. -/
theorem run_takeArguments_code (args : List String) :
    (takeArguments false {} ("-c" :: args)).run m =
      (.ok (args.foldl Invocation.take { takesCode := true }), m) := by
  have hflag : Flag.ofArgument "-c" = .code := by decide
  rw [← run_takeArguments rfl, takeArguments, hflag]
  rfl

theorem run_runConfigured (h : (m.options.get? "runtime_autorun_script").getD .none = .none) :
    runConfigured.run m = (.ok (), m) := by
  have hoption : (option "runtime_autorun_script").run m = (.ok .none, m) := by
    rw [← h]
    rfl
  rw [runConfigured, run_bind, hoption]
  rfl

/-- With a terminal and no script of its own, the command line does what its one argument asks
for. -/
theorem run_runCommandLine_code (hterminal : m.world.isTerminal)
    (hscript : (m.options.get? "runtime_autorun_script").getD .none = .none) (s : String) :
    (runCommandLine ["-c", s]).run m = ((codeActions s).forM perform).run m := by
  simp only [runCommandLine, run_bind, run_runConfigured hscript, run_get, hterminal,
    Bool.not_true, Bool.false_eq_true, if_false, pure_bind, run_takeArguments_code]
  rw [List.foldl_cons, List.foldl_nil, actions_take]

/-- With a terminal as standard input and no script in the settings, an argument after `-c` is run
and nothing else is done exactly if it does not spell an option. If it does, it is not run. -/
theorem runCommandLine_code_iff (s : String) (hterminal : m.world.isTerminal)
    (hscript : (m.options.get? "runtime_autorun_script").getD .none = .none) :
    (runCommandLine ["-c", s]).run m = ((codeActions s).forM perform).run m ∧
    (codeActions s = [.run s] ↔ bareWord s ∉ optionWords) ∧
    (bareWord s ∉ optionWords → (runCommandLine ["-c", s]).run m = (runText s).run m) ∧
    (bareWord s ∈ optionWords → ∀ code, .run code ∉ codeActions s) := by
  have hrun := run_runCommandLine_code hterminal hscript s
  have hactions := codeActions_eq_iff s
  refine ⟨hrun, hactions, fun h => ?_, fun h code => ?_⟩
  · rw [hrun, hactions.2 h]
    change (do runText s; pure PUnit.unit : Exec Unit).run m = _
    rw [bind_pure_unit]
  · exact not_run_mem_codeActions h code

/-- The word `stdin` is no program, whichever case and dashes it is written with. -/
theorem not_run_stdin :
    (runCommandLine ["-c", "-StdIn"]).run { world := { isTerminal := true } } =
      ([Action.start].forM perform).run { world := { isTerminal := true } } ∧
    codeActions "-StdIn" ≠ [.run "-StdIn"] := by
  obtain ⟨hrun, hiff, -⟩ :=
    runCommandLine_code_iff (m := { world := { isTerminal := true } }) "-StdIn" rfl rfl
  exact ⟨hrun, fun h => hiff.1 h (by decide)⟩

end Exec

end ScriptLang
