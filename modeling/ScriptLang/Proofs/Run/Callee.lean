import ScriptLang.Proofs.Parse.Print
import ScriptLang.Proofs.Run.Notices
import ScriptLang.Run.Interpreter

/-!
# What can be called

A call finds what it calls, evaluates its arguments from left to right, and applies the one to the
others. If what it calls is written as a name, a member, an operator or a choice, that is evaluated
like anywhere else. All other expressions are not evaluated but looked up by their description, as
if this were a name. So the result of a call cannot be called, unless it gets a name first.
-/

namespace ScriptLang

namespace Node

def isCallee : Node → Bool
  | .name _ | .member .. | .binary .. | .unary .. | .ternary .. => true
  | _ => false

def keyword? : Node → Option String
  | .keyword id _ => some id
  | _ => none

end Node

abbrev Arguments := List (Option String × Value)

namespace Arguments

def positional (args : Arguments) : List Value :=
  args.filterMap fun a => if a.1.isNone then some a.2 else none

def namedAfter (t : Table Value) (args : Arguments) : Table Value :=
  args.foldl (fun t a => a.1.elim t fun name => t.set name a.2) t

end Arguments

namespace Exec

variable (g : Engine) (e : ScopeId)

def applyTo (f : Value) (args : Arguments) : Exec Value :=
  callingOr g f args.positional (args.namedAfter []) do
    if ← isCallable f then g.apply f args.positional (args.namedAfter [])
    else
      report .notCallable
      pure .none

/-- Evaluates what is called, then the arguments from left to right, and applies the one to the
others. -/
def callInOrder (target : Exec Value) (args : List Node) : Exec Value := do
  let f ← target
  let values ← evaluateAll g e (args.map Node.argument)
  applyTo g f ((args.map Node.keyword?).zip values)

variable {g e}

/-- The arguments are evaluated from left to right and then told apart by their keywords. -/
theorem evaluateArgs_eq (pos : List Value) (named : Table Value) (args : List Node) :
    evaluateArgs g e pos named args = (do
      let values ← evaluateAll g e (args.map Node.argument)
      let bound : Arguments := (args.map Node.keyword?).zip values
      pure (pos.reverse ++ bound.positional, bound.namedAfter named)) := by
  fun_induction evaluateArgs g e pos named args with
  | case1 pos named => simp [evaluateAll, Arguments.positional, Arguments.namedAfter]
  | case2 pos named name node rest ih =>
    simp [evaluateAll, Node.argument, Node.keyword?, ih, Arguments.positional,
      Arguments.namedAfter]
  | case3 pos named node rest hnode ih =>
    have hargument : node.argument = node := by
      unfold Node.argument
      split <;> simp_all
    have hkeyword : node.keyword? = none := by
      unfold Node.keyword?
      split <;> simp_all
    simp [evaluateAll, hargument, hkeyword, ih, Arguments.positional, Arguments.namedAfter]

/-- Calls evaluate what is called first, then the arguments from left to right. -/
theorem evaluateCall_eq (target : Node) (args : List Node) :
    evaluateCall g e target args = callInOrder g e (callee g e target) args := by
  simp only [evaluateCall, callInOrder, evaluateArgs_eq, bind_assoc, pure_bind, List.reverse_nil,
    List.nil_append]
  rfl

/-- What can be evaluated to find what is called, is. -/
theorem run_callee_of_isCallee (depth : Nat) {target : Node} (h : target.isCallee) {m : Machine}
    (hm : m.current = e) :
    (callee (Engine.ofDepth (depth + 1)) e target).run m =
      ((Engine.ofDepth (depth + 1)).evaluate target e).run m := by
  unfold Node.isCallee at h
  split at h
  · next id =>
      have hscope : (inScope e).run m = (.ok (), m) := by
        subst hm
        rfl
      change _ = (inScope e >>= fun _ => lookup e id).run m
      rw [run_bind, hscope]
      rfl
  all_goals first | rfl | cases h

/-- What cannot be evaluated is looked up. -/
theorem callee_of_not_isCallee {target : Node} (h : target.isCallee = false) :
    callee g e target = (do
      report (.unbound target.describe)
      pure .none) := by
  unfold callee
  split <;> first | cases h | rfl

end Exec

open Exec in
/-- A call evaluates what it calls, then its arguments from left to right, and applies the one to
the others, if what it calls is a name, a member, an operator or a choice. For any other kind of
node, in particular for another call, it evaluates nothing and ends the program with the notice that
nothing has the description of the node as its name; with notices silenced it goes on with no value
to call. So where the evaluation in order has a result, the call has it if and only if what it calls
is of one of these kinds. -/
theorem call_in_order_iff (depth : Nat) (target : Node) (args : List Node) (e : ScopeId)
    (m : Machine) :
    let g := Engine.ofDepth (depth + 1)
    let start := { m with current := e }
    let outcome := ((Engine.ofDepth (depth + 2)).evaluate (.call target args) e).run m
    let ordered := (callInOrder g e (g.evaluate target e) args).run start
    (target.isCallee = true → outcome = ordered) ∧
    (target.isCallee = false → m.isQuiet = false →
      outcome = (.error (.exit (.int 1)), { start with
        world := m.world.emit ((Notice.unbound target.describe).event m.reader) })) ∧
    (target.isCallee = false → m.isQuiet = true →
      outcome = (callInOrder g e (pure .none) args).run start) ∧
    (m.isQuiet = false → ∀ v m', ordered = (.ok v, m') →
      (outcome = ordered ↔ target.isCallee = true)) := by
  intro g start outcome ordered
  have houtcome : outcome = (callInOrder g e (callee g e target) args).run start := by
    rw [← evaluateCall_eq]
    rfl
  have hcallee (h : target.isCallee = true) : outcome = ordered := by
    rw [houtcome]
    exact run_bind_congr (run_callee_of_isCallee depth h rfl) fun _ _ _ => rfl
  have hunfound (h : target.isCallee = false) (hquiet : m.isQuiet = false) :
      outcome = (.error (.exit (.int 1)), { start with
        world := m.world.emit ((Notice.unbound target.describe).event m.reader) }) := by
    rw [houtcome, callInOrder, callee_of_not_isCallee h, run_bind, run_bind, run_host,
      run_report_shown hquiet]
    rfl
  refine ⟨hcallee, hunfound, fun h hquiet => ?_, fun hquiet v m' hresult =>
    ⟨fun hsame => ?_, hcallee⟩⟩
  · rw [houtcome]
    refine run_bind_congr ?_ fun _ _ _ => rfl
    rw [callee_of_not_isCallee h, run_bind, run_host, run_report_silenced hquiet]
    rfl
  · cases h : target.isCallee with
    | true => rfl
    | false =>
      rw [hunfound h hquiet, hresult] at hsame
      cases hsame

def Machine.selfReturning : Machine :=
  { store := #[.func 1 0 []], scopes := #[{ vars := [("f", .ref 0)] }],
    codes := #[⟨[("a", "auto", .absent)], [.returnStmt (.name "f")], 0⟩] }

open Exec in
/-- The result of `f(1)` can be applied to 2, but `f(1)(2)` ends with the notice that `f(1)` is not
found. -/
theorem call_in_order_iff_twice :
    let target : Node := .call (.name "f") [.number (.int 1)]
    let args : List Node := [.number (.int 2)]
    let ordered := (callInOrder (.ofDepth 4) 0 ((Engine.ofDepth 4).evaluate target 0) args).run
      Machine.selfReturning
    let outcome := ((Engine.ofDepth 5).evaluate (.call target args) 0).run Machine.selfReturning
    ordered.1 = .ok (.ref 0) ∧ outcome.1 = .error (.exit (.int 1)) ∧
      outcome.2.world.events = [(Notice.unbound "FuncCall(f, [Number(1)])").event none] ∧
      outcome ≠ ordered := by
  intro target args ordered outcome
  have hvalue : ordered.1 = .ok (.ref 0) := rfl
  have hresult : ordered = (.ok (.ref 0), ordered.2) := Prod.ext hvalue rfl
  have hdescribe : target.describe = "FuncCall(f, [Number(1)])" := by cbv
  obtain ⟨-, hunfound, -, hiff⟩ := call_in_order_iff 3 target args 0 Machine.selfReturning
  rw [hdescribe] at hunfound
  refine ⟨hvalue, congrArg Prod.fst (hunfound rfl rfl),
    congrArg (fun r => r.2.world.events) (hunfound rfl rfl), fun hsame => ?_⟩
  cases (hiff rfl _ _ hresult).1 hsame

end ScriptLang
