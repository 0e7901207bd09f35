import ScriptLang.Proofs.Run.Isolated
import ScriptLang.Run.Session

/-!
# Control signals

A `break`, a `continue` or a `return` ends what it stands in with a signal, which a loop or a call
takes up. If they all stand where they are taken up, no program and no call ends with such a signal.

A function is called long after it was declared, so the invariant is about the code that a machine
keeps: every function in it is contained. Nothing but a declaration adds to it.
-/

namespace ScriptLang

variable {α β : Type}

mutual

/-- Whether the parts of a statement that leave a loop stand in a loop and those that return stand
in a function, given whether the statement itself does. The body of a function is in no loop. -/
def Node.contained (inLoop inFunc : Bool) : Node → Bool
  | .breakStmt | .continueStmt => inLoop
  | .returnStmt _ => inFunc
  | .block statements => containedAll inLoop inFunc statements
  | .ifStmt _ thenBlock elseBlock =>
    contained inLoop inFunc thenBlock && contained inLoop inFunc elseBlock
  | .forStmt _ _ body | .whileStmt _ body => contained true inFunc body
  | .tryCatch tryBlock _ catchBlock =>
    contained inLoop inFunc tryBlock && contained inLoop inFunc catchBlock
  | .template _ body | .cls _ _ body => containedAll inLoop inFunc body
  | .func _ _ _ body => containedAll false true body
  | _ => true

def Node.containedAll (inLoop inFunc : Bool) : List Node → Bool
  | [] => true
  | n :: rest => n.contained inLoop inFunc && containedAll inLoop inFunc rest

end

theorem Node.containedAll_iff {l f : Bool} {nodes : List Node} :
    containedAll l f nodes = true ↔ ∀ n ∈ nodes, n.contained l f = true := by
  induction nodes with
  | nil => simp [containedAll]
  | cons n nodes ih => simp [containedAll, ih]

/-- Whether a signal may leave a statement that stands in a loop or in a function. -/
def Signal.isAllowed (inLoop inFunc : Bool) : Signal → Bool
  | .broke | .continued => inLoop
  | .returned _ => inFunc
  | _ => true

theorem Signal.isAllowed_of_not_isControl {s : Signal} (h : s.isControl = false) (l f : Bool) :
    s.isAllowed l f = true := by
  cases s with
  | returned | broke | continued => cases h
  | _ => rfl

theorem Signal.isAllowed_of_isFailure {s : Signal} (h : s.isFailure = true) (l f : Bool) :
    s.isAllowed l f = true := by
  cases s with
  | raised | interrupted | exhausted => rfl
  | _ => cases h

/-- Where neither a loop nor a function is around, no control signal is allowed. -/
theorem Signal.not_isControl_of_isAllowed {s : Signal} (h : s.isAllowed false false = true) :
    s.isControl = false := by
  cases s with
  | returned | broke | continued => cases h
  | _ => rfl

def Machine.Contained (m : Machine) : Prop :=
  ∀ c ∈ m.codes, Node.containedAll false true c.body = true

namespace Exec

/-! ### Computations that contain their signals -/

/-- From a contained machine, the machine stays contained, and only signals that are allowed in the
given place leave the computation. -/
def Contains (inLoop inFunc : Bool) (x : Exec α) : Prop :=
  ∀ m : Machine, m.Contained → (x.run m).2.Contained ∧
    ∀ s, (x.run m).1 = .error s → s.isAllowed inLoop inFunc = true

variable {l f : Bool}

namespace Contains

theorem pure (a : α) : Contains l f (pure a : Exec α) := fun _ hm => ⟨hm, nofun⟩

theorem throw {s : Signal} (hs : s.isAllowed l f = true) : Contains l f (throw s : Exec α) :=
  fun _ hm => ⟨hm, fun _ h => by cases h; exact hs⟩

theorem get : Contains l f (get : Exec Machine) := fun _ hm => ⟨hm, nofun⟩

theorem modify {k : Machine → Machine} (hk : ∀ m, (k m).codes = m.codes) :
    Contains l f (modify k : Exec PUnit) :=
  fun m hm => ⟨fun c hc => hm c (hk m ▸ hc), nofun⟩

theorem host (x : HostExec α) : Contains l f (liftM x : Exec α) := by
  intro m hm
  refine ⟨hm, fun s hs => ?_⟩
  rw [run_host] at hs
  rcases hrun : x.run m.toHost with ⟨s' | _, _⟩ <;> rw [hrun] at hs <;> cases hs
  cases s' <;> rfl

/-- The second computation may rely on what the first gives from a contained machine. -/
theorem bind_of_ok {x : Exec α} {k : α → Exec β} (hx : Contains l f x)
    (hk : ∀ (m m' : Machine) (a : α), m.Contained → x.run m = (.ok a, m') → Contains l f (k a)) :
    Contains l f (x >>= k) := by
  intro m hm
  have hkept := hx m hm
  rw [run_bind]
  rcases hrun : x.run m with ⟨s | a, m'⟩ <;> rw [hrun] at hkept
  · exact ⟨hkept.1, fun s' hs => by cases hs; exact hkept.2 s rfl⟩
  · exact hk m m' a hm hrun m' hkept.1

theorem bind {x : Exec α} {k : α → Exec β} (hx : Contains l f x) (hk : ∀ a, Contains l f (k a)) :
    Contains l f (x >>= k) := hx.bind_of_ok fun _ _ a _ _ => hk a

/-- A handler has to deal with those signals only that may leave what it guards. -/
theorem tryCatch {x : Exec α} {k : Signal → Exec α} {l' f' : Bool} (hx : Contains l' f' x)
    (hk : ∀ s, s.isAllowed l' f' = true → Contains l f (k s)) :
    Contains l f (tryCatch x k : Exec α) := by
  intro m hm
  have hrun := hx m hm
  rw [run_tryCatch]
  revert hrun
  rcases x.run m with ⟨s | a, m'⟩ <;> intro hrun
  · exact hk s (hrun.2 s rfl) m' hrun.1
  · exact ⟨hrun.1, nofun⟩

theorem inBlock (e : ScopeId) {x : Exec α} (hx : Contains l f x) : Contains l f (inBlock e x) :=
  fun m hm => hx { m with scopes := m.scopes.pushBlock e } hm

/-- A computation that no control signal leaves may stand anywhere. -/
theorem anywhere {x : Exec α} (hx : Contains false false x) : Contains l f x := fun m hm =>
  ⟨(hx m hm).1, fun s hs => Signal.isAllowed_of_not_isControl
    (Signal.not_isControl_of_isAllowed ((hx m hm).2 s hs)) l f⟩

end Contains

end Exec

def EngineDiscipline.containing (inLoop inFunc : Bool) : EngineDiscipline where
  Rel x _ := Exec.Contains inLoop inFunc x
  pure := .pure
  get := .get
  host := .host
  bind := .bind
  assignName e name v := by
    refine .bind .get fun m => ?_
    dsimp only
    split
    · exact .bind (.host _) fun _ => .modify fun _ => rfl
    · exact .modify fun _ => rfl
  Allowed s := s.isAllowed inLoop inFunc = true
  allowed h := Signal.isAllowed_of_isFailure h inLoop inFunc
  throw := .throw
  tryCatch hx hk _ := .tryCatch hx hk
  modifyScopes _ := .modify fun _ => rfl
  newScope _ := fun _ hm => ⟨hm, nofun⟩
  inScope _ := .modify fun _ => rfl
  inBlock e _ _ hx := .inBlock e hx
  setRoot _ := .modify fun _ => rfl
  passTyped := .modify fun _ => rfl

/-- What an engine evaluates and calls is left by no control signal, and what it executes only by
those that may leave the statement. -/
structure Engine.Contains (g : Engine) : Prop where
  execute : ∀ {l f : Bool} {node : Node}, node.contained l f = true →
    ∀ e, Exec.Contains l f (g.execute node e)
  evaluate : ∀ node e, Exec.Contains false false (g.evaluate node e)
  apply : ∀ f pos named, Exec.Contains false false (g.apply f pos named)

namespace Exec

variable {g : Engine} {l f : Bool}

/-! ### Calls -/

/-- The code of a function is among that of the machine. -/
theorem toCode_mem_of_closure? {v : Value} {c : Closure} {m m' : Machine}
    (h : (closure? v).run m = (.ok (some c), m')) : c.toCode ∈ m.codes := by
  have hhost {α : Type} {x : HostExec α} {a : α} {m m' : Machine}
      (h : (liftM x : Exec α).run m = (.ok a, m')) : m'.codes = m.codes := by
    rw [← (Prod.mk.inj h).2]
  unfold closure? at h
  obtain ⟨o, m₁, ho, h⟩ := run_bind_eq_ok.1 h
  split at h
  · obtain ⟨_, m₂, hrecord, h⟩ := run_bind_eq_ok.1 h
    obtain ⟨name, m₃, hname, h⟩ := run_bind_eq_ok.1 h
    obtain ⟨returns, m₄, hreturns, h⟩ := run_bind_eq_ok.1 h
    obtain ⟨_, _, ⟨⟩, h⟩ := run_bind_eq_ok.1 h
    obtain ⟨code, hcode, rfl⟩ := Option.map_eq_some_iff.1 (Except.ok.inj (Prod.mk.inj h).1)
    rw [← hhost ho, ← hhost hrecord, ← hhost hname, ← hhost hreturns]
    exact Array.mem_of_getElem? hcode
  · cases h

/-- Contained statements in a row contain their signals. -/
theorem contains_executeAll (hg : g.Contains) {nodes : List Node}
    (h : Node.containedAll l f nodes = true) (e : ScopeId) :
    (EngineDiscipline.containing l f).Holds (g.executeAll e nodes) := by
  have hall : ∀ s ∈ nodes, (EngineDiscipline.containing l f).Holds (g.execute s e) :=
    fun s hs => hg.execute (Node.containedAll_iff.1 h s hs) e
  exact rel_executeAll hall

/-- A call takes up what the body of the function returns. -/
theorem contains_returning (c : Closure) {x : Exec Value} (hx : Contains false true x) :
    (EngineDiscipline.containing false false).Holds (returning c x) := by
  refine .tryCatch hx fun s hs => ?_
  cases s with
  | returned v =>
    refine .bind .get fun m => ?_
    split
    · exact .bind (.host _) fun _ => .bind (.host _) fun _ => .pure v
    · exact .pure v
  | broke | continued => cases hs
  | _ => exact .throw rfl

/-- A call is left by no control signal, as functions take those of their bodies. -/
theorem contains_callingOr (hg : g.Contains) (v : Value) (pos : List Value) (named : Table Value)
    {other : Exec Value} (hother : Contains l f other) :
    Contains l f (callingOr g v pos named other) := by
  refine .bind_of_ok (holds_closure? (D := .containing l f) v) fun m m' c hm hrun => ?_
  cases c with
  | none => exact hother
  | some c =>
    have hbody := hm _ (toCode_mem_of_closure? hrun)
    have hevaluate : ∀ node e, (EngineDiscipline.containing false false).Holds
        (g.evaluate node e) := hg.evaluate
    have hcall := rel_callFunction hevaluate (fun e =>
      contains_returning c (contains_executeAll hg hbody e)) pos named
    exact .anywhere hcall

end Exec

theorem Engine.Contains.governs {g : Engine} (hg : g.Contains) (l f : Bool) :
    (EngineDiscipline.containing l f).Governs g g :=
  ⟨fun node e => (hg.evaluate node e).anywhere, fun v pos named => (hg.apply v pos named).anywhere,
    fun v pos named _ _ h => Exec.contains_callingOr hg v pos named h⟩

namespace Exec

variable {g : Engine} {l f : Bool}

/-! ### Statements -/

/-- A loop takes up the signals that leave it. -/
theorem contains_loopRound (e : ScopeId) {body : Exec Unit} (hbody : Contains true f body) :
    Contains l f (loopRound e body) := by
  refine .tryCatch (.bind (.inBlock e hbody) fun _ => .pure true) fun s hs => ?_
  cases s with
  | continued => exact .pure true
  | broke => exact .pure false
  | returned v => exact .throw hs
  | _ => exact .throw rfl

/-- The body of a loop is a block, or it is refused. -/
theorem eq_block_of_bodyStatements {body : Node} {statements : List Node} {m m' : Machine}
    (h : (liftM (bodyStatements body) : Exec (List Node)).run m = (.ok statements, m')) :
    body = .block statements := by
  cases body with
  | block => cases h; rfl
  | _ => cases h

theorem contains_loopBody (hg : g.Contains) {body : Node} (h : body.contained l f = true)
    (e : ScopeId) : Contains l f (do
      let _ ← g.executeAll e (← bodyStatements body)) := by
  refine .bind_of_ok (.host _) fun m m' statements _ hrun => ?_
  have hbody := eq_block_of_bodyStatements hrun
  subst hbody
  exact .bind (contains_executeAll hg h e) fun _ => .pure ()

/-- A round of a loop takes the signals that leave loops. -/
theorem contains_forRound (hg : g.Contains) (binder : String) {body : Node}
    (h : body.contained true f = true) (e : ScopeId) (v : Value) :
    (EngineDiscipline.containing l f).Holds (forRound g e binder body v) := by
  refine contains_loopRound e ?_
  dsimp only
  split
  · exact .bind (.modify fun _ => rfl) fun _ => contains_loopBody hg h e
  · exact contains_loopBody hg h e

theorem contains_whileRound (hg : g.Contains) {body : Node} (h : body.contained true f = true)
    (e : ScopeId) : (EngineDiscipline.containing l f).Holds (whileRound g e body) :=
  contains_loopRound e (contains_loopBody hg h e)

/-- A function is declared without running its body, which stays contained. -/
theorem contains_executeFunction (e : ScopeId) (name : String)
    (params : List (String × String × Node)) (returns : String) {body : List Node}
    (h : Node.containedAll false true body = true) :
    Contains l f (executeFunction e name params returns body) := by
  have hcode : Contains l f (newCode { params, body, scope := e }) := by
    intro m hm
    refine ⟨fun c hc => ?_, nofun⟩
    obtain hc | rfl := Array.mem_push.1 hc
    · exact hm c hc
    · exact h
  exact .bind hcode fun _ => .bind (.host _) fun _ => .bind (.host _) fun v =>
    (EngineDiscipline.containing l f).assignName e name v

/-- One step of execution contains its signals; case by case over the kinds of statements. -/
theorem contains_executeStep (hg : g.Contains) {node : Node} (h : node.contained l f = true)
    (e : ScopeId) : Contains l f (executeStep g node e) := by
  have hin {x : Exec Value} (hx : Contains l f x) : Contains l f (inScope e >>= fun _ => x) :=
    .bind (.modify fun _ => rfl) fun _ => hx
  have hD := hg.governs l f
  have hpart {part : Node} (h : part.contained l f = true) :
      (EngineDiscipline.containing l f).Holds (g.execute part e) := hg.execute h e
  cases node with
  | block statements => exact hin (.inBlock e (contains_executeAll hg h e))
  | func name params returns body =>
    exact hin (.bind (contains_executeFunction e name params returns h) fun _ => .pure _)
  | template name body =>
    exact hin (.bind (rel_executeTemplate (contains_executeAll hg h) e name) fun _ => .pure _)
  | cls name base body =>
    exact hin (.bind (rel_executeClass (contains_executeAll hg h) e name base) fun _ => .pure _)
  | ifStmt condition thenBlock elseBlock =>
    obtain ⟨hthen, helse⟩ := Bool.and_eq_true_iff.1 h
    refine hin (.bind (hD.evaluate condition e) fun v => .bind (.host _) fun b => ?_)
    split_ifs
    · exact hpart hthen
    · exact .pure _
    · exact hpart helse
  | forStmt binder iterable body =>
    refine hin (.bind (hD.evaluate iterable e) fun v => .bind (.host _) fun s => ?_)
    exact .bind (rel_forLoop (contains_forRound hg binder h e) g.rounds s) fun _ => .pure _
  | whileStmt condition body =>
    exact hin (.bind (rel_whileLoop (hD.evaluate condition e) (contains_whileRound hg h e)
      g.rounds) fun _ => .pure _)
  | returnStmt value => exact hin (.bind (hD.evaluate value e) fun v => .throw h)
  | breakStmt => exact hin (.throw h)
  | continueStmt => exact hin (.throw h)
  | tryCatch tryBlock binder catchBlock =>
    obtain ⟨htry, hcatch⟩ := Bool.and_eq_true_iff.1 h
    exact hin (rel_executeTry (hpart htry) binder (hpart hcatch))
  | _ => exact rel_executeStep_of_not_isCompound hD rfl e

end Exec

/-! ### Programs -/

/-- Calls of values that run no other statements contain their signals. -/
theorem Exec.contains_applyFull {g : Engine} (hg : g.Contains) {f : Value}
    (hf : f.runsPrograms = false) (pos : List Value) (named : Table Value) :
    Contains false false (applyFull g f pos named) := by
  unfold applyFull
  split
  · next part name =>
    unfold applyInternal
    split
    · exact .bind (.modify fun _ => rfl) fun _ => .pure _
    · exact .bind (.modify fun _ => rfl) fun _ => .pure _
    · cases hf
    · exact hg.evaluate _ _
    · exact .throw rfl
  · refine rel_applyValue (hg.governs false false) (fun b hb hruns => ?_) (fun _ _ => rfl) pos named
    subst hb
    exact absurd (hf.symm.trans hruns) Bool.false_ne_true

/-- By induction on the depth, with the calls that run other statements barred. -/
theorem Engine.contains_isolated (depth : Nat) : (Engine.isolated depth).Contains := by
  induction depth with
  | zero => exact ⟨fun _ _ => .throw rfl, fun _ _ => .throw rfl, fun _ _ _ => .throw rfl⟩
  | succ depth ih =>
    refine ⟨Exec.contains_executeStep ih, Exec.rel_evaluateStep (ih.governs false false),
      fun f pos named => ?_⟩
    change Exec.Contains false false (if f.runsPrograms then _ else _)
    split
    · exact .throw rfl
    · next hf => exact Exec.contains_applyFull ih (Bool.eq_false_of_not_eq_true hf) pos named

namespace Exec

/-- The run ended without a control signal, in a contained machine. -/
structure Settled (r : Except Signal α × Machine) : Prop where
  plain : ∀ s, r.1 = .error s → s.isControl = false
  contained : r.2.Contained

/-- In a contained machine a computation that contains its signals settles. -/
theorem Contains.settled {x : Exec α} (hx : Contains false false x) {m : Machine}
    (hm : m.Contained) : Settled (x.run m) :=
  ⟨fun s hs => Signal.not_isControl_of_isAllowed ((hx m hm).2 s hs), (hx m hm).1⟩

/-- Starting an interpreter declares no functions. -/
theorem contains_startInterpreter : Contains l f startInterpreter :=
  .bind (holds_restart (D := .containing l f) .default) fun _ _ hm => ⟨hm, nofun⟩

/-- A guarded block hands control signals on and does not run its handler. -/
theorem run_executeTry_of_isControl {g : Engine} {e : ScopeId} {tryBlock : Node}
    {m m' : Machine} {s : Signal} (hs : s.isControl = true)
    (h : (inBlock e (g.execute tryBlock e)).run m = (.error s, m')) (binder : String)
    (catchBlock : Node) : (executeTry g e tryBlock binder catchBlock).run m = (.error s, m') := by
  rw [executeTry, run_tryCatch, h]
  cases s with
  | returned | broke | continued => rfl
  | _ => cases hs

end Exec

/-- A program that takes the body of a loop out of a function and has it executed. -/
def looseBody : List Node :=
  [.cls "C" none [],
   .func "f" [] "auto" [.forStmt "i" (.list [.number (.int 1)]) (.block [.breakStmt])],
   .exprStmt (.call (.member (.member (.name "C") "interpreter") "execute")
    [.member (.binary (.member (.member (.name "f") "decl") "body") .index (.number (.int 0)))
      "body",
     .member (.name "f") "env"])]

/-- A function that returns out of a guarded block in a loop, and a loop that calls it and is
left. -/
def firstItem : List Node :=
  [.func "first" [("xs", "auto", .absent)] "auto"
    [.forStmt "x" (.name "xs") (.block
      [.tryCatch (.block [.returnStmt (.name "x")]) "problem" (.block [.continueStmt])])],
   .whileStmt (.call (.name "first") [.list [.number (.int 1)]]) (.block [.breakStmt])]

end ScriptLang
