import ScriptLang.Proofs.Run.Evaluate
import ScriptLang.Proofs.Scope.Evolution

/-!
# Disciplines

A discipline is a relation between computations in which the steps that computations are made of
are related to themselves, and that is inherited by what is put together from related computations.
A property of computations is such a relation that ignores the second one. All that an engine does
apart from statements is then related to what another engine does, if the computations of the two
are. So this is shown once for every discipline, by opening the definitions; the lemmas are known to
`grind`.
-/

namespace ScriptLang

open Scopes (Evolves)

variable {α β : Type}

/-- A relation between computations in which reading, working on the host and assigning to a name
are related to themselves. -/
structure Discipline where
  Rel : {α : Type} → Exec α → Exec α → Prop
  pure : ∀ {α : Type} (a : α), Rel (pure a) (pure a)
  get : Rel (get : Exec Machine) get
  host : ∀ {α : Type} (x : HostExec α), Rel (liftM x : Exec α) (liftM x)
  bind : ∀ {α β : Type} {x y : Exec α} {f k : α → Exec β}, Rel x y → (∀ a, Rel (f a) (k a)) →
    Rel (x >>= f) (y >>= k)
  assignName : ∀ (e : ScopeId) (name : String) (v : Value),
    Rel (Exec.assignName e name v) (Exec.assignName e name v)

attribute [grind .] Discipline.pure Discipline.get Discipline.host Discipline.bind
  Discipline.assignName

namespace Discipline

variable (D : Discipline)

abbrev Holds (x : Exec α) : Prop := D.Rel x x

@[grind .]
theorem map (f : α → β) {x y : Exec α} (h : D.Rel x y) : D.Rel (f <$> x) (f <$> y) := by
  rw [map_eq_pure_bind, map_eq_pure_bind]
  exact D.bind h fun a => D.pure (f a)

@[grind .]
theorem forIn {l : List α} {b : β} {f k : α → β → Exec (ForInStep β)}
    (h : ∀ a b, D.Rel (f a b) (k a b)) : D.Rel (forIn l b f : Exec β) (forIn l b k) := by
  induction l generalizing b with
  | nil => exact D.pure b
  | cons a l ih =>
    rw [List.forIn_cons, List.forIn_cons]
    refine D.bind (h a b) fun r => ?_
    cases r with
    | done b => exact D.pure b
    | yield b => exact ih

@[grind .]
theorem mapM {l : List α} {f k : α → Exec β} (h : ∀ a, D.Rel (f a) (k a)) :
    D.Rel (l.mapM f) (l.mapM k) := by
  induction l with
  | nil => exact D.pure []
  | cons a l ih =>
    rw [List.mapM_cons, List.mapM_cons]
    exact D.bind (h a) fun b => D.bind ih fun bs => D.pure (b :: bs)

@[grind .]
theorem filterMapM {l : List α} {f k : α → Exec (Option β)} (h : ∀ a, D.Rel (f a) (k a)) :
    D.Rel (l.filterMapM f) (l.filterMapM k) := by
  induction l with
  | nil => exact D.pure []
  | cons a l ih =>
    rw [List.filterMapM_cons, List.filterMapM_cons]
    refine D.bind (h a) fun b => ?_
    cases b with
    | none => exact ih
    | some b => exact D.bind ih fun bs => D.pure (b :: bs)

end Discipline

/-- The signals by which statements leave a loop or a function. -/
def Signal.isControl : Signal → Bool
  | .returned _ | .broke | .continued => true
  | _ => false

def Signal.isFailure : Signal → Bool
  | .raised _ | .interrupted | .exhausted => true
  | _ => false

/-- A handler that hands on the signals that no program can catch. -/
structure Exec.HandsOn (f : Signal → Exec α) : Prop where
  exit : ∀ code m, (f (.exit code)).run m = (.error (.exit code), m)
  interrupted : ∀ m, (f .interrupted).run m = (.error .interrupted, m)
  exhausted : ∀ m, (f .exhausted).run m = (.error .exhausted, m)

/-- A discipline that also lets computations change the scopes and end early. A computation that
reaches its bound is related to every other. -/
structure EngineDiscipline extends Discipline where
  /-- The signals that a computation may end with of its own accord. -/
  Allowed : Signal → Prop
  allowed : ∀ {s : Signal}, s.isFailure = true → Allowed s
  throw : ∀ {α : Type} {s : Signal}, Allowed s → Rel (throw s : Exec α) (throw s)
  tryCatch : ∀ {α : Type} {x y : Exec α} {f k : Signal → Exec α}, Rel x y →
    (∀ s, Allowed s → Rel (f s) (k s)) → Exec.HandsOn f → Rel (tryCatch x f) (tryCatch y k)
  modifyScopes : ∀ {f : Scopes Value → Scopes Value}, (∀ ss, Evolves ss (f ss)) →
    Rel (Exec.modifyScopes f) (Exec.modifyScopes f)
  newScope : ∀ parent : Option ScopeId, Rel (Exec.newScope parent) (Exec.newScope parent)
  inScope : ∀ e : ScopeId, Rel (Exec.inScope e) (Exec.inScope e)
  inBlock : ∀ {α : Type} (e : ScopeId) {x y : Exec α}, Rel x y →
    Rel (Exec.inBlock e x) (Exec.inBlock e y)
  setRoot : ∀ root : ScopeId, Rel (modify fun m => { m with root } : Exec PUnit)
    (modify fun m => { m with root })
  passTyped : Rel Exec.passTyped Exec.passTyped

attribute [grind .] EngineDiscipline.allowed EngineDiscipline.throw EngineDiscipline.modifyScopes
  EngineDiscipline.newScope EngineDiscipline.inScope EngineDiscipline.inBlock
  EngineDiscipline.passTyped

attribute [grind =] Signal.isFailure

namespace Exec

/-! ### Names and modules -/

section

variable {D : Discipline}

@[grind .]
theorem holds_lookup (e : ScopeId) (name : String) : D.Holds (lookup e name) := by
  unfold lookup
  grind -funext

@[grind .]
theorem holds_ensureModule (name : String) : D.Holds (ensureModule name) := by
  unfold ensureModule
  grind -funext

@[grind .]
theorem holds_addMember (name : String) (id : Value) : D.Holds (addMember name id) := by
  unfold addMember
  grind -funext

@[grind .]
theorem holds_define (module id content doc : Value) :
    D.Holds (define module id content doc) := by
  unfold define
  refine D.bind D.get fun m => ?_
  split
  · refine D.bind (holds_ensureModule _) fun _ => D.bind (holds_ensureModule _) fun _ => ?_
    grind -funext
  · grind -funext

@[grind .]
theorem holds_members? (name : String) : D.Holds (members? name) := by
  unfold members?
  grind -funext

@[grind .]
theorem holds_defineAll (ds : List Definition) : D.Holds (defineAll ds) := by
  unfold defineAll
  grind -funext

@[grind .]
theorem holds_enableEnvironment : D.Holds enableEnvironment :=
  holds_defineAll _

@[grind .]
theorem holds_enableExtra : D.Holds enableExtra := by
  unfold enableExtra
  grind -funext

@[grind .]
theorem holds_enableImports : D.Holds enableImports := by
  unfold enableImports
  refine D.bind holds_enableEnvironment fun _ => D.bind (D.host _) fun _ => ?_
  grind -funext

@[grind .]
theorem holds_enable (module : Module) : D.Holds (enable module) := by
  unfold enable
  grind -funext

@[grind .]
theorem holds_enableNamed (id : String) : D.Holds (enableNamed id) := by
  unfold enableNamed
  grind -funext

end

variable {D : EngineDiscipline}

@[grind .]
theorem holds_unsetRoot (name : String) : D.Holds (unsetRoot name) := by
  unfold unsetRoot
  grind -funext

@[grind .]
theorem holds_undefine (module id : Value) : D.Holds (undefine module id) := by
  unfold undefine
  split
  · grind -funext
  · split
    all_goals
      refine D.bind (by grind -funext) fun isWhole => D.bind (D.host _) fun name =>
        D.bind (holds_members? name) fun found => ?_
      split
      · grind -funext
      · split <;> grind -funext

@[grind .]
theorem holds_restart (module : Module) : D.Holds (restart module) :=
  D.bind (D.newScope none) fun root => D.bind (D.setRoot root) fun _ => holds_enable module

end Exec

structure EngineDiscipline.Governs (D : EngineDiscipline) (g g' : Engine) : Prop where
  evaluate : ∀ node e, D.Rel (g.evaluate node e) (g'.evaluate node e)
  apply : ∀ f pos named, D.Rel (g.apply f pos named) (g'.apply f pos named)
  callingOr : ∀ f pos named {x y}, D.Rel x y →
    D.Rel (Exec.callingOr g f pos named x) (Exec.callingOr g' f pos named y)

attribute [grind .] EngineDiscipline.Governs.evaluate EngineDiscipline.Governs.apply
  EngineDiscipline.Governs.callingOr

namespace Exec

variable {D : EngineDiscipline} {g g' : Engine}

/-! ### Operations of values -/

@[grind .]
theorem rel_sortList (hg : D.Governs g g') (r : Ref) (items args : List Value)
    (named : Table Value) :
    D.Rel (sortList g r items args named) (sortList g' r items args named) := by
  unfold sortList
  extract_lets sort checkNames sort' checkNames'
  have hsort (u : Unit) : D.Rel (sort u) (sort' u) := by
    refine D.bind (D.host _) fun descending => D.bind (D.mapM fun v => ?_) fun keyed => ?_ <;>
      grind -funext
  clear_value sort sort'
  have hnames (u : Unit) : D.Rel (checkNames u) (checkNames' u) := by grind -funext
  clear_value checkNames checkNames'
  grind -funext

@[grind .]
theorem rel_listOperation (hg : D.Governs g g') (r : Ref) (items : List Value) (name : String)
    (args : List Value) (named : Table Value) :
    D.Rel (listOperation g r items name args named) (listOperation g' r items name args named) := by
  unfold listOperation
  grind -funext

@[grind .]
theorem rel_operation (hg : D.Governs g g') (receiver : Value) (name : String)
    (args : List Value) (named : Table Value) :
    D.Rel (operation g receiver name args named) (operation g' receiver name args named) := by
  unfold operation
  split
  case h_6 r =>
    refine D.bind (D.host _) fun o => ?_
    split <;> grind -funext
  all_goals grind -funext

@[grind .]
theorem rel_typeOperation (hg : D.Governs g g') (t : Builtin) (name : String)
    (args : List Value) (named : Table Value) :
    D.Rel (typeOperation g t name args named) (typeOperation g' t name args named) := by
  unfold typeOperation
  grind -funext

/-! ### Input and globals -/

@[grind .]
theorem holds_showLine (v : Value) : D.Holds (showLine v) := by
  unfold showLine namesOf
  grind -funext

@[grind .]
theorem holds_takeTyped (editor : Editor) (typed : List Typed) :
    D.Holds (takeTyped editor typed) := by
  induction typed with
  | nil => exact D.host _
  | cons t typed ih => cases t <;> unfold takeTyped <;> grind -funext [completions]

@[grind .]
theorem holds_ask (prompt : String) : D.Holds (ask prompt) := by
  unfold ask promptLine
  grind -funext

@[grind .]
theorem holds_memoryUsage : D.Holds memoryUsage := by
  unfold memoryUsage
  grind -funext

@[grind .]
theorem holds_clearGlobal (root : ScopeId) (v : Value) : D.Holds (clearGlobal root v) := by
  unfold clearGlobal
  grind -funext

@[grind .]
theorem holds_clearGlobals (names : Value) : D.Holds (clearGlobals names) := by
  unfold clearGlobals
  grind -funext

/-! ### Libraries -/

@[grind .]
theorem holds_importPlain (path : String) : D.Holds (importPlain path) := by
  unfold importPlain
  refine D.bind (D.host _) fun _ => D.bind (D.host _) fun ds => ?_
  grind -funext

@[grind .]
theorem holds_globalNames : D.Holds globalNames := by
  unfold globalNames
  grind -funext

@[grind .]
theorem holds_moveInto (module : Value) (name : String) : D.Holds (moveInto module name) := by
  unfold moveInto
  grind -funext

@[grind .]
theorem rel_orElseOnError {α : Type} {x y : Exec α} (h : D.Rel x y) (a : α) :
    D.Rel (orElseOnError x a) (orElseOnError y a) := by
  refine D.tryCatch h (fun s hs => ?_) ⟨fun _ _ => rfl, fun _ => rfl, fun _ => rfl⟩
  split <;> grind -funext

@[grind .]
theorem holds_settleNames (before : List String) (r : Request) :
    D.Holds (settleNames before r) := by
  unfold settleNames
  refine D.bind D.get fun m => D.bind holds_globalNames fun names => D.bind D.get fun _ => ?_
  extract_lets st isWanted keep drop dropRest settle
  have hrest (u : Unit) : D.Holds (dropRest u) := by grind -funext
  have hsettle (u : Unit) : D.Holds (settle u) := by
    refine D.bind (D.host _) fun aliased => ?_
    split
    · refine D.bind (D.forIn fun n _ => ?_) fun _ => hrest ()
      grind -funext
    · exact hrest ()
  clear_value settle
  grind -funext

@[grind .]
theorem holds_importModule (r : Request) (paths : List Value) :
    D.Holds (importModule r paths) := by
  unfold importModule
  refine D.bind (D.host _) fun extra => D.bind (by grind -funext) fun _ =>
    D.bind (by grind -funext) fun _ => D.bind (D.host _) fun ds =>
    D.bind (D.host _) fun aliased => ?_
  extract_lets target bindAll
  have hbind (names : List String) : D.Holds (bindAll names) := by
    refine D.bind D.get fun m => D.bind (D.forIn fun name _ => ?_) fun _ => D.pure _
    grind -funext
  clear_value bindAll
  grind -funext

section

variable (hrun : ∀ nodes, D.Rel (g.interpretAll nodes) (g'.interpretAll nodes))
include hrun

@[grind .]
theorem rel_importProgram (path : String) (r : Request) :
    D.Rel (importProgram g path r) (importProgram g' path r) := by
  unfold importProgram Engine.interpretText
  grind -funext

@[grind .]
theorem rel_importOne (r : Request) : D.Rel (importOne g r) (importOne g' r) := by
  unfold importOne
  extract_lets importFile
  have hfile (path : String) : D.Holds (importFile path) := by grind -funext
  clear_value importFile
  have hlast : D.Holds (orElseOnError (importModule r r.paths *> pure true) false) := by
    rw [seqRight_eq_bind]
    grind -funext
  simp only [seqRight_eq_bind] at hlast ⊢
  refine D.bind D.get fun m => ?_
  split <;> grind -funext

@[grind .]
theorem rel_importAll (specs : List Value) : D.Rel (importAll g specs) (importAll g' specs) := by
  unfold importAll
  grind -funext

end

end Exec

/-! ### Provided functions -/

/-- The provided functions that run programs other than the one that calls them. -/
def Builtin.runsPrograms : Builtin → Bool
  | .execute | .importLibrary => true
  | _ => false

attribute [grind =] Builtin.runsPrograms

namespace Exec

variable {D : EngineDiscipline} {g g' : Engine}

@[grind .]
theorem rel_bestOf (op : String) {key key' : Value → Exec Value}
    (hkey : ∀ v, D.Rel (key v) (key' v)) (best : Value × Value) (vs : List Value) :
    D.Rel (bestOf op key best vs) (bestOf op key' best vs) := by
  induction vs generalizing best with
  | nil => exact D.pure _
  | cons v vs ih =>
    unfold bestOf
    grind -funext

@[grind .]
theorem rel_extremum (hg : D.Governs g g') (name op : String) (args : List Value)
    (named : Table Value) :
    D.Rel (extremum g name op args named) (extremum g' name op args named) := by
  unfold extremum
  extract_lets fallback key choose pick key' choose' pick'
  have hkey (v : Value) : D.Rel (key v) (key' v) := by grind -funext
  have hchoose (values : List Value) : D.Rel (choose values) (choose' values) := by
    clear_value key key'
    grind -funext
  have hpick (u : Unit) : D.Rel (pick u) (pick' u) := by
    clear_value choose choose'
    grind -funext
  clear_value pick pick'
  grind -funext

@[grind .]
theorem holds_askFor (args : List Value) (named : Table Value) : D.Holds (askFor args named) := by
  unfold askFor
  grind -funext

@[grind .]
theorem holds_scopeDict (e : ScopeId) : D.Holds (scopeDict e) := by
  unfold scopeDict
  grind -funext

@[grind .]
theorem holds_enableValue (v : Value) : D.Holds (enableValue v) := by
  unfold enableValue
  grind -funext

@[grind .]
theorem rel_applyBound {f : Builtin} (hrun : f.runsPrograms = true →
      ∀ nodes, D.Rel (g.interpretAll nodes) (g'.interpretAll nodes))
    (hexit : f = .exit → ∀ code, D.Allowed (.exit code)) (args : List Value) :
    D.Rel (applyBound g f args) (applyBound g' f args) := by
  unfold applyBound Engine.interpretText
  split <;> grind -funext

@[grind .]
theorem rel_applyBuiltin (hg : D.Governs g g') {f : Builtin} (hrun : f.runsPrograms = true →
      ∀ nodes, D.Rel (g.interpretAll nodes) (g'.interpretAll nodes))
    (hexit : f = .exit → ∀ code, D.Allowed (.exit code)) (args : List Value)
    (named : Table Value) : D.Rel (applyBuiltin g f args named) (applyBuiltin g' f args named) := by
  unfold applyBuiltin
  grind -funext

/-! ### Calls -/

@[grind .]
theorem holds_bindParam (e : ScopeId) (name : String) (v : Option Value) :
    D.Holds (bindParam e name v) := by
  unfold bindParam
  grind -funext

@[grind .]
theorem holds_closure? (v : Value) : D.Holds (closure? v) := by
  unfold closure?
  grind -funext

section

variable (hg : ∀ node e, D.Rel (g.evaluate node e) (g'.evaluate node e))
include hg

@[grind .]
theorem rel_defaultValue (e : ScopeId) (last : Option Value) (default : Node) :
    D.Rel (defaultValue g e last default) (defaultValue g' e last default) := by
  unfold defaultValue
  grind -funext

@[grind .]
theorem rel_bindParams (e : ScopeId) (named : Table Value) (last : Option Value)
    (params : List (String × String × Node)) (pos : List Value) :
    D.Rel (bindParams g (bindParam e) e named last params pos)
      (bindParams g' (bindParam e) e named last params pos) := by
  induction params generalizing last pos with
  | nil => exact D.pure _
  | cons p params ih => cases pos <;> unfold bindParams <;> grind -funext

/-- Calls are related if the bodies are, with their way to return. -/
theorem rel_callFunction {c : Closure} (hbody : ∀ e, D.Rel (returning c (g.executeAll e c.body))
      (returning c (g'.executeAll e c.body))) (pos : List Value) (named : Table Value) :
    D.Rel (callFunction g c pos named) (callFunction g' c pos named) := by
  unfold callFunction
  grind -funext

end

@[grind .]
theorem rel_callAny (hg : D.Governs g g') (f : Value) (pos : List Value) (named : Table Value) :
    D.Rel (callAny g f pos named) (callAny g' f pos named) :=
  hg.callingOr f pos named (hg.apply f pos named)

@[grind .]
theorem rel_instantiate (hg : D.Governs g g') (cls : Ref) (fields : Table Value)
    (pos : List Value) (named : Table Value) :
    D.Rel (instantiate g cls fields pos named) (instantiate g' cls fields pos named) := by
  unfold instantiate
  grind -funext

/-- Calls are related if calls of functions are, and those of programs that are run, and the end of
the program if it is called. -/
theorem rel_applyValue (hg : D.Governs g g') {f : Value}
    (hrun : ∀ b : Builtin, f = .builtin b → b.runsPrograms = true →
      ∀ nodes, D.Rel (g.interpretAll nodes) (g'.interpretAll nodes))
    (hexit : f = .builtin .exit → ∀ code, D.Allowed (.exit code)) (pos : List Value)
    (named : Table Value) : D.Rel (applyValue g f pos named) (applyValue g' f pos named) := by
  unfold applyValue
  split
  case h_4 r =>
    refine D.bind (D.host _) fun o => ?_
    split <;> grind -funext
  all_goals grind -funext

/-! ### Evaluation -/

@[grind .]
theorem rel_embeddedText (hg : D.Governs g g') (e : ScopeId) (source : String) :
    D.Rel (embeddedText g e source) (embeddedText g' e source) := by
  refine D.tryCatch ?_ (fun s hs => ?_) ⟨fun _ _ => rfl, fun _ => rfl, fun _ => rfl⟩ <;>
    grind -funext

@[grind .]
theorem rel_interpolate (hg : D.Governs g g') (e : ScopeId) (pieces : List TextPiece) :
    D.Rel (interpolate g e pieces) (interpolate g' e pieces) := by
  induction pieces with
  | nil => exact D.pure _
  | cons piece pieces ih => cases piece <;> unfold interpolate <;> grind -funext

@[grind .]
theorem rel_evaluateText (hg : D.Governs g g') (e : ScopeId) (s : String) :
    D.Rel (evaluateText g e s) (evaluateText g' e s) := by
  unfold evaluateText
  grind -funext

@[grind .]
theorem rel_evaluateAll (hg : D.Governs g g') (e : ScopeId) (nodes : List Node) :
    D.Rel (evaluateAll g e nodes) (evaluateAll g' e nodes) := by
  induction nodes with
  | nil => exact D.pure _
  | cons node nodes ih =>
    unfold evaluateAll
    grind -funext

@[grind .]
theorem rel_evaluatePairs (hg : D.Governs g g') (e : ScopeId) (t : Table Value)
    (pairs : List (String × Node)) :
    D.Rel (evaluatePairs g e t pairs) (evaluatePairs g' e t pairs) := by
  induction pairs generalizing t with
  | nil => exact D.pure _
  | cons p pairs ih =>
    unfold evaluatePairs
    grind -funext

@[grind .]
theorem rel_evaluateArgs (hg : D.Governs g g') (e : ScopeId) (pos : List Value)
    (named : Table Value) (args : List Node) :
    D.Rel (evaluateArgs g e pos named args) (evaluateArgs g' e pos named args) := by
  induction args generalizing pos named with
  | nil => exact D.pure _
  | cons node args ih =>
    unfold evaluateArgs
    split <;> grind -funext

@[grind .]
theorem rel_evaluateBinary (hg : D.Governs g g') (e : ScopeId) (left : Node) (op : BinaryOp)
    (right : Node) :
    D.Rel (evaluateBinary g e left op right) (evaluateBinary g' e left op right) := by
  unfold evaluateBinary
  grind -funext

@[grind .]
theorem rel_callee (hg : D.Governs g g') (e : ScopeId) (node : Node) :
    D.Rel (callee g e node) (callee g' e node) := by
  unfold callee
  grind -funext

@[grind .]
theorem rel_evaluateCall (hg : D.Governs g g') (e : ScopeId) (target : Node)
    (args : List Node) : D.Rel (evaluateCall g e target args) (evaluateCall g' e target args) := by
  unfold evaluateCall
  grind -funext

@[grind .]
theorem rel_evaluateMember (hg : D.Governs g g') (e : ScopeId) (object : Node) (name : String) :
    D.Rel (evaluateMember g e object name) (evaluateMember g' e object name) := by
  unfold evaluateMember
  grind -funext

/-- One step of evaluation is related if all parts are; case by case over the kinds of
expressions. -/
theorem rel_evaluateStep (hg : D.Governs g g') (node : Node) (e : ScopeId) :
    D.Rel (evaluateStep g node e) (evaluateStep g' node e) := by
  unfold evaluateStep
  grind -funext

/-! ### Assignments -/

@[grind .]
theorem rel_readTarget (hg : D.Governs g g') (e : ScopeId) (target : Node) :
    D.Rel (readTarget g e target) (readTarget g' e target) := by
  unfold readTarget
  grind -funext

@[grind .]
theorem rel_assignTarget (hg : D.Governs g g') (e : ScopeId) (target : Node) (value : Value) :
    D.Rel (assignTarget g e target value) (assignTarget g' e target value) := by
  unfold assignTarget
  grind -funext

@[grind .]
theorem holds_redeclare (e : ScopeId) (name : String) (v : Value) (b : Binding) :
    D.Holds (redeclare e name v b) := by
  refine D.modifyScopes fun ss => ?_
  dsimp only
  split
  · exact (Evolves.unset ss _ name).trans (.declare ..)
  · exact .declare ..

@[grind .]
theorem rel_executeAssign (hg : D.Governs g g') (e : ScopeId) (name : Option String)
    (expr target : Node) (b : Binding) :
    D.Rel (executeAssign g e name expr target b) (executeAssign g' e name expr target b) := by
  unfold executeAssign
  grind -funext

@[grind .]
theorem holds_currentOrZero (e : ScopeId) (name : String) :
    D.Holds (currentOrZero e name) := by
  unfold currentOrZero
  grind -funext

@[grind .]
theorem rel_executeAugAssign (hg : D.Governs g g') (e : ScopeId) (name : Option String)
    (op : AssignOp) (expr target : Node) :
    D.Rel (executeAugAssign g e name op expr target)
      (executeAugAssign g' e name op expr target) := by
  unfold executeAugAssign
  grind -funext

@[grind .]
theorem holds_baseValue (e : ScopeId) (base : Option String) : D.Holds (baseValue e base) := by
  unfold baseValue
  grind -funext

/-! ### Statements -/

/-- Statements in a row are related if each of them is. -/
theorem rel_executeAll {e : ScopeId} {nodes : List Node}
    (h : ∀ s ∈ nodes, D.Rel (g.execute s e) (g'.execute s e)) :
    D.Rel (g.executeAll e nodes) (g'.executeAll e nodes) := by
  induction nodes with
  | nil => exact D.pure _
  | cons s nodes ih =>
    have hs := h s List.mem_cons_self
    have hrest := ih (List.forall_mem_of_forall_mem_cons h)
    cases nodes with
    | nil => exact hs
    | cons s' nodes => exact D.bind hs fun _ => hrest

theorem rel_interpretAll {nodes : List Node}
    (h : ∀ s ∈ nodes, ∀ e, D.Rel (g.execute s e) (g'.execute s e)) :
    D.Rel (g.interpretAll nodes) (g'.interpretAll nodes) := by
  induction nodes with
  | nil => exact D.pure _
  | cons s nodes ih =>
    have hs := h s List.mem_cons_self
    have hrest := ih (List.forall_mem_of_forall_mem_cons h)
    cases nodes with
    | nil => exact D.bind D.get fun m => hs m.root
    | cons s' nodes => exact D.bind D.get fun m => D.bind (hs m.root) fun _ => hrest

theorem rel_executeTemplate {body : List Node}
    (h : ∀ e, D.Rel (g.executeAll e body) (g'.executeAll e body)) (e : ScopeId) (name : String) :
    D.Rel (executeTemplate g e name body) (executeTemplate g' e name body) := by
  unfold executeTemplate
  grind -funext

theorem rel_executeClass {body : List Node}
    (h : ∀ e, D.Rel (g.executeAll e body) (g'.executeAll e body)) (e : ScopeId) (name : String)
    (base : Option String) :
    D.Rel (executeClass g e name base body) (executeClass g' e name base body) := by
  unfold executeClass
  refine D.bind (holds_baseValue e base) fun v => D.bind (D.host _) fun members => ?_
  grind -funext

/-- By induction on the rounds: a loop is related if each round is. -/
theorem rel_forLoop {e : ScopeId} {binder : String} {body : Node}
    (h : ∀ v, D.Rel (forRound g e binder body v) (forRound g' e binder body v)) (rounds : Nat)
    (s : Series) :
    D.Rel (forLoop g e binder body rounds s) (forLoop g' e binder body rounds s) := by
  induction rounds generalizing s with
  | zero => exact D.throw (D.allowed rfl)
  | succ rounds ih =>
    unfold forLoop
    refine D.bind (D.host _) fun next => ?_
    split
    · exact D.pure _
    · grind -funext

theorem rel_whileLoop {e : ScopeId} {condition body : Node}
    (hcondition : D.Rel (g.evaluate condition e) (g'.evaluate condition e))
    (h : D.Rel (whileRound g e body) (whileRound g' e body)) (rounds : Nat) :
    D.Rel (whileLoop g e condition body rounds) (whileLoop g' e condition body rounds) := by
  induction rounds with
  | zero => exact D.throw (D.allowed rfl)
  | succ rounds ih =>
    unfold whileLoop
    grind -funext

/-- Both blocks of a guarded statement are related, and errors reach the second one alike. -/
theorem rel_executeTry {e : ScopeId} {tryBlock catchBlock : Node}
    (htry : D.Rel (g.execute tryBlock e) (g'.execute tryBlock e)) (binder : String)
    (hcatch : D.Rel (g.execute catchBlock e) (g'.execute catchBlock e)) :
    D.Rel (executeTry g e tryBlock binder catchBlock)
      (executeTry g' e tryBlock binder catchBlock) := by
  refine D.tryCatch (D.inBlock e htry) (fun s hs => ?_) ⟨fun _ _ => rfl, fun _ => rfl, fun _ => rfl⟩
  split <;> grind -funext

end Exec

/-- Whether a statement holds others, or leaves what it stands in. -/
def Node.isCompound : Node → Bool
  | .block _ | .ifStmt .. | .forStmt .. | .whileStmt .. | .tryCatch .. | .func .. | .template ..
  | .cls .. | .returnStmt _ | .breakStmt | .continueStmt => true
  | _ => false

attribute [grind =] Node.isCompound

/-- Statements that hold no others are related as expressions are. -/
theorem Exec.rel_executeStep_of_not_isCompound {D : EngineDiscipline} {g g' : Engine}
    (hg : D.Governs g g') {node : Node} (h : node.isCompound = false) (e : ScopeId) :
    D.Rel (executeStep g node e) (executeStep g' node e) := by
  unfold executeStep
  refine D.bind (D.inScope e) fun _ => ?_
  split <;> grind -funext

/-! ### Disciplines without conditions on programs -/

/-- A discipline under which computations may leave loops and functions and declare every
function. -/
structure FreeDiscipline extends EngineDiscipline where
  allows : ∀ {s : Signal}, s.isControl = true → Allowed s
  newCode : ∀ c : Code, Rel (Exec.newCode c) (Exec.newCode c)

structure FreeDiscipline.GovernsAll (D : FreeDiscipline) (g g' : Engine) : Prop where
  execute : ∀ node e, D.Rel (g.execute node e) (g'.execute node e)
  evaluate : ∀ node e, D.Rel (g.evaluate node e) (g'.evaluate node e)
  apply : ∀ f pos named, D.Rel (g.apply f pos named) (g'.apply f pos named)
  rounds : g.rounds = g'.rounds

namespace Exec

variable {D : FreeDiscipline} {g g' : Engine}

theorem rel_loopRound (e : ScopeId) {x y : Exec Unit} (h : D.Rel x y) :
    D.Rel (loopRound e x) (loopRound e y) := by
  refine D.tryCatch (D.bind (D.inBlock e h) fun _ => D.pure true) (fun s hs => ?_)
    ⟨fun _ _ => rfl, fun _ => rfl, fun _ => rfl⟩
  split
  · exact D.pure true
  · exact D.pure false
  · exact D.throw hs

theorem rel_executeBody (hg : D.GovernsAll g g') (body : List Node) (e : ScopeId) :
    D.Rel (g.executeAll e body) (g'.executeAll e body) := rel_executeAll fun s _ => hg.execute s e

theorem rel_forRound (hg : D.GovernsAll g g') (e : ScopeId) (binder : String) (body : Node)
    (v : Value) : D.Rel (forRound g e binder body v) (forRound g' e binder body v) := by
  have hbody (body : List Node) := rel_executeBody hg body e
  exact rel_loopRound e (by grind -funext)

theorem rel_whileRound (hg : D.GovernsAll g g') (e : ScopeId) (body : Node) :
    D.Rel (whileRound g e body) (whileRound g' e body) :=
  rel_loopRound e (D.bind (D.host _) fun body =>
    D.bind (rel_executeBody hg body e) fun _ => D.pure ())

end Exec

open Exec in
theorem FreeDiscipline.GovernsAll.governs {D : FreeDiscipline} {g g' : Engine}
    (hg : D.GovernsAll g g') : D.Governs g g' := by
  refine ⟨hg.evaluate, hg.apply, fun f pos named {x y} hother => ?_⟩
  refine D.bind (holds_closure? f) fun c => ?_
  cases c with
  | none => exact hother
  | some c =>
    refine rel_callFunction hg.evaluate (fun e => ?_) pos named
    refine D.tryCatch (rel_executeBody hg c.body e) (fun s hs => ?_)
      ⟨fun _ _ => rfl, fun _ => rfl, fun _ => rfl⟩
    grind -funext

open Exec in
/-- One step of execution is related if all parts are; case by case over the kinds of statements. -/
theorem Exec.rel_executeStep {D : FreeDiscipline} {g g' : Engine} (hg : D.GovernsAll g g')
    (node : Node) (e : ScopeId) : D.Rel (executeStep g node e) (executeStep g' node e) := by
  have hin {x y : Exec Value} (h : D.Rel x y) :
      D.Rel (inScope e >>= fun _ => x) (inScope e >>= fun _ => y) :=
    D.bind (D.inScope e) fun _ => h
  cases node with
  | block statements => exact hin (D.inBlock e (rel_executeBody hg statements e))
  | func name params returns body =>
    have hcode := D.newCode { params, body, scope := e }
    exact hin (D.bind (D.bind hcode fun _ => D.bind (D.host _) fun _ => D.bind (D.host _) fun v =>
      D.assignName e name v) fun _ => D.pure _)
  | template name body =>
    exact hin (D.bind (rel_executeTemplate (rel_executeBody hg body) e name) fun _ => D.pure _)
  | cls name base body =>
    exact hin (D.bind (rel_executeClass (rel_executeBody hg body) e name base) fun _ => D.pure _)
  | ifStmt condition thenBlock elseBlock =>
    refine hin (D.bind (hg.evaluate condition e) fun v => D.bind (D.host _) fun b => ?_)
    split_ifs
    · exact hg.execute thenBlock e
    · exact D.pure _
    · exact hg.execute elseBlock e
  | forStmt binder iterable body =>
    refine hin (D.bind (hg.evaluate iterable e) fun v => D.bind (D.host _) fun s => ?_)
    rw [hg.rounds]
    exact D.bind (rel_forLoop (rel_forRound hg e binder body) g'.rounds s) fun _ => D.pure _
  | whileStmt condition body =>
    refine hin ?_
    rw [hg.rounds]
    exact D.bind (rel_whileLoop (hg.evaluate condition e) (rel_whileRound hg e body) g'.rounds)
      fun _ => D.pure _
  | returnStmt value => exact hin (D.bind (hg.evaluate value e) fun v => D.throw (D.allows rfl))
  | breakStmt => exact hin (D.throw (D.allows rfl))
  | continueStmt => exact hin (D.throw (D.allows rfl))
  | tryCatch tryBlock binder catchBlock =>
    exact hin (rel_executeTry (hg.execute tryBlock e) binder (hg.execute catchBlock e))
  | _ => exact rel_executeStep_of_not_isCompound hg.governs rfl e

end ScriptLang
