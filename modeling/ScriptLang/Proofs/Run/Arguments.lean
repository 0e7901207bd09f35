import ScriptLang.Proofs.Run.Call
import ScriptLang.Proofs.Run.Notices
import ScriptLang.Proofs.Run.Pure

/-!
# Arguments and parameters

A call makes a new scope, gives each parameter a value and then runs the body. It rejects its
arguments in three places: before it binds the parameters if a keyword names none of them, while it
binds them if one has neither an argument nor a default, and after it if an argument was not used.
Together these decide one condition on the arguments, which is stated here without the order in
which a call finds out. If the arguments are accepted, the locals with which the body starts are
those that the parameters get one after the other.
-/

namespace ScriptLang

variable {α β : Type}

def Machine.entering (m : Machine) (parent : ScopeId) : Machine :=
  { m with scopes := m.scopes.calling parent [] [] }

def Machine.withLocal (m : Machine) (e : ScopeId) (name : String) (v : Value) : Machine :=
  { m with scopes :=
      if name = "_" then m.scopes else m.scopes.declare e name v false false true }

theorem Table.get?_append (t t' : Table α) (name : String) :
    Table.get? (t ++ t') name = (t.get? name).or (t'.get? name) := by
  induction t with
  | nil => rfl
  | cons entry t ih =>
    simp only [List.cons_append, Table.get?, ih]
    split <;> rfl

namespace Exec

variable {g : Engine} {e : ScopeId} {named : Table Value}
  {params pre post : List (String × String × Node)} {p : String × String × Node}
  {pos values : List Value} {m m' : Machine}

/-! ### Giving values to parameters -/

/-- Parameters get values one after the other: the positional arguments in order, then those of
their names, then those of their defaults. A default is evaluated after the parameters before it
were bound. -/
inductive Fills (g : Engine) (e : ScopeId) (named : Table Value) :
    List (String × String × Node) → List Value → Machine → List Value → Machine → Prop where
  | nil (pos : List Value) (m : Machine) : Fills g e named [] pos m [] m
  | positional {p : String × String × Node} {params : List (String × String × Node)} {v : Value}
      {pos values : List Value} {m m' : Machine} :
      Fills g e named params pos (m.withLocal e p.1 v) values m' →
      Fills g e named (p :: params) (v :: pos) m (v :: values) m'
  | named {p : String × String × Node} {params : List (String × String × Node)} {v : Value}
      {values : List Value} {m m' : Machine} : named.get? p.1 = some v →
      Fills g e named params [] (m.withLocal e p.1 v) values m' →
      Fills g e named (p :: params) [] m (v :: values) m'
  | default {p : String × String × Node} {params : List (String × String × Node)} {v : Value}
      {values : List Value} {m m₁ m' : Machine} : named.get? p.1 = none →
      p.2.2.isAbsent = false → (g.evaluate p.2.2 e).run m = (.ok v, m₁) →
      Fills g e named params [] (m₁.withLocal e p.1 v) values m' →
      Fills g e named (p :: params) [] m (v :: values) m'

/-- Each default that is needed has a value when its turn comes. -/
def DefaultsEvaluate (g : Engine) (e : ScopeId) (named : Table Value)
    (params : List (String × String × Node)) (pos : List Value) (m : Machine) : Prop :=
  ∀ pre p post values m₁, params = pre ++ p :: post → pos.length ≤ pre.length →
    Fills g e named pre pos m values m₁ → named.get? p.1 = none → p.2.2.isAbsent = false →
    ∃ v m₂, (g.evaluate p.2.2 e).run m₁ = (.ok v, m₂)

def IsMissing (named : Table Value) (p : String × String × Node) : Prop :=
  named.has p.1 = false ∧ p.2.2.isAbsent = true

/-- There are more positional arguments than parameters; or a keyword is not the name of a parameter
after those; or one of these parameters has neither an argument nor a default. -/
def Mismatch (params : List (String × String × Node)) (pos : List Value) (named : Table Value) :
    Prop :=
  params.length < pos.length ∨
    (∃ name ∈ named.names, ∀ p ∈ params.drop pos.length, p.1 ≠ name) ∨
    ∃ p ∈ params.drop pos.length, IsMissing named p

instance (named : Table Value) (p : String × String × Node) : Decidable (IsMissing named p) :=
  inferInstanceAs (Decidable (_ ∧ _))

instance (params : List (String × String × Node)) (pos : List Value) (named : Table Value) :
    Decidable (Mismatch params pos named) :=
  inferInstanceAs (Decidable (_ ∨ _ ∨ _))

def takenNames (named : Table Value) (params : List (String × String × Node)) : List String :=
  (params.map Prod.fst).filter named.has

/-- The names that were used are those of parameters that have an argument. -/
theorem mem_takenNames {name : String} :
    name ∈ takenNames named params ↔ (∃ p ∈ params, p.1 = name) ∧ named.has name = true := by
  simp [takenNames]

theorem run_newScope_some (parent : ScopeId) (m : Machine) :
    (newScope (some parent)).run m = (.ok m.scopes.size, m.entering parent) := by
  rw [run_newScope, Machine.entering, m.scopes.calling_nil]

/-- A parameter is bound whatever its name means elsewhere. -/
theorem run_declareParam (e : ScopeId) (name : String) (v : Value) (m : Machine) :
    (declareParam e name (some v)).run m = (.ok (), m.withLocal e name v) := by
  unfold declareParam Machine.withLocal
  by_cases hname : name = "_"
  · simp only [hname, bne_self_eq_false, Bool.false_eq_true, if_false, if_true]
    rfl
  · simp only [bne_iff_ne, ne_eq, hname, not_false_eq_true, if_true, if_false]
    rfl

/-- A default that has a value gives it. -/
theorem run_defaultValue {default : Node} {v : Value} (hdefault : default.isAbsent = false)
    (h : (g.evaluate default e).run m = (.ok v, m')) (last : Option Value) :
    (defaultValue g e last default).run m = (.ok (some v), m') := by
  simp only [defaultValue, hdefault, Bool.false_eq_true, if_false]
  rw [map_eq_pure_bind, run_bind, h]
  rfl

/-- The binding of parameters follows the values that they get: it goes on with the parameters after
them, and notes which names were used. -/
theorem run_bindParams_append (h : Fills g e named pre pos m values m') (last : Option Value) :
    ∃ last', ∀ post,
      (bindParams g (declareParam e) e named last (pre ++ post) pos).run m =
        ((fun r => (r.1, takenNames named (pre.drop pos.length) ++ r.2)) <$>
          bindParams g (declareParam e) e named last' post (pos.drop pre.length)).run m' := by
  -- the value before, which a silenced notice would fall back on, differs at each step
  induction h generalizing last with
  | nil pos m => exact ⟨last, fun post => by simp [takenNames]⟩
  | positional _ ih =>
    obtain ⟨last', ih⟩ := ih _
    refine ⟨last', fun post => ?_⟩
    rw [List.cons_append, bindParams, run_bind, run_declareParam]
    exact ih post
  | @named p params v values m m' hnamed _ ih =>
    obtain ⟨last', ih⟩ := ih (some v)
    refine ⟨last', fun post => ?_⟩
    have htaken : takenNames named (p :: params) = p.1 :: takenNames named params := by
      simp [takenNames, Table.has, hnamed]
    rw [List.cons_append, bindParams]
    simp only [hnamed]
    rw [run_bind, run_declareParam]
    simp only [run_bind, ih post]
    rw [← run_bind]
    simp [htaken]
  | @default p params v values m m₁ m' hnamed hdefault hv _ ih =>
    obtain ⟨last', ih⟩ := ih (some v)
    refine ⟨last', fun post => ?_⟩
    have htaken : takenNames named (p :: params) = takenNames named params := by
      simp [takenNames, Table.has, hnamed]
    rw [List.cons_append, bindParams]
    simp only [hnamed]
    rw [run_bind, run_defaultValue hdefault hv]
    dsimp only
    rw [run_bind, run_declareParam]
    simp [ih post, htaken]

namespace DefaultsEvaluate

/-- Defaults that evaluate do so for the first parameters alone. -/
theorem of_append (h : DefaultsEvaluate g e named (pre ++ post) pos m) :
    DefaultsEvaluate g e named pre pos m := by
  rintro pre' p post' values m₁ rfl
  exact h pre' p (post' ++ post) values m₁ (by simp)

/-- After a parameter got its value, the defaults of the others still evaluate. -/
theorem tail {pos' : List Value} {v : Value} {m₁ : Machine}
    (h : DefaultsEvaluate g e named (p :: params) pos m) (hlength : pos.length ≤ pos'.length + 1)
    (hcons : ∀ pre values m₂, Fills g e named pre pos' m₁ values m₂ →
      Fills g e named (p :: pre) pos m (v :: values) m₂) :
    DefaultsEvaluate g e named params pos' m₁ := by
  rintro pre q post values m₂ rfl hle hfills
  exact h (p :: pre) q post (v :: values) m₂ rfl (hlength.trans (Nat.succ_le_succ hle))
    (hcons pre values m₂ hfills)

/-- If no parameter is missing, all get values. -/
theorem exists_fills (h : DefaultsEvaluate g e named params pos m)
    (hgiven : ∀ p ∈ params.drop pos.length, ¬ IsMissing named p) :
    ∃ values m', Fills g e named params pos m values m' := by
  induction params generalizing pos m with
  | nil => exact ⟨[], m, .nil pos m⟩
  | cons p params ih =>
    cases pos with
    | cons v pos =>
      obtain ⟨values, m', hfills⟩ := ih (h.tail le_rfl fun _ _ _ => .positional) hgiven
      exact ⟨_, _, .positional hfills⟩
    | nil =>
      have hrest : ∀ q ∈ params, ¬ IsMissing named q :=
        fun q hq => hgiven q (List.mem_cons_of_mem _ hq)
      cases hnamed : named.get? p.1 with
      | some v =>
        obtain ⟨values, m', hfills⟩ := ih (h.tail (by simp) fun _ _ _ => .named hnamed) hrest
        exact ⟨_, _, .named hnamed hfills⟩
      | none =>
        have hdefault : p.2.2.isAbsent = false := by
          simpa [IsMissing, Table.has, hnamed] using hgiven p List.mem_cons_self
        obtain ⟨v, m₁, hv⟩ := h [] p params [] m rfl le_rfl (.nil [] m) hnamed hdefault
        obtain ⟨values, m', hfills⟩ :=
          ih (h.tail (by simp) fun _ _ _ => .default hnamed hdefault hv) hrest
        exact ⟨_, _, .default hnamed hdefault hv hfills⟩

end DefaultsEvaluate

/-- The first of the parameters that are missing. -/
theorem exists_first_missing (h : ∃ p ∈ params.drop pos.length, IsMissing named p) :
    ∃ pre p post, params = pre ++ p :: post ∧ pos.length ≤ pre.length ∧ IsMissing named p ∧
      ∀ q ∈ pre.drop pos.length, ¬ IsMissing named q := by
  obtain ⟨q, hq, hmissing⟩ := h
  have hsome : ((params.drop pos.length).find? (IsMissing named ·)).isSome :=
    List.find?_isSome.2 ⟨q, hq, by simpa using hmissing⟩
  obtain ⟨p, hp⟩ := Option.isSome_iff_exists.1 hsome
  obtain ⟨hp, before, post, hdrop, hbefore⟩ := List.find?_eq_some_iff_append.1 hp
  have hlength : (params.take pos.length).length = pos.length := by
    have := List.length_pos_of_mem hq
    simp only [List.length_drop, List.length_take] at this ⊢
    omega
  refine ⟨params.take pos.length ++ before, p, post, ?_, ?_, by simpa using hp, ?_⟩
  · rw [List.append_assoc, ← hdrop, List.take_append_drop]
  · simp [hlength]
  · rw [List.drop_append_of_le_length hlength.ge, List.drop_eq_nil_of_le hlength.le]
    simpa using hbefore

/-! ### What the values become -/

theorem get?_addLocal (locals : Table Value) (name x : String) (v : Value) :
    (addLocal locals name (some v)).get? x =
      if x ≠ "_" ∧ name = x then some v else locals.get? x := by
  unfold addLocal
  by_cases hname : name = "_"
  · rw [if_pos hname, if_neg fun h => h.1 (h.2 ▸ hname)]
  · rw [if_neg hname, Option.elim_some, Table.get?_set]
    refine if_congr ⟨fun h => ⟨h ▸ hname, h⟩, And.right⟩ rfl rfl

/-- A local has the value that its parameter got; of parameters with one name the last counts. -/
theorem get?_localsOf (hlength : values.length = params.length) (locals : Table Value)
    (x : String) :
    (localsOf params (values.map some) locals).get? x =
      if x = "_" then locals.get? x
      else (Table.get? ((params.map Prod.fst).zip values).reverse x).or (locals.get? x) := by
  induction params generalizing values locals with
  | nil => simp [localsOf, Table.get?]
  | cons p params ih =>
    cases values with
    | nil => cases hlength
    | cons v values =>
      change (localsOf params (values.map some) (addLocal locals p.1 (some v))).get? x = _
      rw [ih (Nat.succ_inj.1 hlength), get?_addLocal]
      by_cases hx : x = "_"
      · simp [hx]
      · simp only [hx, ne_eq, not_false_eq_true, true_and, if_false, List.map_cons,
          List.zip_cons_cons, List.reverse_cons, Table.get?_append, Table.get?, Option.or_assoc]
        split <;> rfl

theorem isCalling_withLocal {ss : Scopes Value} {parent : ScopeId} {locals : Table Value}
    (hm : ss.IsCalling parent locals m.scopes) (name : String) (v : Value) :
    ss.IsCalling parent (addLocal locals name (some v)) (m.withLocal ss.size name v).scopes := by
  unfold Machine.withLocal addLocal
  split
  · exact hm
  · exact hm.declare name v

/-- Filling parameters whose defaults have no calls makes objects and adds the locals; nothing else
changes. -/
theorem Fills.eq {depth : Nat} {ss : Scopes Value} {parent : ScopeId} {locals : Table Value}
    (h : Fills (.ofDepth depth) ss.size named params pos m values m')
    (hinert : ∀ p ∈ params, p.2.2.Inert) (hm : ss.IsCalling parent locals m.scopes) :
    values.length = params.length ∧
      ss.IsCalling parent (localsOf params (values.map some) locals) m'.scopes ∧
      ∃ store embedded current scopes, m' = { m with store, embedded, current, scopes } := by
  induction h generalizing locals with
  | nil pos m => exact ⟨rfl, hm, m.store, m.embedded, m.current, m.scopes, rfl⟩
  | positional _ ih | named _ _ ih =>
    obtain ⟨hlength, hm'⟩ := ih (fun q hq => hinert q (List.mem_cons_of_mem _ hq))
      (isCalling_withLocal hm _ _)
    exact ⟨congrArg Nat.succ hlength, hm'⟩
  | @default p params v values m m₁ m' _ _ hv _ ih =>
    have hm₁ := run_evaluate_inert_eq_ok (hinert p List.mem_cons_self) hv
    have hscopes : ss.IsCalling parent locals m₁.scopes := by rwa [hm₁]
    obtain ⟨hlength, hcalling, store, embedded, current, scopes, hm'⟩ :=
      ih (fun q hq => hinert q (List.mem_cons_of_mem _ hq)) (isCalling_withLocal hscopes _ _)
    refine ⟨congrArg Nat.succ hlength, hcalling, store, embedded, current, scopes, ?_⟩
    rw [hm', hm₁]
    rfl

/-! ### Rejecting arguments -/

/-- The computation ends the program with the notice that arguments and parameters do not match. -/
def Rejects (x : Exec α) (m : Machine) : Prop :=
  ∃ reader m', x.run m = (.error (.exit (.int 1)), m') ∧
    m'.world = m.world.emit (Notice.argumentMismatch.event reader)

def rejectIf (bad : Bool) : Exec Unit := do
  if bad then report .argumentMismatch

/-- The part of a call before its body: the parameters are bound in a new scope. -/
def matchArguments (g : Engine) (c : Closure) (pos : List Value) (named : Table Value) :
    Exec ScopeId := do
  let e ← newScope (some c.scope)
  rejectIf (named.names.any fun n => !c.params.any fun p => p.1 == n)
  let (rest, used) ← bindParams g (bindParam e) e named none c.params pos
  rejectIf !rest.isEmpty
  rejectIf (named.names.any fun n => !used.contains n)
  pure e

theorem rejectIf_bind (bad : Bool) (x : Exec α) :
    (rejectIf bad >>= fun _ => x) = if bad then (do report .argumentMismatch; x) else x := by
  cases bad <;> rfl

/-- A call is binding its parameters and then running its body. -/
theorem callFunction_eq (g : Engine) (c : Closure) (pos : List Value) (named : Table Value) :
    callFunction g c pos named = (do
      let e ← matchArguments g c pos named
      returning c (g.executeAll e c.body)) := by
  simp only [matchArguments, bind_assoc, pure_bind]
  simp only [rejectIf_bind]
  rfl

theorem rejects_report (hquiet : m.isQuiet = false) :
    Rejects (liftM (report .argumentMismatch) : Exec Unit) m := by
  refine ⟨m.reader, { m with world := m.world.emit (Notice.argumentMismatch.event m.reader) }, ?_,
    rfl⟩
  rw [run_host, run_report_shown hquiet]
  rfl

namespace Rejects

variable {x : Exec α} {f : α → Exec β}

theorem bind (h : Rejects x m) (f : α → Exec β) : Rejects (x >>= f) m := by
  obtain ⟨reader, m', hrun, hworld⟩ := h
  exact ⟨reader, m', by rw [run_bind, hrun], hworld⟩

theorem bind_of_ok {a : α} {m₁ : Machine} (hx : x.run m = (.ok a, m₁)) (hworld : m₁.world = m.world)
    (h : Rejects (f a) m₁) : Rejects (x >>= f) m := by
  obtain ⟨reader, m', hrun, hm'⟩ := h
  refine ⟨reader, m', ?_, by rw [hm', hworld]⟩
  rw [run_bind, hx]
  exact hrun

theorem rejectIf_bind {bad : Bool} (hquiet : m.isQuiet = false) (h : bad = false → Rejects x m) :
    Rejects (rejectIf bad >>= fun _ => x) m := by
  cases bad with
  | true => exact (rejects_report hquiet).bind _
  | false => exact h rfl

end Rejects

/-- A call at a level at which notices are shown. The names of the parameters are free around the
function, and the defaults have no calls and evaluate. -/
structure OrdinaryCall (depth : Nat) (c : Closure) (pos : List Value) (named : Table Value)
    (m : Machine) : Prop where
  shown : m.isQuiet = false
  chain : ∀ i ∈ m.scopes.chain c.scope, i < m.scopes.size
  free : ∀ p ∈ c.params, p.1 ≠ "_" → m.scopes.IsFree c.scope p.1
  inert : ∀ p ∈ c.params, p.2.2.Inert
  defaults : DefaultsEvaluate (.ofDepth depth) m.scopes.size named c.params pos
    (m.entering c.scope)

namespace OrdinaryCall

variable {depth : Nat} {c : Closure} (h : OrdinaryCall depth c pos named m)
include h

/-- The parameters are bound as if they were declared. -/
theorem run_bindParams :
    (bindParams (.ofDepth depth) (bindParam m.scopes.size) m.scopes.size named none c.params
        pos).run (m.entering c.scope) =
      (bindParams (.ofDepth depth) (declareParam m.scopes.size) m.scopes.size named none c.params
        pos).run (m.entering c.scope) :=
  run_bindParams_congr (respects_declareParam m.scopes c.scope)
    (fun p hp m => (scopes_evaluate_of_inert depth (h.inert p hp) _ m).symm)
    (fun p hp v _ ⟨_, hm⟩ => run_bindParam_of_isFree h.chain (h.free p hp) hm v)
    ⟨[], [], rfl⟩

/-- If all parameters get values, what is left over are the positional arguments beyond them. -/
theorem run_bindParams_of_fills
    (hfills : Fills (.ofDepth depth) m.scopes.size named c.params pos (m.entering c.scope) values
      m') :
    (bindParams (.ofDepth depth) (bindParam m.scopes.size) m.scopes.size named none c.params
        pos).run (m.entering c.scope) =
      (.ok (pos.drop c.params.length, takenNames named (c.params.drop pos.length)), m') := by
  obtain ⟨last, hrun⟩ := run_bindParams_append hfills none
  have hend := hrun []
  rw [List.append_nil] at hend
  rw [h.run_bindParams, hend, bindParams, map_pure, List.append_nil]
  rfl

/-- The binding of parameters stops at the first one that is missing. -/
theorem rejects_bindParams (hmissing : ∃ p ∈ c.params.drop pos.length, IsMissing named p) :
    Rejects (bindParams (.ofDepth depth) (bindParam m.scopes.size) m.scopes.size named none c.params
      pos) (m.entering c.scope) := by
  obtain ⟨pre, p, post, hparams, hlength, ⟨hname, hdefault⟩, hgiven⟩ :=
    exists_first_missing hmissing
  -- the parameters before it get values, so the binding goes on to it from a known machine
  have hdefaults := h.defaults
  rw [hparams] at hdefaults
  obtain ⟨values, m₁, hfills⟩ := hdefaults.of_append.exists_fills hgiven
  obtain ⟨-, -, store, embedded, current, scopes, hm₁⟩ := hfills.eq
    (fun q hq => h.inert q (hparams ▸ List.mem_append_left _ hq)) ⟨[], rfl⟩
  obtain ⟨last, hrun⟩ := run_bindParams_append hfills none
  have hnone : named.get? p.1 = none := by simpa [Table.has] using hname
  have hreject : Rejects (bindParams (.ofDepth depth) (declareParam m.scopes.size) m.scopes.size
      named last (p :: post) []) m₁ := by
    simp only [bindParams, hnone, defaultValue, hdefault, if_true]
    refine .bind (.bind (rejects_report ?_) _) _
    rw [hm₁]
    exact h.shown
  obtain ⟨reader, m', hrun', hworld⟩ := hreject
  refine ⟨reader, m', ?_, by rw [hworld, hm₁]⟩
  rw [h.run_bindParams, hparams, hrun, List.drop_eq_nil_of_le hlength, map_eq_pure_bind, run_bind,
    hrun']

/-- Arguments that do not match are rejected. -/
theorem rejects_of_mismatch (hmismatch : Mismatch c.params pos named) :
    Rejects (matchArguments (.ofDepth depth) c pos named) m := by
  refine .bind_of_ok (run_newScope_some c.scope m) rfl (.rejectIf_bind h.shown fun _ => ?_)
  by_cases hmissing : ∃ p ∈ c.params.drop pos.length, IsMissing named p
  · exact (h.rejects_bindParams hmissing).bind _
  -- all parameters get values, so that an argument is left over
  obtain ⟨values, m₁, hfills⟩ := h.defaults.exists_fills fun p hp hp' => hmissing ⟨p, hp, hp'⟩
  obtain ⟨-, -, store, embedded, current, scopes, hm₁⟩ := hfills.eq h.inert ⟨[], rfl⟩
  have hquiet : m₁.isQuiet = false := by
    rw [hm₁]
    exact h.shown
  refine .bind_of_ok (h.run_bindParams_of_fills hfills) (by rw [hm₁]) ?_
  refine .rejectIf_bind hquiet fun hrest => .rejectIf_bind hquiet fun hused => ?_
  exfalso
  rcases hmismatch with hlength | ⟨name, hname, hnone⟩ | hp
  · have hle : pos.length ≤ c.params.length := by simpa using hrest
    exact absurd hlength (Nat.not_lt.2 hle)
  · have htaken : name ∈ takenNames named (c.params.drop pos.length) := by
      simpa using List.any_eq_false.1 hused name hname
    obtain ⟨⟨p, hp, hpname⟩, -⟩ := mem_takenNames.1 htaken
    exact hnone p hp hpname
  · exact hmissing hp

/-- Arguments that match fill the parameters in order. -/
theorem run_matchArguments (hfits : ¬ Mismatch c.params pos named) :
    ∃ values m',
      Fills (.ofDepth depth) m.scopes.size named c.params pos (m.entering c.scope) values m' ∧
      (matchArguments (.ofDepth depth) c pos named).run m = (.ok m.scopes.size, m') := by
  simp only [Mismatch, not_or, Nat.not_lt] at hfits
  obtain ⟨hlength, hnames, hmissing⟩ := hfits
  have hfound (name : String) (hname : name ∈ named.names) :
      ∃ p ∈ c.params.drop pos.length, p.1 = name := by
    by_contra hnone
    exact hnames ⟨name, hname, fun p hp hpname => hnone ⟨p, hp, hpname⟩⟩
  obtain ⟨values, m', hfills⟩ := h.defaults.exists_fills fun p hp hp' => hmissing ⟨p, hp, hp'⟩
  refine ⟨values, m', hfills, ?_⟩
  have hknown : (named.names.any fun n => !c.params.any fun p => p.1 == n) = false := by
    refine List.any_eq_false.2 fun name hname => ?_
    obtain ⟨p, hp, hpname⟩ := hfound name hname
    simpa using ⟨p.2.1, p.2.2, hpname ▸ List.mem_of_mem_drop hp⟩
  have hused : (named.names.any fun n =>
      !(takenNames named (c.params.drop pos.length)).contains n) = false := by
    refine List.any_eq_false.2 fun name hname => ?_
    simpa using mem_takenNames.2 ⟨hfound name hname, Table.has_iff_mem_names.2 hname⟩
  have hrest : (!(pos.drop c.params.length).isEmpty) = false := by simpa using hlength
  rw [matchArguments, run_bind, run_newScope_some]
  dsimp only
  rw [hknown, run_bind]
  change (bindParams _ _ _ _ _ _ _ >>= _).run _ = _
  rw [run_bind, h.run_bindParams_of_fills hfills]
  dsimp only
  rw [hrest, hused]
  rfl

end OrdinaryCall

end Exec

open Exec in
/-- How arguments and parameters are matched. A call rejects its arguments before it runs the body
if and only if there are too many positional ones, or a keyword is not the name of a parameter after
those, or such a parameter has neither an argument nor a default. Otherwise the body starts in a new
scope inside that of the function, in which each parameter, except for a lone underscore, is bound
to the value it got; of parameters with one name the last one counts. Nothing was shown, and no
other scope has changed. -/
theorem arguments_rejected_iff {depth : Nat} {c : Closure} {pos : List Value} {named : Table Value}
    {m : Machine} (h : OrdinaryCall depth c pos named m) :
    let g := Engine.ofDepth depth
    (Rejects (matchArguments g c pos named) m ↔ Mismatch c.params pos named) ∧
    (Mismatch c.params pos named → Rejects (callFunction g c pos named) m) ∧
    (¬ Mismatch c.params pos named → ∃ values m',
      Fills g m.scopes.size named c.params pos (m.entering c.scope) values m' ∧
      (matchArguments g c pos named).run m = (.ok m.scopes.size, m') ∧
      (callFunction g c pos named).run m =
        (returning c (g.executeAll m.scopes.size c.body)).run m' ∧
      m'.world = m.world ∧ (∀ i < m.scopes.size, m'.scopes.scope i = m.scopes.scope i) ∧
      m'.scopes.chain m.scopes.size = m.scopes.size :: m.scopes.chain c.scope ∧
      values.length = c.params.length ∧
      ∀ x, (m'.scopes.scope m.scopes.size).vars.get? x =
        if x = "_" then none else Table.get? ((c.params.map Prod.fst).zip values).reverse x) := by
  intro g
  have haccepted := h.run_matchArguments
  refine ⟨⟨fun hrejects => ?_, h.rejects_of_mismatch⟩, fun hmismatch => ?_, fun hfits => ?_⟩
  · by_contra hfits
    obtain ⟨_, _, hrun, -⟩ := hrejects
    obtain ⟨values, m', -, hrun'⟩ := haccepted hfits
    cases hrun.symm.trans hrun'
  · rw [callFunction_eq]
    exact (h.rejects_of_mismatch hmismatch).bind _
  · obtain ⟨values, m', hfills, hrun⟩ := haccepted hfits
    obtain ⟨hlength, hcalling, store, embedded, current, scopes, hm'⟩ :=
      hfills.eq h.inert ⟨[], rfl⟩
    obtain ⟨hlocals, hkept⟩ := hcalling.scope
    refine ⟨values, m', hfills, hrun, ?_, ?_, hkept, hcalling.chain, hlength, fun x => ?_⟩
    · rw [callFunction_eq, run_bind, hrun]
    · rw [hm']
      rfl
    · rw [hlocals, get?_localsOf hlength]
      simp [Table.get?]

open Exec in
/-- `f(1, _ = 7, a = 5)` for a function with the parameters `a`, `b = a`, `_` and once more `a`: the
default sees the first value of `a`, and the body sees the last one. -/
theorem arguments_rejected_iff_repeated :
    let m : Machine := { scopes := #[{}] }
    let c : Closure :=
      { name := "f", returns := "auto", body := [], scope := 0,
        params := [("a", "auto", .absent), ("b", "auto", .name "a"), ("_", "auto", .absent),
          ("a", "auto", .absent)] }
    let named : Table Value := [("_", .int 7), ("a", .int 5)]
    OrdinaryCall 1 c [.int 1] named m ∧ ∃ m',
      (matchArguments (.ofDepth 1) c [.int 1] named).run m = (.ok 1, m') ∧
      (m'.scopes.scope 1).vars.get? "a" = some (.int 5) ∧
      (m'.scopes.scope 1).vars.get? "b" = some (.int 1) ∧
      (m'.scopes.scope 1).vars.get? "_" = none := by
  intro m c named
  have hdefaults : DefaultsEvaluate (.ofDepth 1) m.scopes.size named c.params [.int 1]
      (m.entering c.scope) := by
    intro pre p post values m₁ hparams hlength hfills _ hdefault
    rcases pre with _ | ⟨q, _ | ⟨q', pre⟩⟩
    · cases hlength
    · cases hparams
      rcases hfills with _ | ⟨⟨⟩⟩
      exact ⟨.int 1, _, rfl⟩
    · have hp : p ∈ [("_", "auto", Node.absent), ("a", "auto", .absent)] := by
        have htail := (List.cons.inj (List.cons.inj hparams).2).2
        exact htail ▸ List.mem_append_right pre List.mem_cons_self
      rcases List.mem_pair.1 hp with rfl | rfl <;> cases hdefault
  have hcall : OrdinaryCall 1 c [.int 1] named m :=
    { shown := rfl
      chain := by decide
      free := fun p _ _ => ⟨rfl, nofun⟩
      inert := by
        intro p hp
        simp only [c, List.mem_cons, List.not_mem_nil, or_false] at hp
        rcases hp with rfl | rfl | rfl | rfl
        · exact .other rfl
        · exact .name "a"
        · exact .other rfl
        · exact .other rfl
      defaults := hdefaults }
  obtain ⟨values, m', hfills, hrun, -, -, -, -, -, hvars⟩ :=
    (arguments_rejected_iff hcall).2.2 (by decide)
  refine ⟨hcall, m', hrun, ?_⟩
  have hvalues : values = [.int 1, .int 1, .int 7, .int 5] := by
    rcases hfills with _ | hfills
    rcases hfills with _ | _ | ⟨hname, _⟩ | ⟨_, _, hv, hfills⟩
    · cases hname
    cases hv
    rcases hfills with _ | _ | ⟨hname, hfills⟩ | ⟨hname, _⟩
    · cases hname
      rcases hfills with _ | _ | ⟨hname, hfills⟩ | ⟨hname, _⟩
      · cases hname
        cases hfills
        rfl
      · cases hname
    · cases hname
  subst hvalues
  exact ⟨hvars "a", hvars "b", hvars "_"⟩

end ScriptLang
