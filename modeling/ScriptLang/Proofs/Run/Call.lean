import Mathlib.Data.List.Find
import ScriptLang.Proofs.Run.Basic
import ScriptLang.Proofs.Scope.Basic
import ScriptLang.Run.Interpreter

/-!
# Where parameters are bound

A call makes a new scope and assigns the parameters in it. An assignment goes to the nearest binding
of the name, so a parameter is local to the call only if its name is free around the function:
neither bound in an enclosing scope nor meant there for the outermost one. The binding of parameters
is compared with the one that declares each of them in the scope of the call. The two agree exactly
if all names are free; a name that is not free never gets into the scope of the call.
-/

namespace ScriptLang

variable {α : Type}

namespace Scopes

/-- No scope from `e` outwards binds the name or means it for the outermost scope. -/
def IsFree (ss : Scopes α) (e : ScopeId) (name : String) : Prop :=
  ss.holder? e name = none ∧ ss.intent? e name ≠ some "global"

/-- The scopes while a call inside `parent` binds its parameters: one scope more, with `locals`. -/
def calling (ss : Scopes α) (parent : ScopeId) (locals : Table α) (changes : List Change) :
    Scopes α :=
  (ss.new (some parent)).2.update ss.size fun s =>
    { s with vars := locals, flags := locals.map fun b => (b.1, false), changes }

def IsCalling (ss : Scopes α) (parent : ScopeId) (locals : Table α) (ss' : Scopes α) : Prop :=
  ∃ changes, ss' = ss.calling parent locals changes

variable (ss : Scopes α) (parent : ScopeId) (locals : Table α) (changes : List Change)

/-- In the scopes of a call there is one scope more, with the locals. -/
theorem scope_calling (i : ScopeId) :
    (ss.calling parent locals changes).scope i =
      if i = ss.size then
        { vars := locals, flags := locals.map fun b => (b.1, false), ancestors := ss.chain parent,
          changes }
      else ss.scope i := by
  rw [calling, scope_update, scope_new]
  by_cases hi : i = ss.size <;> simp [hi]

@[simp] theorem size_calling : (ss.calling parent locals changes).size = ss.size + 1 := by
  simp [calling]

theorem calling_nil : ss.calling parent [] [] = (ss.new (some parent)).2 := by
  refine ext_scope (by simp) fun i => ?_
  rw [scope_calling, scope_new]
  rfl

/-- The chain of the call's scope is its own scope before the chain of the function. -/
theorem chain_calling :
    (ss.calling parent locals changes).chain ss.size = ss.size :: ss.chain parent := by
  rw [chain, scope_calling, if_pos rfl]

/-- Declaring a name in the scope of the call adds it to the locals. -/
theorem declare_calling (name : String) (value : α) :
    (ss.calling parent locals changes).declare ss.size name value false false true =
      ss.calling parent (locals.set name value) (.written name 0 :: changes) := by
  refine ext_scope (by simp [declare]) fun i => ?_
  simp only [declare, Bool.false_eq_true, if_false, if_true, scope_update, scope_calling,
    size_calling]
  by_cases hi : i = ss.size
  · simp [hi, Scope.bind, Scope.note, ← Table.set_map locals fun _ => false]
  · simp [hi]

variable {ss parent locals changes} {name : String}

/-- A parameter that is declared during a call is one more of the locals. -/
theorem IsCalling.declare {ss' : Scopes α} (h : ss.IsCalling parent locals ss') (name : String)
    (value : α) : ss.IsCalling parent (locals.set name value)
      (ss'.declare ss.size name value false false true) := by
  obtain ⟨changes, rfl⟩ := h
  exact ⟨_, declare_calling ss parent locals changes name value⟩

theorem IsCalling.scope {ss' : Scopes α} (h : ss.IsCalling parent locals ss') :
    (ss'.scope ss.size).vars = locals ∧ ∀ i < ss.size, ss'.scope i = ss.scope i := by
  obtain ⟨changes, rfl⟩ := h
  refine ⟨by rw [scope_calling, if_pos rfl], fun i hi => ?_⟩
  rw [scope_calling, if_neg (Nat.ne_of_lt hi)]

theorem IsCalling.chain {ss' : Scopes α} (h : ss.IsCalling parent locals ss') :
    ss'.chain ss.size = ss.size :: ss.chain parent := by
  obtain ⟨changes, rfl⟩ := h
  exact chain_calling ss parent locals changes

/-- A name that is free around the function is bound in no scope but that of the call. -/
theorem holder?_calling (hchain : ∀ i ∈ ss.chain parent, i < ss.size)
    (hfree : ss.IsFree parent name) :
    (ss.calling parent locals changes).holder? ss.size name =
      if locals.has name then some ss.size else none := by
  have houter : (ss.chain parent).find? (fun i =>
      ((ss.calling parent locals changes).scope i).vars.has name) = none := by
    rw [← hfree.1, holder?]
    refine List.find?_congr fun i hi => ?_
    rw [scope_calling, if_neg (Nat.ne_of_lt (hchain i hi))]
  rw [holder?, chain_calling, List.find?_cons, houter, scope_calling, if_pos rfl]
  cases locals.has name <;> rfl

/-- What a name means in the scope of a call is what it means around the function. -/
theorem intent?_calling (hchain : ∀ i ∈ ss.chain parent, i < ss.size) :
    (ss.calling parent locals changes).intent? ss.size name = ss.intent? parent name := by
  rw [intent?, chain_calling, List.findSome?_cons, scope_calling, if_pos rfl]
  change (ss.chain parent).findSome? _ = (ss.chain parent).findSome? _
  rw [← List.head?_filterMap, ← List.head?_filterMap]
  refine congrArg List.head? (List.filterMap_congr fun i hi => ?_)
  rw [scope_calling, if_neg (Nat.ne_of_lt (hchain i hi))]

/-- Assigning a free name in the scope of the call adds it to the locals. -/
theorem assign_calling (hchain : ∀ i ∈ ss.chain parent, i < ss.size)
    (hfree : ss.IsFree parent name) (value : α) :
    (ss.calling parent locals changes).assign ss.size name value =
      ss.calling parent (locals.set name value) (.written name 0 :: changes) := by
  rw [assign, holder?_calling hchain hfree]
  by_cases hlocal : locals.has name
  · -- the name is a local already: the flag that it has is the one that declaring it sets
    rw [if_pos hlocal]
    refine ext_scope (by simp) fun i => ?_
    simp only [scope_update, scope_calling, size_calling]
    by_cases hi : i = ss.size
    · obtain ⟨v, hv⟩ := Option.isSome_iff_exists.1 hlocal
      have hflag : Table.get? (locals.map fun b => (b.1, false)) name = some false := by
        rw [Table.get?_map locals fun _ => false, hv]
        rfl
      simp [hi, Scope.assign, ← Table.set_map locals fun _ => false, Table.set_of_get? hflag]
    · simp [hi]
  · rw [if_neg hlocal, ← declare_calling]
    simp [bindHome, home, intent?_calling hchain, hfree.2, declare]

/-- A name that is free around the function may be written in the scope of the call. -/
theorem isReadOnly_calling (hchain : ∀ i ∈ ss.chain parent, i < ss.size)
    (hfree : ss.IsFree parent name) :
    (ss.calling parent locals changes).isReadOnly ss.size name = false := by
  rw [isReadOnly, holder?_calling hchain hfree]
  by_cases hlocal : locals.has name
  · rw [if_pos hlocal]
    simp only [Scope.isReadOnly, scope_calling, if_true, Table.get?_map locals fun _ => false]
    cases locals.get? name <;> rfl
  · rw [if_neg hlocal]

/-- An assignment of the name in `e` binds it elsewhere. -/
def IsCaptured (ss : Scopes α) (e : ScopeId) (name : String) : Prop :=
  (ss.scope e).vars.has name = false ∧
    ((ss.holder? e name).isSome ∨ ss.intent? e name = some "global" ∧ ss.root e ≠ e)

/-- A name that is not free around the function is captured in the scope of the call. -/
theorem isCaptured_calling (hchain : ∀ i ∈ ss.chain parent, i < ss.size)
    (h : ¬ ss.IsFree parent name) : (ss.calling parent [] []).IsCaptured ss.size name := by
  refine ⟨by simp [scope_calling, Table.has, Table.get?], ?_⟩
  by_cases hintent : ss.intent? parent name = some "global"
  · refine .inr ⟨(intent?_calling hchain).trans hintent, Nat.ne_of_lt (hchain _ ?_)⟩
    have hroot : (ss.calling parent [] []).root ss.size =
        (ss.chain parent).getLast (by simp [chain]) := by
      simp [root, scope_calling, List.getLastD_eq_getLast?, List.getLast?_eq_getLast_of_ne_nil,
        chain]
    rw [hroot]
    exact List.getLast_mem _
  · have hholder : (ss.holder? parent name).isSome := by
      rw [Option.isSome_iff_ne_none]
      exact fun hnone => h ⟨hnone, hintent⟩
    refine .inl ?_
    obtain ⟨i, hi, hhas⟩ := List.find?_isSome.1 hholder
    refine List.find?_isSome.2 ⟨i, ?_, ?_⟩
    · rw [chain_calling]
      exact List.mem_cons_of_mem _ hi
    · rwa [scope_calling, if_neg (Nat.ne_of_lt (hchain i hi))]

namespace IsCaptured

variable {e t : ScopeId} {other : String} {value : α}

/-- Setting a name somewhere keeps a name captured, unless it is that name in `e`. -/
theorem update (h : ss.IsCaptured e name) {f : Scope α → Scope α}
    (hvars : ∀ s, (f s).vars = s.vars.set other value) (hintents : ∀ s, (f s).intents = s.intents)
    (hancestors : ∀ s, (f s).ancestors = s.ancestors) (ht : other = name → t ≠ e) :
    (ss.update t f).IsCaptured e name := by
  have hancestors : ((ss.update t f).scope e).ancestors = (ss.scope e).ancestors := by
    rw [scope_update]
    split <;> simp [hancestors]
  have hchain : (ss.update t f).chain e = ss.chain e := congrArg (e :: ·) hancestors
  obtain ⟨hown, hout⟩ := h
  refine ⟨?_, hout.imp (fun hholder => ?_) fun ⟨hintent, hroot⟩ => ⟨?_, ?_⟩⟩
  · rw [scope_update]
    split
    · next he =>
        have hne : other ≠ name := fun hother => ht hother he.1.symm
        simp [hvars, Table.has_set, hown, hne]
    · exact hown
  · obtain ⟨i, hi, hhas⟩ := List.find?_isSome.1 hholder
    refine List.find?_isSome.2 ⟨i, hchain ▸ hi, ?_⟩
    rw [scope_update]
    split <;> simp [hvars, Table.has_set, hhas]
  · have hsame (i : ScopeId) : ((ss.update t f).scope i).intents = (ss.scope i).intents := by
      rw [scope_update]
      split <;> simp [hintents]
    simpa only [intent?, hchain, hsame] using hintent
  · rwa [root, hancestors]

/-- A captured name stays captured when names are assigned in `e`. -/
theorem assign (h : ss.IsCaptured e name) (other : String) (value : α) :
    (ss.assign e other value).IsCaptured e name := by
  unfold Scopes.assign
  split
  · next holder hholder =>
      -- the scope that holds the name is not `e`, which does not bind it
      refine h.update (fun _ => rfl) (fun _ => rfl) (fun _ => rfl) fun hother he => ?_
      have hhas := List.find?_some hholder
      rw [he, hother, h.1] at hhas
      exact Bool.false_ne_true hhas
  · next hnone =>
      refine h.update (fun _ => by rw [Scope.bind_eq]) (fun _ => by rw [Scope.bind_eq])
        (fun _ => by rw [Scope.bind_eq]) fun hother => ?_
      rw [hother] at hnone ⊢
      obtain ⟨hintent, hroot⟩ := h.2.resolve_left (by simp [hnone])
      rwa [home, if_pos hintent]

end IsCaptured

def CaptureKept (e : ScopeId) (name : String) (ss ss' : Scopes α) : Prop :=
  ss.IsCaptured e name → ss'.IsCaptured e name

instance (e : ScopeId) (name : String) : IsPreorder (Scopes α) (CaptureKept e name) where
  refl _ := id
  trans _ _ _ h g := g ∘ h

end Scopes

namespace Exec

open Scopes (IsFree IsCalling CaptureKept)

variable {g : Engine} {bind : String → Option Value → Exec Unit} {e : ScopeId}

theorem respects_defaultValue {R : Scopes Value → Scopes Value → Prop}
    [IsPreorder (Scopes Value) R] (last : Option Value) {default : Node}
    (h : Respects R (g.evaluate default e)) : Respects R (defaultValue g e last default) := by
  unfold defaultValue
  grind -funext

/-- What the binding of one parameter and the evaluation of each default respect, the binding of all
parameters respects. -/
theorem respects_bindParams {R : Scopes Value → Scopes Value → Prop}
    [IsPreorder (Scopes Value) R] (hbind : ∀ name v, Respects R (bind name v))
    (named : Table Value) (last : Option Value) {params : List (String × String × Node)}
    (hdefaults : ∀ p ∈ params, Respects R (g.evaluate p.2.2 e)) (pos : List Value) :
    Respects R (bindParams g bind e named last params pos) := by
  induction params generalizing last pos with
  | nil =>
    unfold bindParams
    exact .pure _
  | cons p params ih =>
    have hrest (last : Option Value) (pos : List Value) :=
      ih last (fun q hq => hdefaults q (List.mem_cons_of_mem _ hq)) pos
    have hdefault := hdefaults p List.mem_cons_self
    cases pos <;>
    · unfold bindParams
      grind -funext [respects_defaultValue]

/-- A name that is captured stays so while parameters are bound. -/
theorem respects_bindParam (e : ScopeId) (x name : String) (v : Option Value) :
    Respects (CaptureKept e x) (bindParam e name v) := by
  have hassign (v : Value) : Respects (CaptureKept e x) (assignName e name v) :=
    respects_assignName fun _ h => h.assign name v
  unfold bindParam
  grind -funext

/-- Two ways of binding that agree on scopes with a property bind all parameters alike from there,
if the second one and the defaults keep the property. -/
theorem run_bindParams_congr {bind' : String → Option Value → Exec Unit} {P : Scopes Value → Prop}
    (hkeep : ∀ name v, Respects (fun ss ss' => P ss → P ss') (bind' name v)) {named : Table Value}
    {last : Option Value} {params : List (String × String × Node)} {pos : List Value}
    (hdefaults : ∀ p ∈ params, Respects Eq (g.evaluate p.2.2 e))
    (hbind : ∀ p ∈ params, ∀ v m, P m.scopes → (bind p.1 v).run m = (bind' p.1 v).run m)
    {m : Machine} (hm : P m.scopes) :
    (bindParams g bind e named last params pos).run m =
      (bindParams g bind' e named last params pos).run m := by
  induction params generalizing last pos m with
  | nil => rfl
  | cons p params ih =>
    have hfirst := hbind p List.mem_cons_self
    have hrest {last : Option Value} {pos : List Value} {m : Machine} :=
      @ih last pos (fun q hq => hdefaults q (List.mem_cons_of_mem _ hq))
        (fun q hq => hbind q (List.mem_cons_of_mem _ hq)) m
    have hstep {v : Option Value} {m m₁ : Machine} (hm : P m.scopes) {u : Unit}
        (h : (bind' p.1 v).run m = (.ok u, m₁)) : P m₁.scopes := by
      have := hkeep p.1 v m hm
      rwa [h] at this
    cases pos with
    | cons v pos =>
      unfold bindParams
      exact run_bind_congr (hfirst _ m hm) fun _ m₁ h => hrest (hstep hm h)
    | nil =>
      unfold bindParams
      split
      · refine run_bind_congr (hfirst _ m hm) fun _ m₁ h => ?_
        exact run_bind_congr (hrest (hstep hm h)) fun _ _ _ => rfl
      · refine run_bind_congr rfl fun v m₁ h => ?_
        have hm₁ : P m₁.scopes := by
          have := respects_defaultValue last (hdefaults p List.mem_cons_self) m
          rw [h] at this
          exact this ▸ hm
        exact run_bind_congr (hfirst v m₁ hm₁) fun _ m₂ h => hrest (hstep hm₁ h)

/-! ### Parameters as local names -/

/-- Binds a parameter in the scope of the call, whatever its name means around the function. -/
def declareParam (e : ScopeId) (name : String) (v : Option Value) : Exec Unit := do
  if name != "_" then
    match v with
    | some v => modifyScopes fun ss => ss.declare e name v false false true
    | none => fail (.unassigned "value")

def addLocal (locals : Table Value) (name : String) (v : Option Value) : Table Value :=
  if name = "_" then locals else v.elim locals (locals.set name)

def localsOf (params : List (String × String × Node)) (values : List (Option Value)) :
    Table Value → Table Value :=
  (params.zip values).foldl fun locals b => addLocal locals b.1.1 b.2

/-- The values that parameters get from the arguments of a call: the positional ones in order, then
those of their names, then those of their defaults. -/
inductive Supplied (g : Engine) (e : ScopeId) (named : Table Value) :
    List (String × String × Node) → List Value → List (Option Value) → Prop where
  | nil (pos : List Value) : Supplied g e named [] pos []
  | positional {p : String × String × Node} {params : List (String × String × Node)} {v : Value}
      {pos : List Value} {values : List (Option Value)} : Supplied g e named params pos values →
      Supplied g e named (p :: params) (v :: pos) (some v :: values)
  | named {p : String × String × Node} {params : List (String × String × Node)} {v : Value}
      {values : List (Option Value)} : named.get? p.1 = some v →
      Supplied g e named params [] values → Supplied g e named (p :: params) [] (some v :: values)
  | default {p : String × String × Node} {params : List (String × String × Node)}
      {last v : Option Value} {m m' : Machine} {values : List (Option Value)} :
      named.get? p.1 = none → (defaultValue g e last p.2.2).run m = (.ok v, m') →
      Supplied g e named params [] values → Supplied g e named (p :: params) [] (v :: values)

theorem has_addLocal (locals : Table Value) (name other : String) (v : Option Value)
    (h : locals.has other) : (addLocal locals name v).has other := by
  unfold addLocal
  cases v <;> split <;> simp [Table.has_set, h]

theorem has_localsOf {params : List (String × String × Node)} {values : List (Option Value)}
    {locals : Table Value} {name : String} (h : locals.has name) :
    (localsOf params values locals).has name := by
  unfold localsOf
  induction params.zip values generalizing locals with
  | nil => exact h
  | cons b bs ih => exact ih (has_addLocal _ _ _ _ h)

section

variable {ss : Scopes Value} {parent : ScopeId} {locals : Table Value} {m m' : Machine}

/-- A parameter that has been bound is among the locals, and had a value. -/
theorem run_declareParam_eq_ok (hm : ss.IsCalling parent locals m.scopes) {name : String}
    {v : Option Value} {u : Unit} (h : (declareParam ss.size name v).run m = (.ok u, m')) :
    ss.IsCalling parent (addLocal locals name v) m'.scopes ∧ (name ≠ "_" → v.isSome) := by
  unfold declareParam at h
  by_cases hname : name = "_"
  · rw [if_neg (by simp [hname])] at h
    cases h
    exact ⟨by rwa [addLocal, if_pos hname], fun hne => absurd hname hne⟩
  · rw [if_pos (by simp [hname])] at h
    cases v with
    | none => cases h
    | some v =>
      cases h
      refine ⟨?_, fun _ => rfl⟩
      rw [addLocal, if_neg hname]
      exact hm.declare name v

theorem respects_declareParam (ss : Scopes Value) (parent : ScopeId) (name : String)
    (v : Option Value) :
    Respects (fun ss₁ ss₂ => (∃ locals, ss.IsCalling parent locals ss₁) →
      ∃ locals, ss.IsCalling parent locals ss₂) (declareParam ss.size name v) := by
  rintro m ⟨locals, hm⟩
  unfold declareParam
  split
  · cases v with
    | none => exact ⟨locals, hm⟩
    | some v => exact ⟨locals.set name v, hm.declare name v⟩
  · exact ⟨locals, hm⟩

/-- Declared parameters become the locals of the call, and nothing else changes. -/
theorem run_declareParams_eq_ok {named : Table Value} {last : Option Value}
    {params : List (String × String × Node)} {pos : List Value} {r : List Value × List String}
    (hdefaults : ∀ p ∈ params, Respects Eq (g.evaluate p.2.2 ss.size))
    (hm : ss.IsCalling parent locals m.scopes)
    (h : (bindParams g (declareParam ss.size) ss.size named last params pos).run m = (.ok r, m')) :
    ∃ values, Supplied g ss.size named params pos values ∧
      ss.IsCalling parent (localsOf params values locals) m'.scopes ∧
      ∀ p ∈ params, p.1 ≠ "_" → (localsOf params values locals).has p.1 := by
  induction params generalizing last pos locals m r with
  | nil =>
    unfold bindParams at h
    cases h
    exact ⟨[], .nil pos, hm, by simp⟩
  | cons p params ih =>
    have hrest := fun q hq => hdefaults q (List.mem_cons_of_mem _ hq)
    -- what one more parameter adds to the parameters after it
    have hcons {v : Option Value} {values : List (Option Value)} (hv : p.1 ≠ "_" → v.isSome)
        (hvalues : ∀ q ∈ params, q.1 ≠ "_" →
          (localsOf params values (addLocal locals p.1 v)).has q.1) :
        ∀ q ∈ p :: params, q.1 ≠ "_" → (localsOf (p :: params) (v :: values) locals).has q.1 := by
      intro q hq hname
      rcases List.mem_cons.1 hq with rfl | hq
      · obtain ⟨v, rfl⟩ := Option.isSome_iff_exists.1 (hv hname)
        have hlocal : (addLocal locals q.1 (some v)).has q.1 := by
          simp [addLocal, hname, Table.has_set]
        change (localsOf params values (addLocal locals q.1 (some v))).has q.1 = true
        exact has_localsOf hlocal
      · exact hvalues q hq hname
    cases pos with
    | cons v pos =>
      unfold bindParams at h
      obtain ⟨_, m₁, hbind, h⟩ := run_bind_eq_ok.1 h
      obtain ⟨hm₁, hv⟩ := run_declareParam_eq_ok hm hbind
      obtain ⟨values, hsupplied, hscopes, hhas⟩ := ih hrest hm₁ h
      exact ⟨some v :: values, .positional hsupplied, hscopes, hcons hv hhas⟩
    | nil =>
      unfold bindParams at h
      split at h
      · next v hnamed =>
          obtain ⟨_, m₁, hbind, h⟩ := run_bind_eq_ok.1 h
          obtain ⟨_, m₂, h, hpure⟩ := run_bind_eq_ok.1 h
          cases hpure
          obtain ⟨hm₁, hv⟩ := run_declareParam_eq_ok hm hbind
          obtain ⟨values, hsupplied, hscopes, hhas⟩ := ih hrest hm₁ h
          exact ⟨some v :: values, .named hnamed hsupplied, hscopes, hcons hv hhas⟩
      · next hnamed =>
          obtain ⟨v, m₀, hdefault, h⟩ := run_bind_eq_ok.1 h
          obtain ⟨_, m₁, hbind, h⟩ := run_bind_eq_ok.1 h
          have hm₀ : m.scopes = m₀.scopes := by
            have := respects_defaultValue last (hdefaults p List.mem_cons_self) m
            rwa [hdefault] at this
          obtain ⟨hm₁, hv⟩ := run_declareParam_eq_ok (hm₀ ▸ hm) hbind
          obtain ⟨values, hsupplied, hscopes, hhas⟩ := ih hrest hm₁ h
          exact ⟨v :: values, .default hnamed hdefault hsupplied, hscopes, hcons hv hhas⟩

/-- A parameter whose name is free around the function is bound as if it were declared. -/
theorem run_bindParam_of_isFree (hchain : ∀ i ∈ ss.chain parent, i < ss.size) {name : String}
    (hfree : name ≠ "_" → ss.IsFree parent name) (hm : ss.IsCalling parent locals m.scopes)
    (v : Option Value) :
    (bindParam ss.size name v).run m = (declareParam ss.size name v).run m := by
  obtain ⟨changes, hm⟩ := hm
  unfold bindParam declareParam
  by_cases hname : name = "_"
  · simp [hname]
  · rw [if_pos (by simp [hname]), if_pos (by simp [hname])]
    cases v with
    | none => rfl
    | some v =>
      have hwritable : m.scopes.isReadOnly ss.size name = false := by
        rw [hm]
        exact Scopes.isReadOnly_calling hchain (hfree hname)
      have hscopes : m.scopes.assign ss.size name v =
          m.scopes.declare ss.size name v false false true := by
        rw [hm, Scopes.assign_calling hchain (hfree hname), Scopes.declare_calling]
      simp only [run_assignName hwritable, run_modifyScopes, hscopes]

end

/-- The names that the binding of parameters uses are names of parameters. -/
theorem used_of_bindParams {named : Table Value} {last : Option Value}
    {params : List (String × String × Node)} {pos rest : List Value} {used : List String}
    {m m' : Machine}
    (h : (bindParams g bind e named last params pos).run m = (.ok (rest, used), m')) :
    ∀ n ∈ used, ∃ p ∈ params, p.1 = n := by
  induction params generalizing last pos used m with
  | nil =>
    unfold bindParams at h
    cases h
    simp
  | cons p params ih =>
    have htail {ns : List String} (hns : ∀ n ∈ ns, ∃ q ∈ params, q.1 = n) :
        ∀ n ∈ ns, ∃ q ∈ p :: params, q.1 = n :=
      fun n hn => (hns n hn).imp fun q hq => ⟨List.mem_cons_of_mem _ hq.1, hq.2⟩
    cases pos with
    | cons v pos =>
      unfold bindParams at h
      obtain ⟨_, _, -, h⟩ := run_bind_eq_ok.1 h
      exact htail (ih h)
    | nil =>
      unfold bindParams at h
      split at h
      · obtain ⟨_, _, -, h⟩ := run_bind_eq_ok.1 h
        obtain ⟨_, _, h, hpure⟩ := run_bind_eq_ok.1 h
        cases hpure
        exact List.forall_mem_cons.2 ⟨⟨p, List.mem_cons_self, rfl⟩, htail (ih h)⟩
      · obtain ⟨_, _, -, h⟩ := run_bind_eq_ok.1 h
        obtain ⟨_, _, -, h⟩ := run_bind_eq_ok.1 h
        exact htail (ih h)

def bindCall (bind : ScopeId → String → Option Value → Exec Unit) (g : Engine) (c : Closure)
    (pos : List Value) (named : Table Value) : Exec (List Value × List String) := do
  let e ← newScope (some c.scope)
  bindParams g (bind e) e named none c.params pos

/-- Binding the parameters of a call begins with a new scope. -/
theorem run_bindCall (bind : ScopeId → String → Option Value → Exec Unit) (g : Engine)
    (c : Closure) (pos : List Value) (named : Table Value) (m : Machine) :
    (bindCall bind g c pos named).run m =
      (bindParams g (bind m.scopes.size) m.scopes.size named none c.params pos).run
        { m with scopes := (m.scopes.new (some c.scope)).2 } := by
  rw [bindCall, run_bind, run_newScope]

/-- A call that takes all its arguments runs the body after it has bound the parameters. -/
theorem run_callFunction (c : Closure) {pos : List Value} {named : Table Value} {m m' : Machine}
    {used : List String} (h : (bindCall bindParam g c pos named).run m = (.ok ([], used), m'))
    (hused : ∀ n ∈ named.names, n ∈ used) :
    (callFunction g c pos named).run m =
      (returning c (g.executeAll m.scopes.size c.body)).run m' := by
  rw [run_bindCall] at h
  have hknown : (named.names.any fun n => !c.params.any fun p => p.1 == n) = false := by
    simpa using fun n hn => used_of_bindParams h n (hused n hn)
  have hall : (named.names.any fun n => !used.contains n) = false := by simpa using hused
  unfold callFunction
  simp only [run_bind, run_newScope, hknown, h, hall, List.isEmpty_nil, Bool.not_true,
    Bool.false_eq_true,
    if_false]

/-- Parameters are local to a call exactly if their names are free around the function. Let `m'` be
the machine in which the parameters of an accepted call are declared in its new scope: all scopes
are as they were, and the new one holds the parameters with their values. The binding of parameters
gives this machine if and only if no parameter has a name that is bound around the function or meant
there for the outermost scope, and then the body is run in it. A name that is not free gets into the
new scope in no case. -/
theorem parameters_local_iff (g : Engine) (c : Closure) (pos : List Value) (named : Table Value)
    (m m' : Machine) (used : List String)
    (hchain : ∀ i ∈ m.scopes.chain c.scope, i < m.scopes.size)
    (hdefaults : ∀ p ∈ c.params, Respects Eq (g.evaluate p.2.2 m.scopes.size))
    (haccepted : (bindCall declareParam g c pos named).run m = (.ok ([], used), m'))
    (hused : ∀ n ∈ named.names, n ∈ used) :
    (∀ i < m.scopes.size, m'.scopes.scope i = m.scopes.scope i) ∧
    (∃ values, Supplied g m.scopes.size named c.params pos values ∧
      (m'.scopes.scope m.scopes.size).vars = localsOf c.params values []) ∧
    ((bindCall bindParam g c pos named).run m = (.ok ([], used), m') ↔
      ∀ p ∈ c.params, p.1 ≠ "_" → m.scopes.IsFree c.scope p.1) ∧
    ((∀ p ∈ c.params, p.1 ≠ "_" → m.scopes.IsFree c.scope p.1) →
      (callFunction g c pos named).run m =
        (returning c (g.executeAll m.scopes.size c.body)).run m') ∧
    ∀ name, ¬ m.scopes.IsFree c.scope name →
      (((bindCall bindParam g c pos named).run m).2.scopes.scope m.scopes.size).vars.has name =
        false := by
  have hstart : m.scopes.calling c.scope [] [] = (m.scopes.new (some c.scope)).2 :=
    m.scopes.calling_nil c.scope
  rw [run_bindCall] at haccepted
  obtain ⟨values, hsupplied, hscopes, hhas⟩ :=
    run_declareParams_eq_ok hdefaults ⟨[], hstart.symm⟩ haccepted
  obtain ⟨hlocals, hkept⟩ := hscopes.scope
  have hcaptured (name : String) (hname : ¬ m.scopes.IsFree c.scope name) :
      (((bindCall bindParam g c pos named).run m).2.scopes.scope m.scopes.size).vars.has name =
        false := by
    have hrespects : Respects (CaptureKept m.scopes.size name)
        (bindParams g (bindParam m.scopes.size) m.scopes.size named none c.params pos) :=
      respects_bindParams (respects_bindParam m.scopes.size name) named none
        (fun p hp m h => hdefaults p hp m ▸ h) pos
    rw [run_bindCall]
    exact (hrespects _ (hstart ▸ Scopes.isCaptured_calling hchain hname)).1
  have hagree (hfree : ∀ p ∈ c.params, p.1 ≠ "_" → m.scopes.IsFree c.scope p.1) :
      (bindCall bindParam g c pos named).run m = (.ok ([], used), m') := by
    rw [run_bindCall, ← haccepted]
    exact run_bindParams_congr (respects_declareParam m.scopes c.scope) hdefaults
      (fun p hp v m ⟨_, hm⟩ => run_bindParam_of_isFree hchain (hfree p hp) hm v)
      ⟨[], [], hstart.symm⟩
  refine ⟨hkept, ⟨values, hsupplied, hlocals⟩, ⟨fun h p hp hname => ?_, hagree⟩,
    fun hfree => run_callFunction c (hagree hfree) hused, hcaptured⟩
  by_contra hnot
  have hmissing := hcaptured p.1 hnot
  rw [h, hlocals, hhas p hp hname] at hmissing
  exact Bool.false_ne_true hmissing.symm

/-- A function whose parameter has the name of a global is called: the argument goes to the global,
not to the scope of the call. -/
theorem parameters_local_iff_global :
    let m : Machine := { scopes := #[{ vars := [("x", .int 1)], flags := [("x", false)] }] }
    let c : Closure := { name := "f", returns := "auto", params := [("x", "auto", .absent)],
                         body := [], scope := 0 }
    let m' : Machine := { m with scopes := m.scopes.calling 0 [("x", .int 5)] [.written "x" 0] }
    (bindCall declareParam (.ofDepth 0) c [.int 5] []).run m = (.ok ([], []), m') ∧
      (bindCall bindParam (.ofDepth 0) c [.int 5] []).run m ≠ (.ok ([], []), m') := by
  intro m c m'
  have haccepted : (bindCall declareParam (.ofDepth 0) c [.int 5] []).run m = (.ok ([], []), m') :=
    rfl
  refine ⟨haccepted, fun hbound => ?_⟩
  have hfree := (parameters_local_iff (.ofDepth 0) c [.int 5] [] m m' [] (by decide)
    (fun _ _ _ => rfl) haccepted (by decide)).2.2.1.1 hbound
  exact absurd (hfree ("x", "auto", .absent) (by simp [c]) (by decide)).1 (by decide)

end Exec

end ScriptLang
