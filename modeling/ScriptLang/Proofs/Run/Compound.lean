import ScriptLang.Proofs.Run.Settled
import ScriptLang.Proofs.Run.TypeError

/-!
# Compound assignments

A compound assignment reads its target, evaluates the expression, applies the operator and sets the
target; the assignment of the operator's result to the target does the same, with the target
evaluated as an expression. The two differ in the sum of a text and another value: as an operator
`+` joins the texts of both, in a compound assignment it fails.
-/

namespace ScriptLang

def AssignOp.operator? : AssignOp → Option BinaryOp
  | .add => some .add
  | .sub => some .sub
  | .mul => some .mul
  | .div => some .div
  | .other _ => none

/-- What can be assigned to: a name that has a value, a member, unless the whole chain is a name of
its own, or a subscript. A lone underscore is no name: what is assigned to it is dropped. -/
inductive Node.Assignable (ss : Scopes Value) (e : ScopeId) : Node → Prop where
  | name {id : String} {v : Value} : id ≠ "_" → ss.get? e id = some v → Assignable ss e (.name id)
  | member {object : Node} {name : String} :
      (∀ path, (Node.member object name).path? = some path → ss.get? e path = none) →
      Assignable ss e (.member object name)
  | index (left right : Node) : Assignable ss e (.binary left .index right)

namespace Exec

open Parse (assignment)

variable {α : Type} {g : Engine} {e : ScopeId} {target expr : Node} {m : Machine}

/-! ### The two forms -/

/-- Sets a target to what an operation makes of its value and that of an expression. -/
def compound (g : Engine) (e : ScopeId) (target expr : Node)
    (apply : Value → Value → HostExec Value) : Exec Value := do
  let v ← readTarget g e target
  let w ← g.evaluate expr e
  let u ← apply v w
  assignTarget g e target u
  pure .none

theorem run_lookup_of_get? {id : String} {v : Value} (h : m.scopes.get? e id = some v) :
    (lookup e id).run m = (.ok v, m) := by
  rw [lookup, run_bind, run_get]
  dsimp only
  rw [h]
  rfl

theorem run_currentOrZero_of_get? {id : String} {v : Value} (h : m.scopes.get? e id = some v) :
    (currentOrZero e id).run m = (.ok v, m) := by
  have hheld : (m.scopes.holder? e id).isNone = false := by
    rw [Bool.eq_false_iff, Option.isNone_iff_eq_none.ne]
    intro hnone
    have hget : m.scopes.get? e id = none := by
      refine List.findSome?_eq_none_iff.2 fun i hi => ?_
      simpa [Table.has] using List.find?_eq_none.1 hnone i hi
    rw [hget] at h
    cases h
  rw [currentOrZero, run_bind, run_get]
  simp only [hheld, Bool.false_eq_true, if_false]
  change (Except.ok ((m.scopes.get? e id).getD (.int 0)), m) = (.ok v, m)
  rw [h]
  rfl

theorem run_executeAugAssign (n : Nat) (name : Option String) (op : AssignOp)
    (expr target : Node) (e : ScopeId) (m : Machine) :
    ((Engine.ofDepth (n + 1)).execute (.augAssign name op expr target) e).run m =
      (executeAugAssign (.ofDepth n) e name op expr target >>= fun _ =>
        (pure .none : Exec Value)).run { m with current := e } := rfl

theorem run_executeAssign (n : Nat) (name : Option String) (expr target : Node) (b : Binding)
    (e : ScopeId) (m : Machine) :
    ((Engine.ofDepth (n + 1)).execute (.assign name expr target b) e).run m =
      (executeAssign (.ofDepth n) e name expr target b >>= fun _ =>
        (pure .none : Exec Value)).run { m with current := e } := rfl

/-- A compound assignment reads its target, evaluates its expression and writes the target. -/
theorem run_augAssign (n : Nat) (htarget : target.Assignable m.scopes e) (op : AssignOp) :
    ((Engine.ofDepth (n + 1)).execute (assignment target (some op) expr) e).run m =
      (compound (.ofDepth n) e target expr (applyAssignOp op)).run { m with current := e } := by
  cases htarget with
  | @name id v hid hv =>
    have hzero : (currentOrZero e id).run { m with current := e } = _ :=
      run_currentOrZero_of_get? hv
    have hread : (readTarget (.ofDepth n) e (.name id)).run { m with current := e } = _ :=
      run_lookup_of_get? hv
    have hname : (some id == some "_") = false := by simpa using hid
    rw [assignment, run_executeAugAssign]
    simp only [executeAugAssign, hname, Node.isAbsent, Bool.false_and, Bool.false_eq_true,
      if_false, if_true, compound, bind_assoc, Option.getD_some]
    rw [run_bind, hzero, run_bind, hread]
    rfl
  | member =>
    rw [assignment, run_executeAugAssign]
    · simp [executeAugAssign, Node.isAbsent, compound]
    · intro _ h
      cases h
  | index =>
    rw [assignment, run_executeAugAssign]
    · simp [executeAugAssign, Node.isAbsent, compound]
    · intro _ h
      cases h

theorem run_assign (n : Nat) (htarget : target.Assignable m.scopes e) :
    ((Engine.ofDepth (n + 1)).execute (assignment target none expr) e).run m = (do
      let u ← (Engine.ofDepth n).evaluate expr e
      assignTarget (.ofDepth n) e target u
      pure .none : Exec Value).run { m with current := e } := by
  cases htarget with
  | @name id v hid hv =>
    have hname : (some id == some "_") = false := by simpa using hid
    rw [assignment, run_executeAssign]
    simp [executeAssign, hname, Node.isAbsent, assignTarget]
  | member =>
    rw [assignment, run_executeAssign]
    · simp [executeAssign, Node.isAbsent]
    · intro _ h
      cases h
  | index =>
    rw [assignment, run_executeAssign]
    · simp [executeAssign, Node.isAbsent]
    · intro _ h
      cases h

/-- What evaluating a target does before it reads the target as a compound assignment does. -/
def extraRound (g : Engine) (e : ScopeId) : Node → Exec Unit
  | .binary left .index right => do
    let _ ← operands g e left right
    pure ()
  | _ => pure ()

/-- Engines that are deep enough evaluate a target as they read it, but for the extra round. -/
theorem exists_run_evaluate_target (hinert : target.Inert) : ∃ D, ∀ j d, D ≤ j → D ≤ d →
    ∀ e m, target.Assignable m.scopes e → ((Engine.ofDepth (j + 1)).evaluate target e).run m =
      (extraRound (.ofDepth d) e target >>= fun _ => readTarget (.ofDepth d) e target).run
        { m with current := e } := by
  cases hinert with
  | name id => exact ⟨0, fun _ _ _ _ _ _ _ => rfl⟩
  | @member object name hobject =>
    obtain ⟨D, hD⟩ := exists_settled hobject
    refine ⟨D, fun j d hj hd e m htarget => ?_⟩
    cases htarget with
    | member hpath =>
      have hnone : ((Node.member object name).path?.bind fun p => m.scopes.get? e p) = none := by
        cases hp : (Node.member object name).path? with
        | none => rfl
        | some path => exact hpath path hp
      change (evaluateMember (.ofDepth j) e object name).run { m with current := e } = _
      rw [evaluateMember, run_bind, run_get]
      dsimp only
      rw [hnone]
      simp only [extraRound, readTarget, pure_bind, hD j d hj hd e]
  | @binary left right op hleft hright =>
    obtain ⟨Dl, hl⟩ := exists_settled hleft
    obtain ⟨Dr, hr⟩ := exists_settled hright
    refine ⟨max Dl Dr, fun j d hj hd e m htarget => ?_⟩
    cases htarget
    have hl' := hl.mono (Nat.le_max_left Dl Dr) j d hj hd e
    have hr' := hr.mono (Nat.le_max_right Dl Dr) j d hj hd e
    change (evaluateBinary (.ofDepth j) e left .index right).run { m with current := e } = _
    simp [evaluateBinary, extraRound, operands, readTarget, hl', hr']
  | _ => exact ⟨0, fun _ _ _ _ _ _ htarget => by cases htarget <;> contradiction⟩

/-- Assigning the result of the operator is a compound assignment with the operator, after the extra
round. -/
theorem exists_run_assign_operator (htarget : target.Inert) (hexpr : expr.Inert) {op : BinaryOp}
    (hand : op ≠ .and) (hor : op ≠ .or) (hindex : op ≠ .index) : ∃ D, ∀ n ≥ D,
    ∀ e m, target.Assignable m.scopes e →
      ((Engine.ofDepth (n + 1)).execute (assignment target none (.binary target op expr)) e).run m =
        (extraRound (.ofDepth n) e target >>= fun _ =>
          compound (.ofDepth n) e target expr (strictBinary op)).run { m with current := e } := by
  obtain ⟨D, hD⟩ := exists_run_evaluate_target htarget
  obtain ⟨D', hD'⟩ := exists_settled hexpr
  refine ⟨max D D' + 2, fun n hn e m h => ?_⟩
  obtain ⟨j, rfl⟩ : ∃ j, n = j + 2 := ⟨n - 2, by omega⟩
  have hread := hD j (j + 2) (by omega) (by omega) e { m with current := e } h
  have hsettled := hD' (j + 1) (j + 2) (by omega) (by omega) e
  have hvalue : ((Engine.ofDepth (j + 2)).evaluate (.binary target op expr) e).run
      { m with current := e } = (extraRound (.ofDepth (j + 2)) e target >>= fun _ =>
        readTarget (.ofDepth (j + 2)) e target >>= fun v =>
          (Engine.ofDepth (j + 2)).evaluate expr e >>= fun w =>
            (liftM (strictBinary op v w) : Exec Value)).run { m with current := e } := by
    change (evaluateBinary (.ofDepth (j + 1)) e target op expr).run { m with current := e } = _
    rw [evaluateBinary_eq hand hor, if_neg hindex, applyOnce, operands]
    simp only [bind_assoc, pure_bind, hsettled]
    rw [run_bind, hread, ← run_bind, bind_assoc]
  rw [run_assign _ h, run_bind, hvalue, ← run_bind]
  simp only [compound, bind_assoc]

/-! ### The operations -/

/-- A compound assignment applies the operator, unless it adds a text and another value. -/
theorem applyAssignOp_eq_strictBinary {op : AssignOp} {bop : BinaryOp}
    (hop : op.operator? = some bop) {v w : Value} (h : op = .add → v.isText = w.isText) :
    applyAssignOp op v w = strictBinary bop v w := by
  cases op with
  | add =>
    cases hop
    change add v w = addOrJoin v w
    rw [addOrJoin_eq]
    cases hv : v.isText with
    | false =>
      rw [← h rfl, hv]
      rfl
    | true =>
      have hw := (h rfl).symm.trans hv
      cases v <;> cases hv
      cases w <;> cases hw
      rfl
  | other s => cases hop
  | _ =>
    cases hop
    rfl

/-- Two operations that agree on the values that are read make the same compound assignment. -/
theorem run_compound_congr {apply apply' : Value → Value → HostExec Value}
    (h : ∀ v m₁ w m₂, (readTarget g e target).run m = (.ok v, m₁) →
      (g.evaluate expr e).run m₁ = (.ok w, m₂) → apply v w = apply' v w) :
    (compound g e target expr apply).run m = (compound g e target expr apply').run m := by
  refine run_bind_congr rfl fun v m₁ hv => run_bind_congr rfl fun w m₂ hw => ?_
  rw [h v m₁ w m₂ hv hw]

/-! ### Subscripts on renamed machines -/

/-- To read a subscript is to apply it once. -/
theorem readTarget_index (g : Engine) (e : ScopeId) (left right : Node) :
    readTarget g e (.binary left .index right) = applyOnce g e left .index right := by
  simp [readTarget, applyOnce, operands, strictBinary]

/-- To write a subscript is to evaluate both operands and to put the value. -/
theorem assignTarget_index (g : Engine) (e : ScopeId) (left right : Node) (u : Value) :
    assignTarget g e (.binary left .index right) u = (do
      let p ← operands g e left right
      if !(← putItem p.1 p.2 u) then
        let k ← text p.2
        let c ← text p.1
        report (.noEntry k c)) := by
  simp [assignTarget, operands]

theorem run_putItem (v key value : Value) (host : Host) : (putItem v key value).run host =
    if v.isNodes then (.error .exhausted, host)
    else match host.store.putItem? v key value with
      | some st => (.ok true, { host with store := st })
      | none => (.ok false, host) := by
  cases hnodes : v.isNodes with
  | true => simp [putItem, hnodes]; rfl
  | false =>
    simp only [putItem, hnodes, Bool.false_eq_true, if_false]
    change ((match host.store.putItem? v key value with
      | some st => _ | none => _ : HostExec Bool)).run host = _
    split <;> rfl

section Twins

variable {ρ : Ref → Ref} {left right : Node}

theorem mirrors_putItem (v key value : Value) :
    Mirrors (fun i : World × World => Host.Renames ρ i.1 i.2) (fun _ _ _ => True) (Halt.rename ρ) Eq
      (putItem v key value) (putItem (v.rename ρ) (key.rename ρ) (value.rename ρ)) := by
  intro i h h' hh
  have hnodes : (v.rename ρ).isNodes = v.isNodes := by cases v <;> rfl
  rw [run_putItem, run_putItem, hnodes]
  split
  · exact ⟨trivial, hh, .error _⟩
  obtain ⟨hnone, hnone'⟩ | ⟨r, o, hsome, hsome'⟩ := hh.store.putItem? v key value
  · rw [hnone, hnone']
    exact ⟨trivial, hh, .ok rfl⟩
  · rw [hsome, hsome']
    refine ⟨trivial, ?_, .ok rfl⟩
    refine ⟨hh.store.setIfInBounds r o, ?_, hh.options, hh.spelled, hh.world, ?_⟩
    · simpa using hh.fresh
    · conv_lhs => rw [hh.rest]

theorem twins_assignTarget_index (hleft : Steady ρ g e left) (hright : Steady ρ g e right)
    (u : Value) :
    Twins ρ Eq (assignTarget g e (.binary left .index right) u)
      (assignTarget g e (.binary left .index right) (u.rename ρ)) := by
  rw [assignTarget_index, assignTarget_index]
  refine (alike_operands hleft hright).twins.bind fun p p' hp => ?_
  cases hp
  have hput := mirrors_putItem (ρ := ρ) p.1 p.2 u
  refine (hput.onMachine fun _ _ _ _ => trivial).bind fun b b' hb => ?_
  cases hb
  cases b with
  | true => exact .pure rfl
  | false =>
    refine (Alike.host (alike_text p.2)).twins.bind fun t t' ht => ?_
    refine (Alike.host (alike_text p.1)).twins.bind fun c c' hc => ?_
    cases ht
    cases hc
    exact (Alike.host (alike_report _)).twins

theorem twins_compound_index (hleft : Steady ρ g e left) (hright : Steady ρ g e right)
    (hexpr : Steady ρ g e expr) (op : BinaryOp) :
    Twins ρ (Value.Renamed ρ) (compound g e (.binary left .index right) expr (strictBinary op))
      (compound g e (.binary left .index right) expr (strictBinary op)) := by
  rw [compound, readTarget_index]
  refine (alike_applyOnce .index hleft hright).twins.bind fun v v' hv => ?_
  refine hexpr.twins.bind fun w w' hw => ?_
  cases hv
  cases hw
  refine (Alike.host (alike_strictBinary op v w)).twins.bind fun u u' hu => ?_
  cases hu
  exact (twins_assignTarget_index hleft hright u).bind fun _ _ _ => .pure rfl

end Twins

/-! ### Sums of a text and another value -/

/-- Putting an item raises no error. -/
theorem run_putItem_ne_raised (v key value : Value) (host : Host) (w : Value) :
    ((putItem v key value).run host).1 ≠ .error (.raised w) := by
  rw [run_putItem]
  split
  · exact nofun
  · cases host.store.putItem? v key value <;> exact nofun

theorem run_putAttribute_ne_raised (v : Value) (name : String) (value : Value) (host : Host)
    (w : Value) : ((putAttribute v name value).run host).1 ≠ .error (.raised w) := by
  cases v with
  | ref r =>
    have hobj : (obj? r).run host = (.ok host.store[r]?, host) := rfl
    simp only [putAttribute, HostExec.run_bind, hobj]
    rcases host.store[r]? with _ | o
    · exact nofun
    cases hguarded : o.isGuarded name with
    | true =>
      simp only [Option.any_some, hguarded, if_true]
      exact nofun
    | false =>
      simp only [Option.any_some, hguarded, Bool.false_eq_true, if_false]
      cases o with
      | fault f fields =>
        dsimp only
        split <;> exact nofun
      | _ => exact nofun
  | _ => exact nofun

/-- What gives a result gives one again on a machine that has grown. -/
theorem exists_run_eq_ok_grown {R : (Ref → Ref) → α → α → Prop} {x : Exec α}
    (hx : ∀ ρ, Alike ρ (R ρ) x x) (hcurrent : ∀ m current, x.run { m with current } = x.run m)
    {m' m₁ : Machine} (hm : m.Closed) (hgrown : m.Grown m') {a : α} (hrun : x.run m = (.ok a, m₁)) :
    ∃ a' m₁', x.run m' = (.ok a', m₁') := by
  obtain ⟨fresh, hfresh⟩ := hgrown.store
  obtain ⟨-, -, hrelated⟩ := hx _ (i := (m.world, m'.world)) (hm.renames_grown hgrown hfresh)
  rw [hcurrent m' m.current, hrun] at hrelated
  rcases hagain : x.run m' with ⟨s | a', m₁'⟩
  · rw [hagain] at hrelated
    cases hrelated
  · exact ⟨a', m₁', rfl⟩

theorem alike_readTarget (ρ : Ref → Ref) (n : Nat) (hinert : target.Inert) {ss : Scopes Value}
    (htarget : target.Assignable ss e) :
    Alike ρ (Value.Renamed ρ) (readTarget (.ofDepth n) e target)
      (readTarget (.ofDepth n) e target) := by
  cases htarget with
  | name => exact alike_lookup e _
  | member =>
    refine (alike_evaluate ρ n hinert.object e).bind fun v v' hv => ?_
    cases hv
    exact Alike.host (alike_member v _)
  | index =>
    obtain ⟨hleft, hright⟩ := hinert.operands
    rw [readTarget_index]
    exact alike_applyOnce .index (alike_evaluate ρ n hleft e) (alike_evaluate ρ n hright e)

/-- A target that can be read can be set without an error of a wrong type. -/
theorem noTypeError_assignTarget {n : Nat} (hinert : target.Inert) {ss : Scopes Value}
    (htarget : target.Assignable ss e) {m' m₁ : Machine} {v : Value} (hm : m.Closed)
    (hgrown : m.Grown m') (hread : (readTarget (.ofDepth (n + 1)) e target).run m = (.ok v, m₁))
    (u : Value) : NoTypeError (assignTarget (.ofDepth (n + 1)) e target u) m' := by
  cases htarget with
  | name => exact .assignName e _ u
  | member =>
    obtain ⟨w, m₂, hobject, -⟩ := run_bind_eq_ok.1 hread
    obtain ⟨w', m₂', hagain⟩ := exists_run_eq_ok_grown
      (fun ρ => alike_evaluate ρ (n + 1) hinert.object e)
      (fun m current => run_evaluate_current n _ e current m) hm hgrown hobject
    refine .bind (.of_ok hagain) fun w' m₃ _ => ?_
    refine .bind (.host (run_putAttribute_ne_raised w' _ u m₃.toHost)) fun b _ _ => ?_
    cases b with
    | true => exact .of_ok rfl
    | false => exact .report _ _
  | index left right =>
    obtain ⟨hleft, hright⟩ := hinert.operands
    rw [readTarget_index] at hread
    obtain ⟨p, m₂, hvalues, -⟩ := run_bind_eq_ok.1 hread
    obtain ⟨p', m₂', hagain⟩ := exists_run_eq_ok_grown (fun ρ => alike_operands
      (alike_evaluate ρ (n + 1) hleft e) (alike_evaluate ρ (n + 1) hright e))
      (fun _ _ => rfl) hm hgrown hvalues
    rw [assignTarget_index]
    refine .bind (.of_ok hagain) fun p m₃ _ => ?_
    refine .bind (.host (run_putItem_ne_raised p.1 p.2 u m₃.toHost)) fun b _ _ => ?_
    cases b with
    | true => exact .of_ok rfl
    | false => exact .bind (.text _ _) fun _ _ _ => .bind (.text _ _) fun _ _ _ => .report _ _

/-- The target and the expression have values of which exactly one is a text. -/
def ReadsMixed (g : Engine) (e : ScopeId) (target expr : Node) (m : Machine) : Prop :=
  ∃ v m₁ w m₂, (readTarget g e target).run m = (.ok v, m₁) ∧
    (g.evaluate expr e).run m₁ = (.ok w, m₂) ∧ v.isText ≠ w.isText

/-- A compound sum of a text and another value ends with an error of a wrong type. -/
theorem endsInTypeError_compound_add (h : ReadsMixed g e target expr m) :
    EndsInTypeError ((compound g e target expr (applyAssignOp .add)).run m) := by
  obtain ⟨v, m₁, w, m₂, hread, hexpr, hmixed⟩ := h
  obtain ⟨f, hf, hadd⟩ := run_add_mixed hmixed m₂.toHost
  have hfail : (liftM (applyAssignOp .add v w) : Exec Value).run m₂ =
      (.error (.raised (.ref m₂.store.size)),
        { m₂ with store := m₂.store.push (.failure f []) }) := by
    change (liftM (add v w) : Exec Value).run m₂ = _
    rw [run_host, hadd]
    rfl
  simp only [compound, run_bind, hread, hexpr, hfail]
  exact ⟨_, f, [], rfl, Array.getElem?_push_size, hf⟩

/-- The same values are joined without such an error by a sum that is written out. -/
theorem noTypeError_compound_join {n : Nat} (htarget : target.Inert) (hexpr : expr.Inert)
    {ss : Scopes Value} (hassignable : target.Assignable ss e) (hm : m.Closed)
    (h : ReadsMixed (.ofDepth (n + 1)) e target expr m) :
    NoTypeError (compound (.ofDepth (n + 1)) e target expr (strictBinary .add)) m := by
  obtain ⟨v, m₁, w, m₂, hread, hvalue, hmixed⟩ := h
  have hboth := (alike_readTarget id (n + 1) htarget hassignable).bind fun _ _ _ =>
    alike_evaluate id (n + 1) hexpr e
  have hrun : (readTarget (.ofDepth (n + 1)) e target >>= fun _ =>
      (Engine.ofDepth (n + 1)).evaluate expr e).run m = (.ok w, m₂) :=
    run_bind_eq_ok.2 ⟨v, m₁, hread, hvalue⟩
  have hgrown := (Alike.adds hboth m).grown
  rw [hrun] at hgrown
  refine .bind (.of_ok hread) fun v' m₁' hread' => ?_
  cases hread.symm.trans hread'
  refine .bind (.of_ok hvalue) fun w' m₂' hvalue' => ?_
  cases hvalue.symm.trans hvalue'
  refine .bind (noTypeError_addOrJoin hmixed m₂) fun u m₃ hjoin => ?_
  have hgrown' := ((Alike.host (alike_strictBinary .add v w)).adds m₂).grown
  rw [hjoin] at hgrown'
  exact .bind (noTypeError_assignTarget htarget hassignable hm (hgrown.trans hgrown') hread u)
    fun _ _ _ => .of_ok rfl

/-- The extra round does not matter but for the numbers of new objects. -/
theorem sameSince_extraRound (n : Nat) (htarget : target.Inert) (hexpr : expr.Inert)
    {ss : Scopes Value} (hassignable : target.Assignable ss e) (hm : m.Closed) (op : BinaryOp) :
    m.SameSince ((compound (.ofDepth n) e target expr (strictBinary op)).run m)
      ((extraRound (.ofDepth n) e target >>= fun _ =>
        compound (.ofDepth n) e target expr (strictBinary op)).run m) := by
  cases hassignable with
  | name => exact .inl rfl
  | member => exact .inl rfl
  | index left right =>
    obtain ⟨hleft, hright⟩ := htarget.operands
    have hvalues := alike_operands (alike_evaluate id n hleft e) (alike_evaluate id n hright e)
    have hround : Alike id Eq (extraRound (.ofDepth n) e (.binary left .index right))
        (extraRound (.ofDepth n) e (.binary left .index right)) :=
      hvalues.bind fun _ _ _ => .pure rfl
    refine sameSince_bind hm (hround.adds m)
      (fun ρ => twins_compound_index (alike_evaluate ρ n hleft e) (alike_evaluate ρ n hright e)
        (alike_evaluate ρ n hexpr e) op) (fun s m₁ hrun => ?_) fun a m₁ hrun => ?_
    · rw [extraRound, run_bind] at hrun
      rcases hvalues : (operands (.ofDepth n) e left right).run m with ⟨s | p, m'⟩ <;>
        rw [hvalues] at hrun <;> cases hrun
      simp only [compound, readTarget_index, applyOnce, run_bind, hvalues]
    · -- Without a step left the operands would have failed.
      cases n with
      | zero => cases hrun
      | succ n => rfl

/-- For a target and an expression without calls, a compound assignment does what the assignment of
the operator's result does, unless it adds a text and another value. If the target is no subscript,
it is the same run; otherwise new objects may have other numbers. The sum of a text and another
value is an error of a wrong type in a compound assignment, but not as an operator. -/
theorem augAssign_agrees_iff (htarget : target.Inert) (hexpr : expr.Inert) {op : AssignOp}
    {bop : BinaryOp} (hop : op.operator? = some bop) :
    ∃ D, ∀ n ≥ D, ∀ e m, target.Assignable m.scopes e →
      let aug := ((Engine.ofDepth (n + 1)).execute (assignment target (some op) expr) e).run m
      let asg := ((Engine.ofDepth (n + 1)).execute
        (assignment target none (.binary target bop expr)) e).run m
      let mixed := op = .add ∧ ReadsMixed (.ofDepth n) e target expr { m with current := e }
      (¬ mixed → (∀ left right, target ≠ .binary left .index right) → aug = asg) ∧
      (mixed → EndsInTypeError aug) ∧
      (m.Closed → (m.SameSince aug asg ↔ ¬ mixed) ∧ (mixed → ¬ EndsInTypeError asg)) := by
  have hstrict : bop ≠ .and ∧ bop ≠ .or ∧ bop ≠ .index := by
    cases op <;> cases hop <;> exact ⟨nofun, nofun, nofun⟩
  obtain ⟨D, hD⟩ := exists_run_assign_operator htarget hexpr hstrict.1 hstrict.2.1 hstrict.2.2
  refine ⟨D + 1, fun n hn e m hassignable => ?_⟩
  obtain ⟨n, rfl⟩ : ∃ k, n = k + 1 := ⟨n - 1, by omega⟩
  intro aug asg mixed
  let m₀ := { m with current := e }
  let once := (compound (.ofDepth (n + 1)) e target expr (strictBinary bop)).run m₀
  have haug : aug = (compound (.ofDepth (n + 1)) e target expr (applyAssignOp op)).run m₀ :=
    run_augAssign (n + 1) hassignable op
  have hasg : asg = (extraRound (.ofDepth (n + 1)) e target >>= fun _ =>
      compound (.ofDepth (n + 1)) e target expr (strictBinary bop)).run m₀ :=
    hD (n + 1) (by omega) e m hassignable
  have hagrees (h : ¬ mixed) : aug = once := by
    refine haug.trans (run_compound_congr fun v m₁ w m₂ hv hw => ?_)
    refine applyAssignOp_eq_strictBinary hop fun hadd => by_contra fun hne => ?_
    exact h ⟨hadd, v, m₁, w, m₂, hv, hw, hne⟩
  have hfails (h : mixed) : EndsInTypeError aug := by
    obtain ⟨rfl, hreads⟩ := h
    rw [haug]
    exact endsInTypeError_compound_add hreads
  refine ⟨fun h hnot => ?_, hfails, fun hm => ?_⟩
  · rw [hagrees h, hasg]
    cases hassignable with
    | name => rfl
    | member => rfl
    | index left right => exact absurd rfl (hnot left right)
  have hsame : m.SameSince once asg := by
    rw [hasg]
    exact sameSince_extraRound (n + 1) htarget hexpr hassignable (hm.inScope e) bop
  have hjoins (h : mixed) : ¬ EndsInTypeError asg := by
    obtain ⟨rfl, hreads⟩ := h
    cases hop
    rw [← hsame.endsInTypeError_iff]
    exact noTypeError_compound_join htarget hexpr hassignable (hm.inScope e) hreads
  refine ⟨⟨fun hsince h => ?_, fun h => ?_⟩, hjoins⟩
  · exact hjoins h (hsince.endsInTypeError_iff.1 (hfails h))
  · rw [hagrees h]
    exact hsame

/-- With the text `a` in `s`, the compound assignment `s += 1` fails where `s = s + 1` does not. -/
theorem augAssign_agrees_iff_text :
    let target : Node := .name "s"
    let expr : Node := .number (.int 1)
    let m : Machine := { scopes := #[{ vars := [("s", .text "a")] }] }
    target.Assignable m.scopes 0 ∧ m.Closed ∧ ∃ D, ∀ n ≥ D,
      let aug := ((Engine.ofDepth (n + 1)).execute (assignment target (some .add) expr) 0).run m
      let asg := ((Engine.ofDepth (n + 1)).execute
        (assignment target none (.binary target .add expr)) 0).run m
      EndsInTypeError aug ∧ ¬ EndsInTypeError asg ∧ ¬ m.SameSince aug asg := by
  intro target expr m
  have hassignable : target.Assignable m.scopes 0 := .name (by decide) (v := .text "a") rfl
  have hclosed : m.Closed := ⟨by decide, by decide, by decide⟩
  obtain ⟨D, hD⟩ := @augAssign_agrees_iff target expr (.name "s") (.number (.int 1)) .add .add rfl
  refine ⟨hassignable, hclosed, D + 1, fun n hn => ?_⟩
  obtain ⟨n, rfl⟩ : ∃ k, n = k + 1 := ⟨n - 1, by omega⟩
  obtain ⟨-, hfails, hrest⟩ := hD (n + 1) (by omega) 0 m hassignable
  obtain ⟨hsame, hjoins⟩ := hrest hclosed
  have hreads : ReadsMixed (.ofDepth (n + 1)) 0 target expr m :=
    ⟨.text "a", m, .int 1, m, rfl, rfl, by decide⟩
  exact ⟨hfails ⟨rfl, hreads⟩, hjoins ⟨rfl, hreads⟩, fun h => hsame.1 h ⟨rfl, hreads⟩⟩

end Exec

end ScriptLang
