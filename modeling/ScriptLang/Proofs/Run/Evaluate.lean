import ScriptLang.Proofs.Run.Basic
import ScriptLang.Run.Interpreter

/-!
# Evaluation and the scopes

An expression without calls leaves the scopes alone and sees of them only what names read as. A text
may embed expressions: these are what their sources spell, whether they are read now or were kept
from an earlier reading.
-/

namespace ScriptLang

variable {α β : Type}

/-- An expression without calls; the expressions that are embedded in its texts have none either. -/
inductive Node.CallFree : Node → Prop where
  | name (id : String) : CallFree (.name id)
  | number (value : Literal) : CallFree (.number value)
  | text {s : String} : (∀ source, .embedded source ∈ textPieces 0 s.toList →
      ∀ quiet node, parseEmbedded quiet source = .ok node → CallFree node) → CallFree (.text s)
  | list {items : List Node} : (∀ item ∈ items, CallFree item) → CallFree (.list items)
  | dict {pairs : List (String × Node)} : (∀ p ∈ pairs, CallFree p.2) → CallFree (.dict pairs)
  | binary {left right : Node} (op : BinaryOp) : CallFree left → CallFree right →
      CallFree (.binary left op right)
  | unary {operand : Node} (op : UnaryOp) : CallFree operand → CallFree (.unary op operand)
  | ternary {condition ifTrue ifFalse : Node} : CallFree condition → CallFree ifTrue →
      CallFree ifFalse → CallFree (.ternary condition ifTrue ifFalse)
  | member {object : Node} (name : String) : CallFree object → CallFree (.member object name)

/-- A text without embedded expressions is nothing but its characters. -/
theorem textPieces_eq_map_plain {cs : List Char}
    (h : ∀ source, .embedded source ∉ textPieces 0 cs) : textPieces 0 cs = cs.map .plain := by
  have hskip (skip : Nat) (cs : List Char) (h : ∀ source, .embedded source ∉ textPieces skip cs) :
      textPieces skip cs = (cs.drop skip).map .plain := by
    fun_induction textPieces skip cs with
    | case1 => simp
    | case2 skip c cs ih => exact ih h
    | case3 cs body hbody ih => exact absurd List.mem_cons_self (h _)
    | case4 cs hnone ih =>
      rw [ih fun source hmem => h source (List.mem_cons_of_mem _ hmem)]
      rfl
    | case5 c cs hc ih =>
      rw [ih fun source hmem => h source (List.mem_cons_of_mem _ hmem)]
      rfl
  exact hskip 0 cs h

namespace Exec

/-! ### Reading names -/

/-- The computation keeps the scopes and sees of them only what names read as. -/
def ReadsNames (e : ScopeId) (x : Exec α) : Prop :=
  ∀ m, (x.run m).2.scopes = m.scopes ∧
    ∀ ss : Scopes Value, (∀ name, ss.get? e name = m.scopes.get? e name) →
      x.run { m with scopes := ss } = ((x.run m).1, { (x.run m).2 with scopes := ss })

variable {g : Engine} {e : ScopeId}

namespace ReadsNames

@[grind .]
theorem pure (a : α) : ReadsNames e (pure a : Exec α) := fun _ => ⟨rfl, fun _ _ => rfl⟩

@[grind .]
theorem throw (s : Signal) : ReadsNames e (throw s : Exec α) := fun _ => ⟨rfl, fun _ _ => rfl⟩

@[grind .]
theorem host (x : HostExec α) : ReadsNames e (liftM x : Exec α) := fun _ => ⟨rfl, fun _ _ => rfl⟩

/-- It is enough that the second computation reads names for what the first can give. -/
theorem bind_of_ok {x : Exec α} {f : α → Exec β} (hx : ReadsNames e x)
    (hf : ∀ a m m', x.run m = (.ok a, m') → ReadsNames e (f a)) : ReadsNames e (x >>= f) := by
  intro m
  obtain ⟨hkept, hswap⟩ := hx m
  rcases hrun : x.run m with ⟨s | a, m'⟩ <;> rw [hrun] at hkept hswap
  · refine ⟨by rw [run_bind, hrun]; exact hkept, fun ss hss => ?_⟩
    rw [run_bind, run_bind, hrun, hswap ss hss]
  · obtain ⟨hkept', hswap'⟩ := hf a m m' hrun m'
    refine ⟨by rw [run_bind, hrun]; exact hkept'.trans hkept, fun ss hss => ?_⟩
    rw [run_bind, run_bind, hrun, hswap ss hss]
    exact hswap' ss (hkept ▸ hss)

@[grind .]
theorem bind {x : Exec α} {f : α → Exec β} (hx : ReadsNames e x) (hf : ∀ a, ReadsNames e (f a)) :
    ReadsNames e (x >>= f) :=
  hx.bind_of_ok fun a _ _ _ => hf a

@[grind .]
theorem map (f : α → β) {x : Exec α} (hx : ReadsNames e x) : ReadsNames e (f <$> x) := by
  rw [map_eq_pure_bind]
  exact hx.bind fun a => pure (f a)

@[grind .]
theorem tryCatch {x : Exec α} {f : Signal → Exec α} (hx : ReadsNames e x)
    (hf : ∀ s, ReadsNames e (f s)) : ReadsNames e (tryCatch x f : Exec α) := by
  intro m
  obtain ⟨hkept, hswap⟩ := hx m
  rcases hrun : x.run m with ⟨s | a, m'⟩ <;> rw [hrun] at hkept hswap
  · obtain ⟨hkept', hswap'⟩ := hf s m'
    refine ⟨by rw [run_tryCatch, hrun]; exact hkept'.trans hkept, fun ss hss => ?_⟩
    rw [run_tryCatch, run_tryCatch, hrun, hswap ss hss]
    exact hswap' ss (hkept ▸ hss)
  · refine ⟨by rw [run_tryCatch, hrun]; exact hkept, fun ss hss => ?_⟩
    rw [run_tryCatch, run_tryCatch, hrun, hswap ss hss]

/-- The computation goes on alike if all names read alike. -/
theorem bind_get {f : Machine → Exec α} (hf : ∀ m, ReadsNames e (f m))
    (hnames : ∀ (m : Machine) (ss : Scopes Value),
      (∀ name, ss.get? e name = m.scopes.get? e name) → f { m with scopes := ss } = f m) :
    ReadsNames e (get >>= f) := by
  intro m
  obtain ⟨hkept, hswap⟩ := hf m m
  refine ⟨hkept, fun ss hss => ?_⟩
  rw [run_bind, run_bind, run_get, run_get]
  dsimp only
  rw [hnames m ss hss]
  exact hswap ss hss

end ReadsNames

theorem readsNames_lookup (name : String) : ReadsNames e (lookup e name) := by
  refine .bind_get (fun m => ?_) fun m ss hss => ?_
  · cases m.scopes.get? e name <;> grind -funext
  · simp only [hss]

/-! ### Expressions without calls -/

/-- A text that cannot be read gives no result. -/
theorem run_stopReading_ne_ok (stop : ParseStop) (host host' : Host) (a : α) :
    (stopReading stop).run host ≠ (.ok a, host') := by
  cases stop with
  | reported n =>
    intro h
    obtain ⟨_, _, -, hthrow⟩ := run_hostBind_eq_ok h
    cases hthrow
  | raised n => exact nofun
  | failed f => exact nofun
  | exhausted => exact nofun

/-- The expression that is embedded in a text is one that its source spells. -/
theorem parsed_of_embeddedNode {source : String} {node : Node} {host host' : Host}
    (h : (embeddedNode source).run host = (.ok node, host')) :
    ∃ quiet, parseEmbedded quiet source = .ok node := by
  have hget (f : Host → HostExec Node) : (get >>= f).run host = (f host).run host := rfl
  rw [embeddedNode, hget] at h
  split at h
  · next hknown =>
      cases h
      exact host.embedded.parsed hknown
  · split at h
    · next hparse =>
        cases h
        exact ⟨_, hparse⟩
    · exact absurd h (run_stopReading_ne_ok _ _ _ _)

/-- An embedded expression sees of the scopes what the expression does. -/
theorem readsNames_embeddedText {source : String}
    (h : ∀ quiet node, parseEmbedded quiet source = .ok node → ReadsNames e (g.evaluate node e)) :
    ReadsNames e (embeddedText g e source) := by
  refine .tryCatch (.bind_of_ok (.host _) fun node m m' hrun => ?_) fun s => ?_
  · obtain ⟨quiet, hparse⟩ := parsed_of_embeddedNode (run_host_eq_ok hrun).1
    exact .bind (h quiet node hparse) fun v => .host _
  · grind -funext

theorem readsNames_interpolate {pieces : List TextPiece}
    (h : ∀ source, .embedded source ∈ pieces → ReadsNames e (embeddedText g e source)) :
    ReadsNames e (interpolate g e pieces) := by
  induction pieces with
  | nil => exact .pure _
  | cons piece pieces ih =>
    have hrest := ih fun source hsource => h source (List.mem_cons_of_mem _ hsource)
    cases piece with
    | plain c => exact .bind hrest fun cs => .pure _
    | embedded source =>
      exact .bind (h source List.mem_cons_self) fun s => .bind hrest fun cs => .pure _

theorem readsNames_evaluateAll {nodes : List Node}
    (h : ∀ node ∈ nodes, ReadsNames e (g.evaluate node e)) :
    ReadsNames e (evaluateAll g e nodes) := by
  induction nodes with
  | nil => exact .pure _
  | cons node nodes ih =>
    exact .bind (h node List.mem_cons_self) fun v =>
      .bind (ih fun n hn => h n (List.mem_cons_of_mem _ hn)) fun vs => .pure _

theorem readsNames_evaluatePairs {pairs : List (String × Node)}
    (h : ∀ p ∈ pairs, ReadsNames e (g.evaluate p.2 e)) (t : Table Value) :
    ReadsNames e (evaluatePairs g e t pairs) := by
  induction pairs generalizing t with
  | nil => exact .pure _
  | cons p pairs ih =>
    exact .bind (h p List.mem_cons_self) fun v => ih (fun q hq => h q (List.mem_cons_of_mem _ hq)) _

theorem readsNames_evaluateBinary {left right : Node} (op : BinaryOp)
    (hleft : ReadsNames e (g.evaluate left e)) (hright : ReadsNames e (g.evaluate right e)) :
    ReadsNames e (evaluateBinary g e left op right) := by
  unfold evaluateBinary
  grind -funext

theorem readsNames_evaluateMember {object : Node} (name : String)
    (h : ReadsNames e (g.evaluate object e)) : ReadsNames e (evaluateMember g e object name) := by
  refine .bind_get (fun m => ?_) fun m ss hss => ?_
  · dsimp only
    grind -funext
  · simp only [hss]

/-- An expression without calls reads names. -/
theorem readsNames_evaluate (depth : Nat) {node : Node} (h : node.CallFree) (e : ScopeId) :
    ReadsNames e ((Engine.ofDepth depth).evaluate node e) := by
  induction depth generalizing node with
  | zero => exact .throw _
  | succ depth ih =>
    have hscope : ReadsNames e (inScope e) := fun m => ⟨rfl, fun ss _ => rfl⟩
    refine .bind hscope fun _ => ?_
    cases h with
    | name id => exact readsNames_lookup id
    | number value => exact .pure _
    | text hpieces =>
      refine .bind (readsNames_interpolate fun source hsource => ?_) fun cs => .pure _
      exact readsNames_embeddedText fun quiet node hnode =>
        ih (hpieces source hsource quiet node hnode)
    | list hitems =>
      exact .bind (readsNames_evaluateAll fun item hi => ih (hitems item hi)) fun vs => .host _
    | dict hpairs =>
      exact .bind (readsNames_evaluatePairs (fun p hp => ih (hpairs p hp)) []) fun t =>
        .map _ (.host _)
    | binary op hleft hright => exact readsNames_evaluateBinary op (ih hleft) (ih hright)
    | unary op hoperand => exact .bind (ih hoperand) fun v => .host _
    | ternary hcondition htrue hfalse =>
      refine .bind (ih hcondition) fun v => .bind (.host _) fun b => ?_
      cases b
      · exact ih hfalse
      · exact ih htrue
    | member name hobject => exact readsNames_evaluateMember name (ih hobject)

/-- Evaluating an expression without calls respects every preorder: it leaves the scopes alone. -/
theorem respects_evaluate_of_callFree {R : Scopes Value → Scopes Value → Prop}
    [IsPreorder (Scopes Value) R] (depth : Nat) {node : Node} (h : node.CallFree) (e : ScopeId) :
    Respects R ((Engine.ofDepth depth).evaluate node e) := by
  intro m
  rw [(readsNames_evaluate depth h e m).1]
  exact refl m.scopes

end Exec

end ScriptLang
