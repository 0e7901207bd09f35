import ScriptLang.Proofs.Lint.Analysis
import ScriptLang.Proofs.Run.Globals
import ScriptLang.Proofs.Run.Notices

/-!
# The analysis is sound on the structured core

An analysis has a stack of scopes; a run has one flat scope and a stack of the names that its open
blocks have bound. The two are compared by `Analysis.Matches`: what the analysis has declared is
bound, and read-only if it was declared so. A run may bind more than that.

A statement touches only the names that it declares, whatever its outcome is. If these are not yet
declared, the match outlasts it, also if it is left early. So it carries from statement to
statement, around loops and into handlers.
-/

namespace ScriptLang

variable {α β : Type}

/-! ### The match -/

/-- What the analysis has declared is bound in the scope, with the flag it was declared with. -/
structure Analysis.Matches (a : Analysis) (e : ScopeId) (ss : Scopes α) : Prop where
  outermost : ss.Outermost e
  flags : ∀ x readOnly, a.declaration? x = some readOnly → ss.flag? e x = some readOnly

namespace Analysis.Matches

open Scopes (Confined)

variable {a b : Analysis} {e : ScopeId} {D : List String} {x : String} {ss ss' : Scopes α}

theorem isSome_flag? (h : a.Matches e ss) (hx : (a.declaration? x).isSome) :
    (ss.flag? e x).isSome := by
  obtain ⟨readOnly, hdeclared⟩ := Option.isSome_iff_exists.1 hx
  rw [h.flags x readOnly hdeclared]
  rfl

/-- Only the scopes of the analysis matter. -/
theorem congr (h : a.Matches e ss) (hb : b.scopes = a.scopes) : b.Matches e ss :=
  ⟨h.outermost, fun x readOnly hx => h.flags x readOnly (by rwa [← declaration?_congr hb])⟩

/-- What touches only names that are not declared keeps the match. -/
theorem confined (h : a.Matches e ss) (hss : Confined e D ss ss')
    (hD : ∀ x ∈ D, a.declaration? x = none) : a.Matches e ss' := by
  refine ⟨hss.outermost h.outermost, fun x readOnly hx => ?_⟩
  rw [hss.flags x fun hmem => by simp [hD x hmem] at hx]
  exact h.flags x readOnly hx

/-- A new scope of the analysis declares nothing. -/
theorem push (h : a.Matches e ss) : a.push.Matches e ss := ⟨h.outermost, h.flags⟩

/-- Blocks make no difference. -/
theorem pushBlock (h : a.Matches e ss) : a.Matches e (ss.pushBlock e) := by
  have hscope : (ss.pushBlock e).scope e = (ss.scope e).pushBlock := by
    rw [Scopes.pushBlock, Scopes.scope_update, if_pos ⟨rfl, h.outermost.lt_size⟩]
  refine ⟨⟨by simpa using h.outermost.lt_size, ?_⟩, fun x readOnly hx => ?_⟩
  · rw [hscope]
    exact h.outermost.ancestors
  · rw [Scopes.flag?, hscope]
    exact h.flags x readOnly hx

/-- Declaring a name on both sides keeps the match. -/
theorem declare (h : a.Matches e ss) (ha : a.scopes ≠ []) (hss : Confined e [x] ss ss')
    {readOnly : Bool} (hx : ss'.flag? e x = some readOnly) :
    (a.declare x readOnly).Matches e ss' := by
  refine ⟨hss.outermost h.outermost, fun y flag hy => ?_⟩
  rw [declaration?_declare ha] at hy
  split at hy
  · next hxy =>
    subst hxy
    rw [hx, hy]
  · next hxy =>
    rw [hss.flags y fun hmem => hxy (List.mem_singleton.1 hmem).symm]
    exact h.flags y flag hy

end Analysis.Matches

/-- A notice about a name that is not in scope or that is read-only. -/
def Notice.AboutName (n : Notice) : Prop := n.form.number = "0008" ∨ n.form.number = "0027"

namespace Exec

open Node (Plain Core declared declaredAll)
open Analysis (analyze analyzeAll analyze_assign analyze_augAssign)
open Scopes (Confined)

/-! ### Expressions -/

/-- From scopes with the property, the computation leaves the scopes alone, and shows nothing or
ends with a notice that is not about a name. -/
def Calm (K : Scopes Value → Prop) (x : Exec α) : Prop :=
  ∀ m, K m.scopes → (x.run m).2.scopes = m.scopes ∧ (x.run m).2.root = m.root ∧
    Shown (fun n => ¬ n.AboutName) m.world.events (x.run m).2.world.events
      ((x.run m).1 = .error (.exit (.int 1)))

variable {K : Scopes Value → Prop}

namespace Calm

@[grind .]
theorem pure (a : α) : Calm K (pure a : Exec α) := fun _ _ => ⟨rfl, rfl, .inl rfl⟩

@[grind .]
theorem throw (s : Signal) : Calm K (throw s : Exec α) := fun _ _ => ⟨rfl, rfl, .inl rfl⟩

@[grind .]
theorem inScope (e : ScopeId) : Calm K (inScope e) := fun _ _ => ⟨rfl, rfl, .inl rfl⟩

@[grind .]
theorem host {x : HostExec α} (hx : HostExec.Shows (fun n => ¬ n.AboutName) x) :
    Calm K (liftM x : Exec α) := by
  intro m _
  obtain ⟨hnone, hnotice⟩ := hx m.toHost
  refine ⟨rfl, rfl, ?_⟩
  rw [run_host]
  revert hnone hnotice
  rcases x.run m.toHost with ⟨halt | a, host⟩ <;> intro hnone hnotice
  · cases halt with
    | reported line =>
      obtain ⟨n, reader, hn, rfl⟩ := hnotice line rfl
      exact .inr ⟨rfl, n, reader, hn, congrArg _ hnone⟩
    | _ => exact .inl hnone
  · exact .inl hnone

@[grind .]
theorem bind {x : Exec α} {f : α → Exec β} (hx : Calm K x) (hf : ∀ a, Calm K (f a)) :
    Calm K (x >>= f) := by
  intro m hm
  obtain ⟨hscopes, hroot, hshown⟩ := hx m hm
  rw [run_bind]
  revert hscopes hroot hshown
  rcases x.run m with ⟨s | a, m'⟩ <;> intro hscopes hroot hshown
  · refine ⟨hscopes, hroot, ?_⟩
    obtain hnone | ⟨⟨⟩, hnotice⟩ := hshown
    · exact .inl hnone
    · exact .inr ⟨rfl, hnotice⟩
  · obtain hnone | ⟨⟨⟩, -⟩ := hshown
    obtain ⟨hscopes', hroot', hshown'⟩ := hf a m' (hscopes ▸ hm)
    exact ⟨hscopes'.trans hscopes, hroot'.trans hroot, hnone ▸ hshown'⟩

@[grind .]
theorem map (f : α → β) {x : Exec α} (hx : Calm K x) : Calm K (f <$> x) := by
  rw [map_eq_pure_bind]
  exact hx.bind fun a => pure (f a)

end Calm

theorem calm_lookup {e : ScopeId} {x : String} (h : ∀ ss, K ss → (ss.get? e x).isSome) :
    Calm K (lookup e x) := by
  intro m hm
  obtain ⟨v, hv⟩ := Option.isSome_iff_exists.1 (h m.scopes hm)
  have hrun : (lookup e x).run m = (.ok v, m) := by
    rw [lookup, run_bind, run_get]
    simp only [hv]
    rfl
  rw [hrun]
  exact ⟨rfl, rfl, .inl rfl⟩

variable {g : Engine} {e : ScopeId}

theorem calm_evaluateAll {nodes : List Node} (h : ∀ n ∈ nodes, Calm K (g.evaluate n e)) :
    Calm K (evaluateAll g e nodes) := by
  induction nodes with
  | nil => exact .pure _
  | cons n nodes ih =>
    exact .bind (h n List.mem_cons_self) fun v =>
      .bind (ih fun n hn => h n (List.mem_cons_of_mem _ hn)) fun vs => .pure _

theorem calm_evaluatePairs {pairs : List (String × Node)}
    (h : ∀ p ∈ pairs, Calm K (g.evaluate p.2 e)) (t : Table Value) :
    Calm K (evaluatePairs g e t pairs) := by
  induction pairs generalizing t with
  | nil => exact .pure _
  | cons p pairs ih =>
    exact .bind (h p List.mem_cons_self) fun v => ih (fun q hq => h q (List.mem_cons_of_mem _ hq)) _

theorem calm_evaluateBinary {left right : Node} (op : BinaryOp) (hleft : Calm K (g.evaluate left e))
    (hright : Calm K (g.evaluate right e)) : Calm K (evaluateBinary g e left op right) := by
  have hentry (key collection : String) : ¬ (Notice.noEntry key collection).AboutName := by
    simp [Notice.AboutName, Notice.form, NoticeForm.noEntry]
  have hop (op : String) : ¬ (Notice.unknownOperator op).AboutName := by
    simp [Notice.AboutName, Notice.form, NoticeForm.unknownOperator]
  unfold evaluateBinary
  grind -funext [shows_indexed, shows_strictBinary]

/-- A text without a backslash before a parenthesis embeds nothing. -/
theorem embedded_not_mem_textPieces {cs : List Char} (h : ¬ ['\\', '('] <:+: cs) (source : String) :
    .embedded source ∉ textPieces 0 cs := by
  generalize 0 = skip
  fun_induction textPieces skip cs with
  | case1 => simp
  | case2 skip c cs ih => exact ih fun hsub => h (hsub.trans (List.suffix_cons c cs).isInfix)
  | case3 cs => exact absurd (List.prefix_append ['\\', '('] cs).isInfix h
  | case4 cs => exact absurd (List.prefix_append ['\\', '('] cs).isInfix h
  | case5 c cs hc ih =>
    simpa using ih fun hsub => h (hsub.trans (List.suffix_cons c cs).isInfix)

theorem calm_interpolate {pieces : List TextPiece} (h : ∀ source, .embedded source ∉ pieces) :
    Calm K (interpolate g e pieces) := by
  induction pieces with
  | nil => exact .pure _
  | cons piece pieces ih =>
    cases piece with
    | plain c =>
      exact .bind (ih fun s hs => h s (List.mem_cons_of_mem _ hs)) fun cs => .pure _
    | embedded source => exact absurd List.mem_cons_self (h source)

/-- Evaluating a plain expression whose names are bound. -/
theorem calm_evaluate {S : String → Prop} (hS : ∀ x, S x → ∀ ss, K ss → (ss.get? e x).isSome)
    (depth : Nat) {n : Node} (h : Plain S n) : Calm K ((Engine.ofDepth depth).evaluate n e) := by
  induction depth generalizing n with
  | zero => exact .throw _
  | succ depth ih =>
    refine .bind (.inScope e) fun _ => ?_
    cases h with
    | number value => exact .pure _
    | text htext =>
      exact .bind (calm_interpolate (embedded_not_mem_textPieces htext)) fun cs => .pure _
    | name hx => exact calm_lookup (hS _ hx)
    | list hitems =>
      exact .bind (calm_evaluateAll fun n hn => ih (hitems n hn)) fun vs => .host (shows_newList vs)
    | dict hpairs =>
      exact .bind (calm_evaluatePairs (fun p hp => ih (hpairs p hp)) []) fun t =>
        .map _ (.host (shows_dictOfTable t))
    | binary op hleft hright => exact calm_evaluateBinary op (ih hleft) (ih hright)
    | unary op hoperand =>
      refine .bind (ih hoperand) fun v => .host (shows_strictUnary (fun op => ?_) op v)
      simp [Notice.AboutName, Notice.form, NoticeForm.unknownUnary]
    | ternary hcondition htrue hfalse =>
      refine .bind (ih hcondition) fun v => .bind (.host (shows_truth v)) fun b => ?_
      cases b
      · exact ih hfalse
      · exact ih htrue

/-- An expression in which the analysis finds nothing is evaluated without a notice about a name. -/
theorem calm_evaluate_of_analyze {a : Analysis} (depth : Nat) {n : Node}
    (h : Plain (fun _ => True) n) (hnone : (analyze n a).notices = []) :
    Calm (a.Matches e) ((Engine.ofDepth depth).evaluate n e) := by
  refine calm_evaluate (fun x hx ss hss => ?_) depth (Analysis.plain_of_notices_eq_nil h rfl hnone)
  rw [hss.outermost.isSome_get?]
  exact hss.isSome_flag? hx

/-! ### Runs confined to some names -/

/-- The run from `m` touched only names among `D` in scope `e`, and it showed nothing or ended with
a notice that is not about a name. If it gave a result, the scopes had the property then. -/
structure Ended (e : ScopeId) (D : List String) (Q : Scopes Value → Prop) (m : Machine)
    (r : Except Signal α × Machine) : Prop where
  confined : Confined e D m.scopes r.2.scopes
  root : r.2.root = m.root
  shown : Shown (fun n => ¬ n.AboutName) m.world.events r.2.world.events
    (r.1 = .error (.exit (.int 1)))
  result : ∀ a, r.1 = .ok a → Q r.2.scopes

def Confines (e : ScopeId) (D : List String) (Q : Scopes Value → Prop) (x : Exec α)
    (m : Machine) : Prop := Ended e D Q m (x.run m)

variable {D D' : List String} {Q Q' : Scopes Value → Prop} {m : Machine}

theorem Calm.confines {x : Exec α} (hx : Calm K x) (hm : K m.scopes) :
    Confines e D (· = m.scopes) x m := by
  obtain ⟨hscopes, hroot, hshown⟩ := hx m hm
  exact ⟨hscopes ▸ .refl e D m.scopes, hroot, hshown, fun _ _ => hscopes⟩

/-- After a run that showed nothing, another one goes on. -/
theorem Ended.trans {m' : Machine} {a : α} {r : Except Signal β × Machine}
    (h : Ended e D Q m (Except.ok a, m')) (h' : Ended e D Q' m' r) : Ended e D Q' m r := by
  obtain hnone | ⟨⟨⟩, -⟩ := h.shown
  exact ⟨h.confined.trans h'.confined, h'.root.trans h.root, hnone ▸ h'.shown, h'.result⟩

namespace Confines

theorem mono {x : Exec α} (h : Confines e D Q x m) (hD : D ⊆ D') (hQ : ∀ ss, Q ss → Q' ss) :
    Confines e D' Q' x m :=
  ⟨h.confined.mono hD, h.root, h.shown, fun a ha => hQ _ (h.result a ha)⟩

theorem pure {a : α} (h : Q m.scopes) : Confines e D Q (pure a : Exec α) m :=
  ⟨.refl .., rfl, .inl rfl, fun _ _ => h⟩

theorem throw (s : Signal) : Confines e D Q (throw s : Exec α) m :=
  ⟨.refl .., rfl, .inl rfl, nofun⟩

theorem modifyScopes {f : Scopes Value → Scopes Value} (h : Confined e D m.scopes (f m.scopes)) :
    Confines e D (· = f m.scopes) (modifyScopes f) m :=
  ⟨h, rfl, .inl rfl, fun _ _ => rfl⟩

/-- The rule of sequence: what the first part establishes, the second one starts from. -/
theorem bind {x : Exec α} {f : α → Exec β} (hx : Confines e D Q x m)
    (hf : ∀ a m', Confined e D m.scopes m'.scopes → m'.root = m.root → Q m'.scopes →
      Confines e D Q' (f a) m') : Confines e D Q' (x >>= f) m := by
  unfold Confines at hx ⊢
  rw [run_bind]
  revert hx
  rcases x.run m with ⟨s | a, m'⟩ <;> intro hx
  · refine ⟨hx.confined, hx.root, ?_, nofun⟩
    obtain hnone | ⟨⟨⟩, hnotice⟩ := hx.shown
    · exact .inl hnone
    · exact .inr ⟨rfl, hnotice⟩
  · exact hx.trans (hf a m' hx.confined hx.root (hx.result a rfl))

/-- A computation that leaves the scopes alone comes first. -/
theorem bind_calm {x : Exec α} {f : α → Exec β} (hx : Calm K x) (hm : K m.scopes)
    (hf : ∀ a m', m'.scopes = m.scopes → m'.root = m.root → Confines e D Q (f a) m') :
    Confines e D Q (x >>= f) m :=
  (hx.confines hm).bind fun a m' _ hroot hscopes => hf a m' hscopes hroot

/-- A handler that lets the end of the program pass. -/
theorem tryCatch {x : Exec α} {f : Signal → Exec α} (hx : Confines e D Q x m)
    (hexit : f (.exit (.int 1)) = MonadExcept.throw (.exit (.int 1)))
    (hf : ∀ s m', Confined e D m.scopes m'.scopes → m'.root = m.root →
      Confines e D Q (f s) m') : Confines e D Q (tryCatch x f) m := by
  unfold Confines at hx ⊢
  rw [run_tryCatch]
  revert hx
  rcases x.run m with ⟨s | a, m'⟩ <;> intro hx
  · obtain hnone | ⟨hended, hnotice⟩ := hx.shown
    · have hrest := hf s m' hx.confined hx.root
      exact ⟨hx.confined.trans hrest.confined, hrest.root.trans hx.root, hnone ▸ hrest.shown,
        hrest.result⟩
    · cases hended
      dsimp only
      rw [hexit]
      exact ⟨hx.confined, hx.root, .inr ⟨rfl, hnotice⟩, nofun⟩
  · exact hx

/-- Inside a block, what was noted is erased at the end, and nothing else. -/
theorem inBlock {x : Exec α} (he : e < m.scopes.size)
    (hx : Confines e D Q x { m with scopes := m.scopes.pushBlock e }) :
    Confines e D (fun _ => True) (inBlock e x) m :=
  ⟨hx.confined.block he, hx.root, hx.shown, fun _ _ => trivial⟩

end Confines

/-! ### Statements -/

open Analysis (Accepts)

variable {a : Analysis}

/-- Executing the statement is confined to the names that it declares and keeps the match, in
whatever state its analysis accepts it. -/
def Sound (g : Engine) (e : ScopeId) (s : Node) : Prop :=
  ∀ (a : Analysis) (m : Machine), Accepts a (analyze s a) (declared s) → a.Matches e m.scopes →
    Confines e (declared s) ((analyze s a).Matches e) (g.execute s e) m

/-- Giving a value to a name that is declared and not read-only. -/
theorem confines_assignName (ha : a.Matches e m.scopes) {x : String}
    (hx : a.declaration? x = some false) (v : Value) :
    Confines e D (a.Matches e) (assignName e x v) m := by
  have hconfined : Confined e [] m.scopes (m.scopes.assign e x v) :=
    ha.outermost.confined_assign (ha.isSome_flag? (by rw [hx]; rfl)) v
  rw [Confines, run_assignName (ha.outermost.isReadOnly_eq (ha.flags x false hx))]
  exact ⟨hconfined.mono (List.nil_subset D), rfl, .inl rfl, fun _ _ => ha.confined hconfined nofun⟩

/-- A statement and then others, which may rely on the match that it leaves. -/
theorem confines_cons {s : Node} {rest : List Node} {x y : Exec α}
    (hx : Confines e (declared s) Q x m)
    (hy : ∀ m' : Machine, m'.root = m.root → Q m'.scopes → Confines e (declaredAll rest) Q' y m') :
    Confines e (declaredAll (s :: rest)) Q' (x >>= fun _ => y) m := by
  refine (hx.mono (List.subset_append_left _ _) fun _ h => h).bind fun _ m' _ hroot hm' => ?_
  exact (hy m' hroot hm').mono (List.subset_append_right _ _) fun _ h => h

/-- Statements that the analysis accepts in order are run in order, each from a state that
matches. -/
theorem confines_executeAll {nodes : List Node} (hg : ∀ s ∈ nodes, Sound g e s)
    (hcore : ∀ s ∈ nodes, Core s) (haccepts : Accepts a (analyzeAll nodes a) (declaredAll nodes))
    (ha : a.Matches e m.scopes) :
    Confines e (declaredAll nodes) ((analyzeAll nodes a).Matches e) (g.executeAll e nodes) m := by
  induction nodes generalizing a m with
  | nil => exact .pure ha
  | cons s rest ih =>
    obtain ⟨hfirst, hrest⟩ := haccepts.cons (hcore s List.mem_cons_self)
    have hs := hg s List.mem_cons_self a m hfirst ha
    cases rest with
    | nil => exact hs.mono (by simp [declaredAll]) fun _ h => h
    | cons s' rest =>
      exact confines_cons hs fun m' _ hm' => ih (List.forall_mem_of_forall_mem_cons hg)
        (List.forall_mem_of_forall_mem_cons hcore) hrest hm'

/-- The statements of a program run in the outermost scope, which stays the same. -/
theorem confines_interpretAll {nodes : List Node} (hg : ∀ s ∈ nodes, Sound g e s)
    (hcore : ∀ s ∈ nodes, Core s) (haccepts : Accepts a (analyzeAll nodes a) (declaredAll nodes))
    (ha : a.Matches e m.scopes) (hroot : m.root = e) :
    Confines e (declaredAll nodes) ((analyzeAll nodes a).Matches e) (g.interpretAll nodes) m := by
  induction nodes generalizing a m with
  | nil => exact .pure ha
  | cons s rest ih =>
    obtain ⟨hfirst, hrest⟩ := haccepts.cons (hcore s List.mem_cons_self)
    have hs := hg s List.mem_cons_self a m hfirst ha
    cases rest with
    | nil =>
      have hrun : (g.interpretAll [s]).run m = (g.execute s e).run m := by
        rw [← hroot]
        rfl
      rw [Confines, hrun]
      exact hs.mono (by simp [declaredAll]) fun _ h => h
    | cons s' rest =>
      have hrun : (g.interpretAll (s :: s' :: rest)).run m =
          (g.execute s e >>= fun _ => g.interpretAll (s' :: rest)).run m := by
        rw [← hroot]
        rfl
      rw [Confines, hrun]
      exact confines_cons hs fun m' hroot' hm' => ih (List.forall_mem_of_forall_mem_cons hg)
        (List.forall_mem_of_forall_mem_cons hcore) hrest hm' (hroot'.trans hroot)

/-! ### Blocks and loops -/

/-- A run that touches no declared name keeps the match. -/
theorem Confines.matches {x : Exec α} (h : Confines e D Q x m) (ha : a.Matches e m.scopes)
    (hD : ∀ x ∈ D, a.declaration? x = none) : Confines e D (a.Matches e) x m :=
  ⟨h.confined, h.root, h.shown, fun _ _ => ha.confined h.confined hD⟩

/-- A block ends with the match that it began with: the names that it declares are its own. -/
theorem confines_inBlock {x : Exec α} (ha : a.Matches e m.scopes)
    (hD : ∀ x ∈ D, a.declaration? x = none)
    (hx : ∀ m' : Machine, a.Matches e m'.scopes → Confines e D Q x m') :
    Confines e D (a.Matches e) (inBlock e x) m :=
  (Confines.inBlock ha.outermost.lt_size (hx _ ha.pushBlock)).matches ha hD

theorem confines_loopRound {x : Exec Unit} (ha : a.Matches e m.scopes)
    (hD : ∀ x ∈ D, a.declaration? x = none)
    (hx : ∀ m' : Machine, a.Matches e m'.scopes → Confines e D Q x m') :
    Confines e D (a.Matches e) (loopRound e x) m := by
  refine .tryCatch ((confines_inBlock ha hD hx).bind fun _ m' _ _ hm' => .pure hm') rfl
    fun s m' hconfined _ => ?_
  have hm' := ha.confined hconfined hD
  split
  · exact .pure hm'
  · exact .pure hm'
  · exact .throw _

/-- By induction on the rounds, each of which keeps the match. -/
theorem confines_whileLoop {condition : Node} {body : List Node}
    (hcondition : Calm (a.Matches e) (g.evaluate condition e))
    (hbody : ∀ m' : Machine, a.Matches e m'.scopes → Confines e D Q (g.executeAll e body) m')
    (hD : ∀ x ∈ D, a.declaration? x = none) (rounds : Nat) (ha : a.Matches e m.scopes) :
    Confines e D (a.Matches e) (whileLoop g e condition (.block body) rounds) m := by
  induction rounds generalizing m with
  | zero => exact .throw _
  | succ rounds ih =>
    refine .bind_calm hcondition ha fun v m₁ hm₁ _ => ?_
    refine .bind_calm (.host (shows_truth v)) (hm₁ ▸ ha) fun goesIn m₂ hm₂ _ => ?_
    have ha₂ : a.Matches e m₂.scopes := hm₂ ▸ hm₁ ▸ ha
    cases goesIn with
    | false => exact .pure ha₂
    | true =>
      have hround : Confines e D (a.Matches e) (whileRound g e (.block body)) m₂ :=
        confines_loopRound ha₂ hD fun m' hm' =>
          (hbody m' hm').bind fun _ _ _ _ h => .pure h
      refine hround.bind fun goesOn m₃ _ _ ha₃ => ?_
      cases goesOn with
      | false => exact .pure ha₃
      | true => exact ih ha₃

/-- By induction on the rounds; each of them declares the variable of the loop anew. -/
theorem confines_forLoop {binder : String} {body : List Node}
    (hbody : ∀ (m' : Machine) (v : Value), a.Matches e m'.scopes → Confines e D Q (do
      if binder != "_" then modifyScopes fun ss => ss.declare e binder v false false true
      let _ ← g.executeAll e (← bodyStatements (.block body))) m')
    (hD : ∀ x ∈ D, a.declaration? x = none) (rounds : Nat) (s : Series)
    (ha : a.Matches e m.scopes) :
    Confines e D (a.Matches e) (forLoop g e binder (.block body) rounds s) m := by
  induction rounds generalizing m s with
  | zero => exact .throw _
  | succ rounds ih =>
    refine .bind_calm (.host (shows_nextOf s)) ha fun next m₁ hm₁ _ => ?_
    have ha₁ : a.Matches e m₁.scopes := hm₁ ▸ ha
    split
    · exact .pure ha₁
    · next v rest =>
      have hround : Confines e D (a.Matches e) (forRound g e binder (.block body) v) m₁ :=
        confines_loopRound ha₁ hD fun m' hm' => hbody m' v hm'
      refine hround.bind fun goesOn m₂ _ _ ha₂ => ?_
      cases goesOn with
      | false => exact .pure ha₂
      | true => exact ih rest ha₂

/-! ### The statements of the core -/

/-- Declaring a name keeps the match, wherever it was bound before. -/
theorem confines_redeclare (ha : a.Matches e m.scopes) (hopen : a.scopes ≠ []) (x : String)
    (v : Value) (b : Binding) :
    Confines e [x] ((a.declare x b.readOnly).Matches e) (redeclare e x v b) m := by
  have hss := ha.outermost
  -- what is removed first is at most the scope's own binding
  have hremoved : ∃ ss, Confined e [x] m.scopes ss ∧ ∃ forceGlobal forceLocal,
      (redeclare e x v b).run m = (.ok (), { m with
        scopes := ss.declare e x v b.readOnly forceGlobal forceLocal }) := by
    rw [redeclare, run_modifyScopes]
    dsimp only
    rw [hss.root, ite_self, hss.holder?]
    split
    · next h hholder =>
      obtain ⟨-, rfl⟩ : _ ∧ e = h := by simpa using hholder
      exact ⟨_, .unset .., _, _, rfl⟩
    · exact ⟨m.scopes, .refl .., _, _, rfl⟩
  obtain ⟨ss, hconfined, forceGlobal, forceLocal, hrun⟩ := hremoved
  have hdeclared := hconfined.trans ((hconfined.outermost hss).confined_declare x v b.readOnly
    forceGlobal forceLocal)
  rw [Confines, hrun]
  exact ⟨hdeclared, rfl, .inl rfl, fun _ _ => ha.declare hopen hdeclared
    ((hconfined.outermost hss).flag?_declare ..)⟩

/-- An assignment or declaration that is accepted changes its name only, and keeps the match. -/
theorem confines_executeAssign {x : String} (hx : x ≠ "") {expr : Node} (b : Binding)
    (hexpr : Calm (a.Matches e) (g.evaluate expr e)) (hsame : (analyze expr a).scopes = a.scopes)
    (haccepts : Accepts a (analyze (.assign (some x) expr .absent b) a)
      (declared (.assign (some x) expr .absent b))) (ha : a.Matches e m.scopes) :
    Confines e (declared (.assign (some x) expr .absent b))
      ((analyze (.assign (some x) expr .absent b) a).Matches e)
      (executeAssign g e (some x) expr .absent b) m := by
  have hnotices := haccepts.notices
  rw [analyze_assign hx] at hnotices ⊢
  refine .bind_calm hexpr ha fun v m₁ hm₁ _ => ?_
  have ha₁ : (analyze expr a).Matches e m₁.scopes := (hm₁ ▸ ha).congr hsame
  by_cases hunused : x = "_"
  · subst hunused
    exact .pure ha₁
  · have hname : (some x == some "_") = false := by simpa using hunused
    simp only [hname, hunused, Bool.false_and, Bool.not_false, if_true, if_false] at hnotices ⊢
    cases hdeclare : b.declare with
    | false =>
      simp only [hdeclare, Bool.false_eq_true, if_false] at hnotices ⊢
      exact (confines_assignName ha₁ (Analysis.declaration?_of_assign hnotices) v).mono
        (List.Subset.refl _) fun ss h => h.congr (Analysis.scopes_assign _ x)
    | true =>
      have hdeclared : declared (.assign (some x) expr .absent b) = [x] := by
        simp [declared, hdeclare, hunused]
      have htype (name expected actual : String) :
          ¬ (Notice.variableType name expected actual).AboutName := by
        simp [Notice.AboutName, Notice.form, NoticeForm.variableType]
      simp only [if_true]
      refine .bind_calm (.host (shows_checkType htype _ b.type v)) ha₁ fun _ m₂ hm₂ _ => ?_
      rw [hdeclared]
      exact confines_redeclare (hm₂ ▸ ha₁) (hsame ▸ haccepts.scopes_ne_nil) x v b

theorem calm_currentOrZero {x : String} (h : ∀ ss, K ss → (ss.holder? e x).isSome) :
    Calm K (currentOrZero e x) := by
  intro m hm
  have hheld : (m.scopes.holder? e x).isNone = false := by
    rw [← Option.not_isSome, h m.scopes hm]
    rfl
  have hrun : (currentOrZero e x).run m = (.ok ((m.scopes.get? e x).getD (.int 0)), m) := by
    rw [currentOrZero, run_bind, run_get]
    simp only [hheld, Bool.false_eq_true, if_false]
    rfl
  rw [hrun]
  exact ⟨rfl, rfl, .inl rfl⟩

theorem confines_executeAugAssign {x : String} (hx : x ≠ "") {expr : Node} (op : AssignOp)
    (hexpr : Calm (a.Matches e) (g.evaluate expr e)) (hsame : (analyze expr a).scopes = a.scopes)
    (hnotices : (analyze (.augAssign (some x) op expr .absent) a).notices = [])
    (ha : a.Matches e m.scopes) :
    Confines e D ((analyze (.augAssign (some x) op expr .absent) a).Matches e)
      (executeAugAssign g e (some x) op expr .absent) m := by
  rw [analyze_augAssign hx] at hnotices ⊢
  by_cases hunused : x = "_"
  · subst hunused
    refine .bind_calm hexpr ha fun v m₁ hm₁ _ => ?_
    exact .pure ((hm₁ ▸ ha).congr hsame)
  · have hname : (some x == some "_") = false := by simpa using hunused
    rw [if_neg hunused] at hnotices ⊢
    have hx : (analyze expr a).declaration? x = some false :=
      Analysis.declaration?_of_assign hnotices
    unfold executeAugAssign
    simp only [hname, Bool.false_and, Bool.false_eq_true, if_false]
    have hcurrent : Calm (a.Matches e) (currentOrZero e x) := by
      refine calm_currentOrZero fun ss hss => ?_
      rw [hss.outermost.holder?, if_pos (hss.isSome_flag? ?_)]
      · rfl
      · rw [← Analysis.declaration?_congr hsame, hx]
        rfl
    have hop (op : String) : ¬ (Notice.unknownOperator op).AboutName := by
      simp [Notice.AboutName, Notice.form, NoticeForm.unknownOperator]
    refine .bind_calm hcurrent ha fun current m₁ hm₁ _ => ?_
    refine .bind_calm hexpr (hm₁ ▸ ha) fun v m₂ hm₂ _ => ?_
    refine .bind_calm (.host (shows_applyAssignOp hop op current v)) (hm₂ ▸ hm₁ ▸ ha)
      fun r m₃ hm₃ _ => ?_
    have ha₃ : (analyze expr a).Matches e m₃.scopes :=
      (show a.Matches e m₃.scopes from hm₃ ▸ hm₂ ▸ hm₁ ▸ ha).congr hsame
    exact (confines_assignName ha₃ hx r).mono (List.Subset.refl _)
      fun ss h => h.congr (Analysis.scopes_assign _ x)

/-- A name is bound at the start of a block. -/
theorem confines_bound {x : Exec α} (ha : a.Matches e m.scopes) {binder : String}
    (hbinder : binder ∈ D) (v : Value)
    (hx : ∀ m' : Machine, (a.push.declare binder false).Matches e m'.scopes → Confines e D Q x m') :
    Confines e D Q (do
      modifyScopes fun ss => ss.declare e binder v false false true
      x) m := by
  have hconfined := ha.outermost.confined_declare binder v false false true
  have hmono := hconfined.mono (List.cons_subset.2 ⟨hbinder, List.nil_subset D⟩)
  refine (Confines.modifyScopes hmono).bind fun _ m' _ _ hm' => hx m' ?_
  rw [hm']
  exact ha.push.declare (List.cons_ne_nil _ _) hconfined (ha.outermost.flag?_declare ..)

theorem confines_executeTry {tryBlock catchBlock : Node} {binder : String} {b : Analysis}
    (hb : b.scopes = a.scopes)
    (htry : ∀ m' : Machine, a.Matches e m'.scopes → Confines e D Q (g.execute tryBlock e) m')
    (hcatch : ∀ m' : Machine, (b.push.declare binder false).Matches e m'.scopes →
      Confines e D Q' (g.execute catchBlock e) m')
    (hbinder : binder ∈ D) (hD : ∀ x ∈ D, a.declaration? x = none) (ha : a.Matches e m.scopes) :
    Confines e D (a.Matches e) (executeTry g e tryBlock binder catchBlock) m := by
  refine .tryCatch (confines_inBlock ha hD htry) rfl fun s m' hconfined _ => ?_
  split
  · next v =>
    exact confines_inBlock (ha.confined hconfined hD) hD fun m'' hm'' =>
      confines_bound (hm''.congr hb) hbinder v hcatch
  · exact .throw _

/-- A statement that is analyzed in the same scopes. -/
theorem Sound.confines {s : Node} (hs : Sound g e s) {b : Analysis} (hb : b.scopes = a.scopes)
    (haccepts : Accepts b (analyze s b) (declared s)) (hD : declared s ⊆ D)
    (hfresh : ∀ x ∈ D, a.declaration? x = none) (ha : a.Matches e m.scopes) :
    Confines e D (a.Matches e) (g.execute s e) m :=
  ((hs b m haccepts (ha.congr hb)).mono hD fun _ h => h).matches ha hfresh

structure SoundEngine (g : Engine) (e : ScopeId) : Prop where
  evaluate : ∀ {a n}, Plain (fun _ => True) n → (analyze n a).notices = [] →
    Calm (a.Matches e) (g.evaluate n e)
  execute : ∀ {s}, Core s → Sound g e s

namespace SoundEngine

variable (hg : SoundEngine g e)
include hg

/-- The statements of a block, without the block. -/
theorem body {body : List Node} (hcore : Core (.block body)) {b : Analysis}
    (hb : b.scopes = a.scopes)
    (haccepts : Accepts b (analyze (.block body) b) (declared (.block body)))
    (hD : declared (.block body) ⊆ D) (hfresh : ∀ x ∈ D, a.declaration? x = none)
    (ha : a.Matches e m.scopes) : Confines e D (a.Matches e) (g.executeAll e body) m := by
  cases hcore with
  | block hbody =>
    have hrun := confines_executeAll (fun s hs => hg.execute (hbody s hs)) hbody haccepts.of_block
      (ha.congr hb).push
    exact (hrun.mono hD fun _ h => h).matches ha hfresh

theorem ifStmt {condition thenBlock elseBlock : Node}
    (hs : Core (.ifStmt condition thenBlock elseBlock))
    (haccepts : Accepts a (analyze (.ifStmt condition thenBlock elseBlock) a)
      (declared (.ifStmt condition thenBlock elseBlock))) (ha : a.Matches e m.scopes) :
    Confines e (declared (.ifStmt condition thenBlock elseBlock)) (a.Matches e) (do
      if ← truth (← g.evaluate condition e) then g.execute thenBlock e
      else if elseBlock.isAbsent then pure .none
      else g.execute elseBlock e) m := by
  obtain ⟨hc, hthen, ⟨body, rfl⟩, helse⟩ := hs.of_ifStmt
  have hcondition := Analysis.scopes_analyze_plain hc a
  have hscopes := (Analysis.scopes_analyze_block body _).trans hcondition
  have hnone : (analyze (.block body) (analyze condition a)).notices = [] :=
    (Analysis.grows_analyze elseBlock _).notices_eq_nil haccepts.notices
  have hcalm := hg.evaluate hc ((Analysis.grows_analyze (.block body) _).notices_eq_nil hnone)
  refine .bind_calm hcalm ha fun v m₁ hm₁ _ => ?_
  refine .bind_calm (.host (shows_truth v)) (hm₁ ▸ ha) fun holds m₂ hm₂ _ => ?_
  have ha₂ : a.Matches e m₂.scopes := hm₂ ▸ hm₁ ▸ ha
  cases holds with
  | true =>
    exact (hg.execute hthen).confines hcondition
      (haccepts.part hcondition (List.sublist_append_left _ _) hnone)
      (List.subset_append_left _ _) haccepts.fresh ha₂
  | false =>
    cases habsent : elseBlock.isAbsent with
    | true => exact .pure ha₂
    | false =>
      exact (hg.execute (helse habsent)).confines hscopes
        (haccepts.part hscopes (List.sublist_append_right _ _) haccepts.notices)
        (List.subset_append_right _ _) haccepts.fresh ha₂

theorem whileStmt {condition : Node} {body : List Node} (hc : Plain (fun _ => True) condition)
    (hbody : Core (.block body))
    (haccepts : Accepts a (analyze (.whileStmt condition (.block body)) a)
      (declared (.whileStmt condition (.block body)))) (rounds : Nat) (ha : a.Matches e m.scopes) :
    Confines e (declared (.whileStmt condition (.block body))) (a.Matches e)
      (whileLoop g e condition (.block body) rounds) m := by
  have hcondition := Analysis.scopes_analyze_plain hc a
  have hcalm := hg.evaluate hc
    ((Analysis.grows_analyze (.block body) _).notices_eq_nil haccepts.notices)
  exact confines_whileLoop hcalm (fun m' hm' => hg.body hbody hcondition
    (haccepts.part hcondition (List.Sublist.refl _) haccepts.notices) (List.Subset.refl _)
    haccepts.fresh hm') haccepts.fresh rounds ha

theorem forStmt {binder : String} {iterable : Node} {body : List Node}
    (hiterable : Plain (fun _ => True) iterable) (hbody : Core (.block body))
    (haccepts : Accepts a (analyze (.forStmt binder iterable (.block body)) a)
      (declared (.forStmt binder iterable (.block body)))) (rounds : Nat)
    (ha : a.Matches e m.scopes) :
    Confines e (declared (.forStmt binder iterable (.block body))) (a.Matches e) (do
      let s ← seriesOf (← g.evaluate iterable e)
      forLoop g e binder (.block body) rounds s
      pure Value.none) m := by
  have hscopes := Analysis.scopes_analyze_plain hiterable a
  have hnone : (analyze iterable a).notices = [] :=
    ((Analysis.Grows.declareUsed (analyze iterable a).push binder).trans
      (Analysis.grows_analyze (.block body) _)).notices_eq_nil haccepts.notices
  have hiterates : ¬ Notice.notIterable.AboutName := by
    simp [Notice.AboutName, Notice.form, NoticeForm.notIterable]
  -- the body, for whatever binds the variable of the loop
  have hrun {b : Analysis} {m' : Machine} (hb : b.Matches e m'.scopes)
      (haccepts' : Accepts b (analyze (.block body) b) (declared (.block body))) :
      Confines e (declared (.forStmt binder iterable (.block body))) (fun _ => True)
        (do let _ ← g.executeAll e body) m' :=
    ((hg.body hbody rfl haccepts' (List.Subset.refl _) haccepts'.fresh hb).mono
      (List.subset_append_right _ _) fun _ _ => trivial).bind fun _ _ _ _ h => .pure h
  refine .bind_calm (hg.evaluate hiterable hnone) ha fun v m₁ hm₁ _ => ?_
  refine .bind_calm (.host (shows_seriesOf hiterates v)) (hm₁ ▸ ha) fun s m₂ hm₂ _ => ?_
  refine (confines_forLoop (Q := fun _ => True) (fun m' v hm' => ?_) haccepts.fresh rounds s
    (hm₂ ▸ hm₁ ▸ ha)).bind fun _ _ _ _ h => .pure h
  have hm' := hm'.congr hscopes
  have hnotices := haccepts.notices
  by_cases hunused : binder = "_"
  · subst hunused
    have hused : (analyze iterable a).push.declareUsed "_" = (analyze iterable a).push := rfl
    rw [analyze, hused] at hnotices
    have hnone : (analyze (.block body) (analyze iterable a).push).notices = [] := hnotices
    exact hrun hm'.push (haccepts.part hscopes (List.sublist_append_right _ _) hnone).push
  · have hused : (analyze iterable a).push.declareUsed binder =
        (analyze iterable a).push.declare binder false := if_neg (by simpa using hunused)
    have hdeclared : declared (.forStmt binder iterable (.block body)) =
        binder :: declared (.block body) := by
      simp [declared, hunused]
    rw [analyze, hused] at hnotices
    rw [if_pos (by simpa using hunused)]
    have hnone : (analyze (.block body)
        ((analyze iterable a).push.declare binder false)).notices = [] := hnotices
    exact confines_bound hm' (by simp [hdeclared]) v fun m'' hm'' => hrun hm''
      (haccepts.bound hscopes (by rw [hdeclared]) hnone)

theorem tryCatch {binder : String} {body handler : List Node}
    (hbody : Core (.block body)) (hhandler : Core (.block handler))
    (haccepts : Accepts a (analyze (.tryCatch (.block body) binder (.block handler)) a)
      (declared (.tryCatch (.block body) binder (.block handler)))) (ha : a.Matches e m.scopes) :
    Confines e (declared (.tryCatch (.block body) binder (.block handler))) (a.Matches e)
      (executeTry g e (.block body) binder (.block handler)) m := by
  have hscopes := Analysis.scopes_analyze_block body a
  have hnone' : (analyze (.block handler)
      ((analyze (.block body) a).push.declare binder false)).notices = [] := haccepts.notices
  have hnone : (analyze (.block body) a).notices = [] :=
    ((Analysis.Grows.declare (analyze (.block body) a).push binder false).trans
      (Analysis.grows_analyze (.block handler) _)).notices_eq_nil hnone'
  have hbound := haccepts.bound hscopes (List.sublist_append_right _ _) hnone'
  exact confines_executeTry hscopes
    (fun m' hm' => (hg.execute hbody).confines rfl
      (haccepts.part rfl (List.sublist_append_left _ _) hnone) (List.subset_append_left _ _)
      haccepts.fresh hm')
    (fun m' hm' => (hg.execute hhandler _ m' hbound hm').mono
      (List.Subset.trans (List.subset_cons_self _ _) (List.subset_append_right _ _)) fun _ h => h)
    (by simp [declared]) haccepts.fresh ha

end SoundEngine

/-- Every statement of the core is sound. -/
theorem soundEngine_ofDepth (depth : Nat) (e : ScopeId) : SoundEngine (Engine.ofDepth depth) e := by
  refine ⟨calm_evaluate_of_analyze depth, ?_⟩
  induction depth with
  | zero => exact fun _ a m _ _ => .throw _
  | succ depth ih =>
    have hg : SoundEngine (Engine.ofDepth depth) e := ⟨calm_evaluate_of_analyze depth, ih⟩
    intro s hs a m haccepts ha
    refine .bind_calm (Calm.inScope (K := fun _ => True) e) trivial fun _ m₁ hm₁ _ => ?_
    replace ha : a.Matches e m₁.scopes := hm₁ ▸ ha
    -- all but a declaration leave the scopes of the analysis as they were
    have hend {x : Exec Value} (hne : ∀ y expr b, s ≠ .assign (some y) expr .absent b)
        (hx : Confines e (declared s) (a.Matches e) x m₁) :
        Confines e (declared s) ((analyze s a).Matches e) x m₁ := by
      obtain hscopes | ⟨y, expr, b, rfl, -⟩ := Analysis.scopes_analyze_core hs a
      · exact hx.mono (List.Subset.refl _) fun ss h => h.congr hscopes
      · exact absurd rfl (hne y expr b)
    cases hs with
    | assign b hx hexpr =>
      have hnone := (Analysis.Grows.bind _ _ _ _).notices_eq_nil haccepts.notices
      exact (confines_executeAssign hx b (hg.evaluate hexpr hnone)
        (Analysis.scopes_analyze_plain hexpr a) haccepts ha).bind fun _ _ _ _ h => .pure h
    | augAssign op hx hexpr =>
      have hnone := (Analysis.Grows.bind _ _ _ _).notices_eq_nil haccepts.notices
      exact (confines_executeAugAssign hx op (hg.evaluate hexpr hnone)
        (Analysis.scopes_analyze_plain hexpr a) haccepts.notices ha).bind fun _ _ _ _ h => .pure h
    | exprStmt hexpr =>
      have hrun := (hg.evaluate hexpr haccepts.notices).confines (e := e) (D := []) ha
      have hrun' := hend nofun (hrun.matches ha nofun)
      cases hexpr <;> exact hrun'
    | block hbody =>
      exact hend nofun (confines_inBlock ha haccepts.fresh fun m' hm' =>
        hg.body (.block hbody) rfl haccepts (List.Subset.refl _) haccepts.fresh hm')
    | ifThen hc hbody => exact hend nofun (hg.ifStmt (.ifThen hc hbody) haccepts ha)
    | ifElse hc hbody hother => exact hend nofun (hg.ifStmt (.ifElse hc hbody hother) haccepts ha)
    | elseIf hc hbody hother => exact hend nofun (hg.ifStmt (.elseIf hc hbody hother) haccepts ha)
    | whileStmt hc hbody =>
      exact hend nofun ((hg.whileStmt hc hbody haccepts _ ha).bind fun _ _ _ _ h => .pure h)
    | forStmt binder hiterable hbody =>
      exact hend nofun (hg.forStmt hiterable hbody haccepts _ ha)
    | tryCatch binder hbody hhandler => exact hend nofun (hg.tryCatch hbody hhandler haccepts ha)
    | breakStmt => exact .throw _
    | continueStmt => exact .throw _

end Exec

/-! ### Programs -/

/-- An analysis that starts with the globals matches the machine. -/
theorem Machine.GlobalsOpen.matches {m : Machine} (hm : m.GlobalsOpen) :
    (Analysis.start m.globalNames []).Matches m.root m.scopes := by
  refine ⟨hm.outermost, fun x readOnly hx => ?_⟩
  rw [Analysis.declaration?_start] at hx
  split at hx
  · next hmem =>
    cases hx
    obtain ⟨v, hv⟩ := Option.isSome_iff_exists.1 (Table.has_iff_mem_names.2 hmem)
    rw [Scopes.flag?, Scope.binding?, hv, Option.map_some, Option.map_some, hm.writable]
  · cases hx

open Node (Core declaredAll) in
/-- The analysis is sound: a program of the structured core that it accepts, given the globals, runs
without a notice that a name is not in scope or is read-only. The names that the program declares
are distinct and are no globals, and no global is read-only, as in an interpreter that has just been
started. -/
theorem analysis_sound :
    (∀ m : Machine, (Exec.startInterpreter.run m).2.GlobalsOpen) ∧
    ∀ {nodes : List Node} {m : Machine}, (∀ s ∈ nodes, Core s) → (declaredAll nodes).Nodup →
      m.GlobalsOpen → (∀ x ∈ declaredAll nodes, x ∉ m.globalNames) →
      (Analysis.analyze (.block nodes) (.start m.globalNames [])).notices = [] →
      ∀ depth, ∃ shown,
        (((Engine.ofDepth depth).interpret (.block nodes)).run m).2.world.events =
          shown ++ m.world.events ∧
        ∀ n reader, Notice.AboutName n → n.event reader ∉ shown := by
  refine ⟨Exec.globalsOpen_startInterpreter, ?_⟩
  intro nodes m hcore hdistinct hm hnew haccepted depth
  have haccepts : Analysis.Accepts (Analysis.start m.globalNames []).push
      (Analysis.analyzeAll nodes (Analysis.start m.globalNames []).push) (declaredAll nodes) :=
    ⟨List.cons_ne_nil _ _, haccepted, hdistinct, fun x hx => by
      rw [Analysis.declaration?_push, Analysis.declaration?_start, if_neg (hnew x hx)]⟩
  have hsound := Exec.soundEngine_ofDepth depth m.root
  obtain hnone | ⟨-, n, reader, hn, hevents⟩ := (Exec.confines_interpretAll
    (fun s hs => hsound.execute (hcore s hs)) hcore haccepts hm.matches.push rfl).shown
  · exact ⟨[], hnone, fun _ _ _ => List.not_mem_nil⟩
  · refine ⟨[n.event reader], hevents, fun n' reader' hn' hmem => hn ?_⟩
    have hnumber := Notice.number_eq_of_event_eq (List.mem_singleton.1 hmem)
    rwa [Notice.AboutName, ← hnumber]

/-- A constant and a variable, and a loop that adds up quotients in a guarded block. -/
def quotients : List Node :=
  [.assign (some "limit") (.number (.int 3)) .absent { declare := true, readOnly := true },
   .assign (some "total") (.name "zero") .absent { declare := true },
   .forStmt "i" (.list [.number (.int 1), .name "limit"]) (.block
    [.tryCatch (.block [.augAssign (some "total") .add
        (.binary (.name "i") .div (.name "limit")) .absent])
      "problem" (.block [.assign (some "total") (.name "zero") .absent {}, .breakStmt])])]

/-- The analysis accepts a loop over quotients in a guarded block, so that no run shows a notice
about a name. -/
theorem analysis_sound_quotients :
    let m : Machine := { scopes := #[{ vars := [("zero", .int 0)], flags := [("zero", false)] }] }
    (Analysis.analyze (.block quotients) (.start m.globalNames [])).notices = [] ∧
      ∀ depth, ∃ shown,
        (((Engine.ofDepth depth).interpret (.block quotients)).run m).2.world.events =
          shown ++ m.world.events ∧
        ∀ n reader, Notice.AboutName n → n.event reader ∉ shown := by
  intro m
  have hcore : ∀ s ∈ quotients, Node.Core s := by
    have hname {x : String} : Node.Plain (fun _ => True) (.name x) := .name trivial
    have hseries : Node.Plain (fun _ => True) (.list [.number (.int 1), .name "limit"]) :=
      .list (by simpa using ⟨.number _, hname⟩)
    simp only [quotients, List.forall_mem_cons]
    refine ⟨.assign _ (by decide) (.number _), .assign _ (by decide) hname,
      .forStmt _ hseries (.block ?_), nofun⟩
    simp only [List.forall_mem_cons]
    refine ⟨.tryCatch _ (.block ?_) (.block ?_), nofun⟩ <;> simp only [List.forall_mem_cons]
    · exact ⟨.augAssign _ (by decide) (.binary _ hname hname), nofun⟩
    · exact ⟨.assign _ (by decide) hname, .breakStmt, nofun⟩
  have hopen : m.GlobalsOpen := by
    refine ⟨⟨by decide, rfl⟩, fun x => ?_⟩
    by_cases hx : "zero" = x <;> simp [m, Scopes.scope, Scope.isReadOnly, Table.get?, hx]
  have haccepted :
      (Analysis.analyze (.block quotients) (.start m.globalNames [])).notices = [] := by
    decide +kernel
  exact ⟨haccepted, analysis_sound.2 hcore (by decide) hopen (by decide) haccepted⟩

end ScriptLang
