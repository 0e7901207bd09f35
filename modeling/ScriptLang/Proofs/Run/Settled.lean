import ScriptLang.Proofs.Run.Evaluate
import ScriptLang.Proofs.Run.Pure

/-!
# Depths that are enough

The engine of a depth evaluates an expression without calls by going down into its parts, and never
further. So from some depth on all engines evaluate the expression alike.
-/

namespace ScriptLang

/-- From the depth `D` on, all engines evaluate the node alike. -/
def Node.Settled (D : Nat) (node : Node) : Prop :=
  ∀ d d', D ≤ d → D ≤ d' → ∀ e,
    (Engine.ofDepth d).evaluate node e = (Engine.ofDepth d').evaluate node e

theorem Node.Settled.mono {D D' : Nat} {node : Node} (h : node.Settled D) (hD : D ≤ D') :
    node.Settled D' :=
  fun d d' hd hd' => h d d' (Nat.le_trans hD hd) (Nat.le_trans hD hd')

/-- A bound for each of finitely many things gives a bound for all of them. -/
theorem exists_common_bound {α : Type} {Q : Nat → α → Prop} {as : List α}
    (h : ∀ a ∈ as, ∃ D, Q D a) (hmono : ∀ a D D', Q D a → D ≤ D' → Q D' a) :
    ∃ D, ∀ a ∈ as, Q D a := by
  induction as with
  | nil => exact ⟨0, nofun⟩
  | cons a as ih =>
    obtain ⟨D, hD⟩ := h a List.mem_cons_self
    obtain ⟨D', hD'⟩ := ih fun b hb => h b (List.mem_cons_of_mem a hb)
    refine ⟨max D D', fun b hb => ?_⟩
    rcases List.mem_cons.1 hb with rfl | hb
    · exact hmono _ _ _ hD (Nat.le_max_left ..)
    · exact hmono _ _ _ (hD' b hb) (Nat.le_max_right ..)

namespace Exec

variable {g g' : Engine} {e : ScopeId}

/-! ### Engines that agree on the parts -/

/-- An embedded expression is evaluated alike if its expression is. -/
theorem embeddedText_congr {source : String}
    (h : ∀ quiet node, parseEmbedded quiet source = .ok node →
      g.evaluate node e = g'.evaluate node e) :
    embeddedText g e source = embeddedText g' e source := by
  have hvalue : (do
      let node ← embeddedNode source
      let v ← g.evaluate node e
      text v : Exec String) = (do
      let node ← embeddedNode source
      let v ← g'.evaluate node e
      text v) := by
    funext m
    refine run_bind_congr rfl fun node m' hnode => ?_
    obtain ⟨quiet, hparse⟩ := parsed_of_embeddedNode (run_host_eq_ok hnode).1
    rw [h quiet node hparse]
  rw [embeddedText, hvalue, embeddedText]

theorem interpolate_congr {pieces : List TextPiece}
    (h : ∀ source, .embedded source ∈ pieces → embeddedText g e source = embeddedText g' e source) :
    interpolate g e pieces = interpolate g' e pieces := by
  induction pieces with
  | nil => rfl
  | cons piece pieces ih =>
    have hrest := ih fun source hsource => h source (List.mem_cons_of_mem _ hsource)
    cases piece with
    | plain c => rw [interpolate, hrest, interpolate]
    | embedded source => rw [interpolate, hrest, h source List.mem_cons_self, interpolate]

theorem evaluateAll_congr {nodes : List Node}
    (h : ∀ node ∈ nodes, g.evaluate node e = g'.evaluate node e) :
    evaluateAll g e nodes = evaluateAll g' e nodes := by
  induction nodes with
  | nil => rfl
  | cons node nodes ih =>
    rw [evaluateAll, h node List.mem_cons_self, ih fun n hn => h n (List.mem_cons_of_mem _ hn),
      evaluateAll]

theorem evaluatePairs_congr {pairs : List (String × Node)}
    (h : ∀ p ∈ pairs, g.evaluate p.2 e = g'.evaluate p.2 e) (t : Table Value) :
    evaluatePairs g e t pairs = evaluatePairs g' e t pairs := by
  induction pairs generalizing t with
  | nil => rfl
  | cons p pairs ih =>
    rw [evaluatePairs, h p List.mem_cons_self]
    simp only [ih fun q hq => h q (List.mem_cons_of_mem _ hq)]
    rfl

/-! ### Expressions without calls -/

/-- One more step settles a node if the step does the same with engines that are deep enough. -/
theorem settled_succ {D : Nat} {node : Node}
    (h : ∀ d d', D ≤ d → D ≤ d' → ∀ e,
      evaluateStep (Engine.ofDepth d) node e = evaluateStep (Engine.ofDepth d') node e) :
    node.Settled (D + 1) := by
  intro d d' hd hd' e
  obtain ⟨d, rfl⟩ := Nat.exists_eq_add_of_le hd
  obtain ⟨d', rfl⟩ := Nat.exists_eq_add_of_le hd'
  rw [Nat.add_right_comm, Nat.add_right_comm D 1 d']
  exact h _ _ (Nat.le_add_right ..) (Nat.le_add_right ..) e

/-- What a source spells may depend on whether notices are silenced, so there are at most two
expressions to settle. -/
theorem exists_settled_source {source : String}
    (h : ∀ quiet node, parseEmbedded quiet source = .ok node → ∃ D, node.Settled D) :
    ∃ D, ∀ quiet node, parseEmbedded quiet source = .ok node → node.Settled D := by
  have hquiet (quiet : Bool) : ∃ D, ∀ node, parseEmbedded quiet source = .ok node →
      node.Settled D := by
    cases hparse : parseEmbedded quiet source with
    | error stop => exact ⟨0, nofun⟩
    | ok node =>
      obtain ⟨D, hD⟩ := h quiet node hparse
      exact ⟨D, fun _ h => Except.ok.inj h ▸ hD⟩
  obtain ⟨D, hD⟩ := hquiet true
  obtain ⟨D', hD'⟩ := hquiet false
  refine ⟨max D D', fun quiet node hnode => ?_⟩
  cases quiet with
  | true => exact (hD node hnode).mono (Nat.le_max_left ..)
  | false => exact (hD' node hnode).mono (Nat.le_max_right ..)

/-- From some depth on, all engines evaluate an expression without calls alike. -/
theorem exists_settled {node : Node} (h : node.Inert) : ∃ D, node.Settled D := by
  induction h with
  | name id => exact ⟨1, settled_succ fun _ _ _ _ _ => rfl⟩
  | number value => exact ⟨1, settled_succ fun _ _ _ _ _ => rfl⟩
  | @text s _ ih =>
    have hsource (piece : TextPiece) (hpiece : piece ∈ textPieces 0 s.toList) : ∃ D,
        ∀ source, piece = .embedded source → ∀ quiet node, parseEmbedded quiet source = .ok node →
          node.Settled D := by
      cases piece with
      | plain c => exact ⟨0, nofun⟩
      | embedded source =>
        obtain ⟨D, hD⟩ := exists_settled_source (ih source hpiece)
        exact ⟨D, fun _ hs => by cases hs; exact hD⟩
    obtain ⟨D, hD⟩ := exists_common_bound hsource fun _ _ _ h hD source hs quiet node hnode =>
      (h source hs quiet node hnode).mono hD
    refine ⟨D + 1, settled_succ fun d d' hd hd' e => ?_⟩
    have hpieces := interpolate_congr fun source hs => embeddedText_congr fun quiet node hnode =>
      hD _ hs source rfl quiet node hnode d d' hd hd' e
    rw [evaluateStep, evaluateText, hpieces]
    rfl
  | @list items _ ih =>
    obtain ⟨D, hD⟩ := exists_common_bound ih fun _ _ _ h hD => h.mono hD
    refine ⟨D + 1, settled_succ fun d d' hd hd' e => ?_⟩
    rw [evaluateStep, evaluateAll_congr fun node hnode => hD node hnode d d' hd hd' e]
    rfl
  | @dict pairs _ ih =>
    obtain ⟨D, hD⟩ := exists_common_bound ih fun _ _ _ h hD => h.mono hD
    refine ⟨D + 1, settled_succ fun d d' hd hd' e => ?_⟩
    rw [evaluateStep, evaluatePairs_congr fun p hp => hD p hp d d' hd hd' e]
    rfl
  | binary op _ _ ihl ihr =>
    obtain ⟨Dl, hl⟩ := ihl
    obtain ⟨Dr, hr⟩ := ihr
    refine ⟨max Dl Dr + 1, settled_succ fun d d' hd hd' e => ?_⟩
    simp only [evaluateStep, evaluateBinary, hl.mono (Nat.le_max_left Dl Dr) d d' hd hd' e,
      hr.mono (Nat.le_max_right Dl Dr) d d' hd hd' e]
  | unary op _ ih =>
    obtain ⟨D, hD⟩ := ih
    refine ⟨D + 1, settled_succ fun d d' hd hd' e => ?_⟩
    simp only [evaluateStep, hD d d' hd hd' e]
  | ternary _ _ _ ihc iht ihf =>
    obtain ⟨Dc, hc⟩ := ihc
    obtain ⟨Dt, ht⟩ := iht
    obtain ⟨Df, hf⟩ := ihf
    refine ⟨max Dc (max Dt Df) + 1, settled_succ fun d d' hd hd' e => ?_⟩
    simp only [evaluateStep, hc.mono (Nat.le_max_left ..) d d' hd hd' e,
      (ht.mono (Nat.le_max_left Dt Df)).mono (Nat.le_max_right ..) d d' hd hd' e,
      (hf.mono (Nat.le_max_right Dt Df)).mono (Nat.le_max_right ..) d d' hd hd' e]
  | member name _ ih =>
    obtain ⟨D, hD⟩ := ih
    refine ⟨D + 1, settled_succ fun d d' hd hd' e => ?_⟩
    simp only [evaluateStep, evaluateMember, hD d d' hd hd' e]
  | @other node hnode =>
    refine ⟨1, settled_succ fun d d' hd hd' e => ?_⟩
    cases node <;> first | (cases hnode; done) | rfl

end Exec

end ScriptLang
