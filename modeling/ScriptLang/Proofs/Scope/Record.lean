import ScriptLang.Proofs.Scope.Evolution

/-!
# The record of a scope

A scope records what is done to its names. So it can be told from the record what has become of its
variables since an earlier moment, and the record is the scope's own: it says what has happened, not
what may have.

A variable that the record does not name is as it was. It is still bound if it was not removed and
no block that has ended had noted it; the names that a block notes are erased when the block ends.
A name that comes to be bound without being noted was routed to the outermost scope.

Each change of the scopes does at most one thing to one scope, its effect, and this is recorded
there. All that computations do to the scopes is made of such changes and of blocks.
-/

namespace ScriptLang

variable {α : Type}

namespace Change

def name : Change → String
  | written name _ | routed name | removed name => name

/-- Whether the change removes the name, or has a block remove it that is opened inside of `depth`
others. -/
def drops (depth : Nat) : Change → Bool
  | written _ d => decide (depth < d)
  | routed _ => false
  | removed _ => true

/-- The name that the innermost of `depth` open blocks notes on account of the change. -/
def noted? (depth : Nat) : Change → Option String
  | written name d => if d = depth then some name else none
  | _ => none

/-- Only a name that is bound at the depth is noted by the innermost block. -/
theorem noted?_eq_some_iff {c : Change} {depth : Nat} {x : String} :
    c.noted? depth = some x ↔ c = .written x depth := by
  cases c with
  | written name d => by_cases h : d = depth <;> simp [noted?, h]
  | routed name => simp [noted?]
  | removed name => simp [noted?]

end Change

/-- The end of a block records nothing. -/
theorem Scope.changes_popBlock (s : Scope α) : s.popBlock.changes = s.changes := by
  have hfoldl (names : List String) (s : Scope α) : (names.foldl erase s).changes = s.changes := by
    induction names generalizing s with
    | nil => rfl
    | cons name names ih => exact ih _
  unfold popBlock
  split
  · rfl
  · exact hfoldl _ _

namespace Scopes

/-! ### Single changes -/

inductive Effect (α : Type) where
  | bind (name : String) (value : α) (readOnly noted : Bool)
  | assign (name : String) (value : α)
  | unset (name : String)
  | intend (name kind : String)

namespace Effect

def apply : Effect α → Scope α → Scope α
  | bind name value readOnly noted, s => s.bind name value readOnly noted
  | assign name value, s => s.assign name value
  | unset name, s => s.unset name
  | intend name kind, s => { s with intents := s.intents.set name kind }

/-- What the scope records of the effect while `depth` blocks are open in it. -/
def changes (depth : Nat) : Effect α → List Change
  | bind name _ _ true => [.written name depth]
  | bind name _ _ false => [.routed name]
  | assign name _ => [.written name 0]
  | unset name => [.removed name]
  | intend .. => []

theorem ancestors_apply (f : Effect α) (s : Scope α) : (f.apply s).ancestors = s.ancestors := by
  cases f with
  | bind name value readOnly noted => simp [apply, Scope.bind_eq]
  | assign name value => rfl
  | unset name => rfl
  | intend name kind => rfl

end Effect

inductive Step (α : Type) where
  | new (parent : Option ScopeId)
  | declare (e : ScopeId) (name : String) (value : α) (readOnly forceGlobal forceLocal : Bool)
  | assign (e : ScopeId) (name : String) (value : α)
  | unset (e : ScopeId) (name : String)
  | setIntent (e : ScopeId) (name kind : String)

namespace Step

def apply (ss : Scopes α) : Step α → Scopes α
  | new parent => (ss.new parent).2
  | declare e name value readOnly forceGlobal forceLocal =>
    ss.declare e name value readOnly forceGlobal forceLocal
  | assign e name value => ss.assign e name value
  | unset e name => ss.unset e name
  | setIntent e name kind => ss.setIntent e name kind

def effect? (ss : Scopes α) : Step α → Option (ScopeId × Effect α)
  | new _ => none
  | declare e name value readOnly forceGlobal forceLocal =>
    if forceGlobal then some (ss.root e, .bind name value readOnly false)
    else if forceLocal then some (e, .bind name value readOnly true)
    else some (ss.home e name, .bind name value readOnly (ss.home e name == e))
  | assign e name value =>
    match ss.holder? e name with
    | some h => some (h, .assign name value)
    | none => some (ss.home e name, .bind name value false (ss.home e name == e))
  | unset e name => some (e, .unset name)
  | setIntent e name kind => some (e, .intend name kind)

/-- A change makes a scope or has its effect on one. -/
theorem apply_eq (c : Step α) (ss : Scopes α) :
    (∃ parent, c.effect? ss = none ∧ c.apply ss = (ss.new parent).2) ∨
      ∃ t f, c.effect? ss = some (t, f) ∧ c.apply ss = ss.update t f.apply := by
  cases c with
  | new parent => exact .inl ⟨parent, rfl, rfl⟩
  | declare e name value readOnly forceGlobal forceLocal =>
    right
    cases forceGlobal <;> cases forceLocal <;> exact ⟨_, _, rfl, rfl⟩
  | assign e name value =>
    right
    cases h : ss.holder? e name <;> simp only [effect?, apply, Scopes.assign, h] <;>
      exact ⟨_, _, rfl, rfl⟩
  | unset e name => exact .inr ⟨_, _, rfl, rfl⟩
  | setIntent e name kind => exact .inr ⟨_, _, rfl, rfl⟩

variable {e : ScopeId} {x : String} {ss : Scopes α}

/-- Only a bound name is given another value. -/
theorem has_of_effect? {c : Step α} {value : α} (h : c.effect? ss = some (e, .assign x value)) :
    (ss.scope e).vars.has x = true := by
  cases c with
  | new parent => cases h
  | declare i name v readOnly forceGlobal forceLocal =>
    cases forceGlobal <;> cases forceLocal <;> simp [effect?] at h
  | assign i name v =>
    cases hholder : ss.holder? i name with
    | none => simp [effect?, hholder] at h
    | some t =>
      obtain ⟨rfl, rfl, -⟩ : t = e ∧ name = x ∧ v = value := by simpa [effect?, hholder] using h
      exact has_of_holder? hholder
  | unset i name => cases h
  | setIntent i name kind => cases h

/-- A name is bound in a scope without being noted only if that is the outermost one of some
scope. -/
theorem root_of_effect? {c : Step α} {value : α} {readOnly : Bool}
    (h : c.effect? ss = some (e, .bind x value readOnly false)) : ∃ i, ss.root i = e := by
  -- a home other than the scope that a name is bound from is the outermost scope
  have hhome (i : ScopeId) (name : String) (hne : (ss.home i name == i) = false) :
      ss.home i name = ss.root i := by
    unfold home at hne ⊢
    split at hne
    · next hintent => exact if_pos hintent
    · simp at hne
  cases c with
  | new parent => cases h
  | declare i name v ro forceGlobal forceLocal =>
    cases forceGlobal with
    | true =>
      obtain ⟨hroot, -⟩ : ss.root i = e ∧ _ := by simpa [effect?] using h
      exact ⟨i, hroot⟩
    | false =>
      cases forceLocal with
      | true => simp [effect?] at h
      | false =>
        obtain ⟨rfl, -, -, -, hne⟩ : ss.home i name = e ∧ name = x ∧ v = value ∧ ro = readOnly ∧
          (ss.home i name == i) = false := by simpa [effect?] using h
        exact ⟨i, (hhome i name hne).symm⟩
  | assign i name v =>
    cases hholder : ss.holder? i name with
    | some h' => simp [effect?, hholder] at h
    | none =>
      obtain ⟨rfl, -, -, -, hne⟩ : ss.home i name = e ∧ name = x ∧ v = value ∧ _ ∧
        (ss.home i name == i) = false := by simpa [effect?, hholder] using h
      exact ⟨i, (hhome i name hne).symm⟩
  | unset i name => cases h
  | setIntent i name kind => cases h

end Step

/-! ### What the record tells -/

def depth (ss : Scopes α) (e : ScopeId) : Nat := (ss.scope e).blocks.length

/-- The record of scope `e` since a moment, and what it tells of the variables of `e`. -/
structure Accounted (e : ScopeId) (ss : Scopes α) (since : List Change) (ss' : Scopes α) :
    Prop where
  recorded : (ss'.scope e).changes = since ++ (ss.scope e).changes
  /-- A variable that was not changed has the value and the flag that it had. -/
  kept : ∀ x, (∀ c ∈ since, c.name ≠ x) → (ss'.scope e).binding? x = (ss.scope e).binding? x
  /-- A variable that was not dropped is still bound. -/
  bound : ∀ x, (∀ c ∈ since, c.name = x → c.drops (ss.depth e) = false) →
    (ss.scope e).vars.has x = true → (ss'.scope e).vars.has x = true
  /-- A variable that was only removed, or declared in blocks that have ended, is gone. -/
  erased : ∀ x, (∃ c ∈ since, c.name = x) →
    (∀ c ∈ since, c.name = x → c.drops (ss.depth e) = true) → (ss'.scope e).vars.has x = false
  /-- A variable that is new was routed, or it was bound in no block that has ended. -/
  new : ∀ x, (ss'.scope e).vars.has x = true →
    (ss.scope e).vars.has x = true ∨ .routed x ∈ since ∨ .written x (ss.depth e) ∈ since
  /-- The innermost open block has noted what was bound in it. -/
  noted : (ss'.scope e).blocks = (ss.scope e).blocks.modifyHead
    (· ++ since.reverse.filterMap (Change.noted? (ss.depth e)))
  /-- No block was noting names but those that are still open and those inside of them. -/
  inside : ∀ x d, .written x d ∈ since → d = 0 ∨ ss.depth e ≤ d
  /-- If `e` is outermost for no scope, nothing is routed to it, and it stays so. -/
  inner : (∀ i, ss.root i ≠ e) → (∀ i, ss'.root i ≠ e) ∧ ∀ x, .routed x ∉ since

/-- The scopes go through a block of `e` that leaks no name, as the record of `e` tells. -/
structure Sealed (e : ScopeId) (ss : Scopes α) (since : List Change) (ss' : Scopes α) : Prop where
  recorded : (ss'.scope e).changes = since ++ (ss.scope e).changes
  /-- A name that `e` binds afterwards was bound before or was routed. -/
  bound : ∀ x, (ss'.scope e).vars.has x = true →
    (ss.scope e).vars.has x = true ∨ .routed x ∈ since
  /-- If `e` is outermost for no scope, nothing is routed to it. -/
  inner : (∀ i, ss.root i ≠ e) → ∀ x, .routed x ∉ since

variable {e : ScopeId} {ss ss' : Scopes α} {since : List Change}

theorem scope_pushBlock (he : e < ss.size) :
    (ss.pushBlock e).scope e = (ss.scope e).pushBlock := by
  rw [pushBlock, scope_update, if_pos ⟨rfl, he⟩]

theorem lt_size_pushBlock {i : ScopeId} (he : e < ss.size) : e < (ss.pushBlock i).size := by
  simpa using he

theorem depth_pushBlock (he : e < ss.size) : (ss.pushBlock e).depth e = ss.depth e + 1 := by
  rw [depth, scope_pushBlock he]
  rfl

theorem root_pushBlock (ss : Scopes α) (e i : ScopeId) : (ss.pushBlock e).root i = ss.root i :=
  root_update (f := Scope.pushBlock) ss e (fun _ => rfl) i

theorem root_popBlock (ss : Scopes α) (e i : ScopeId) : (ss.popBlock e).root i = ss.root i :=
  root_update ss e Scope.ancestors_popBlock i

namespace Accounted

/-- As many blocks are open as before. -/
theorem depth (h : Accounted e ss since ss') : ss'.depth e = ss.depth e := by
  rw [Scopes.depth, h.noted, List.length_modifyHead, Scopes.depth]

/-- Nothing is recorded of what leaves the variables and the blocks as they are. -/
theorem of_same (hchanges : (ss'.scope e).changes = (ss.scope e).changes)
    (hbinding : ∀ x, (ss'.scope e).binding? x = (ss.scope e).binding? x)
    (hblocks : (ss'.scope e).blocks = (ss.scope e).blocks)
    (hroot : (∀ i, ss.root i ≠ e) → ∀ i, ss'.root i ≠ e) : Accounted e ss [] ss' where
  recorded := hchanges
  kept x _ := hbinding x
  bound x _ hx := by rwa [← Scope.isSome_binding?, hbinding, Scope.isSome_binding?]
  erased _ := nofun
  new x hx := by
    rw [← Scope.isSome_binding?, hbinding, Scope.isSome_binding?] at hx
    exact .inl hx
  noted := hblocks.trans (Scope.modifyHead_append_nil _).symm
  inside _ _ := nofun
  inner h := ⟨hroot h, fun _ => List.not_mem_nil⟩

/-- If nothing happens to a scope there is nothing to account for. -/
theorem of_scope_eq (hscope : ss'.scope e = ss.scope e)
    (hroot : (∀ i, ss.root i ≠ e) → ∀ i, ss'.root i ≠ e) : Accounted e ss [] ss' :=
  of_same (by rw [hscope]) (fun _ => by rw [hscope]) (by rw [hscope]) hroot

/-- Two accounts after each other are one, with the later changes in front. -/
theorem trans {since' : List Change} {ss'' : Scopes α} (h : Accounted e ss since ss')
    (k : Accounted e ss' since' ss'') : Accounted e ss (since' ++ since) ss'' where
  recorded := by rw [k.recorded, h.recorded, List.append_assoc]
  kept x hx := by
    rw [k.kept x fun c hc => hx c (List.mem_append_left _ hc),
      h.kept x fun c hc => hx c (List.mem_append_right _ hc)]
  bound x hx hbound := by
    refine k.bound x (fun c hc => ?_) (h.bound x (fun c hc => hx c (List.mem_append_right _ hc))
      hbound)
    rw [h.depth]
    exact hx c (List.mem_append_left _ hc)
  erased x hchanged hdropped := by
    by_cases hlater : ∃ c ∈ since', c.name = x
    · refine k.erased x hlater fun c hc => ?_
      rw [h.depth]
      exact hdropped c (List.mem_append_left _ hc)
    · -- all that was done to the variable had been done by then
      have hkept := k.kept x fun c hc hname => hlater ⟨c, hc, hname⟩
      obtain ⟨c, hc, hname⟩ := hchanged
      have hearlier := (List.mem_append.1 hc).resolve_left fun hc => hlater ⟨c, hc, hname⟩
      rw [← Scope.isSome_binding?, hkept, Scope.isSome_binding?]
      exact h.erased x ⟨c, hearlier, hname⟩ fun c hc => hdropped c (List.mem_append_right _ hc)
  new x hx := by
    have hlater := k.new x hx
    rw [h.depth] at hlater
    rcases hlater with hx | hlater
    · exact (h.new x hx).imp_right
        (.imp (List.mem_append_right _) (List.mem_append_right _))
    · exact .inr (hlater.imp (List.mem_append_left _) (List.mem_append_left _))
  noted := by
    rw [k.noted, h.noted, h.depth]
    cases (ss.scope e).blocks <;> simp
  inside x d hx := by
    rcases List.mem_append.1 hx with hx | hx
    · rw [← h.depth]
      exact k.inside x d hx
    · exact h.inside x d hx
  inner hroot := by
    obtain ⟨hroot', hearlier⟩ := h.inner hroot
    obtain ⟨hroot'', hlater⟩ := k.inner hroot'
    exact ⟨hroot'', fun x hx => (List.mem_append.1 hx).elim (hlater x) (hearlier x)⟩

section Effect

variable (he : e < ss.size) (f : Effect α)
include he

theorem scope_update_apply : (ss.update e f.apply).scope e = f.apply (ss.scope e) := by
  rw [scope_update, if_pos ⟨rfl, he⟩]

/-- An effect that is recorded as a single change of a name. -/
theorem of_change {c : Change}
    (hchanges : (f.apply (ss.scope e)).changes = c :: (ss.scope e).changes)
    (hothers : ∀ x, c.name ≠ x →
      (f.apply (ss.scope e)).binding? x = (ss.scope e).binding? x)
    (hhas : (f.apply (ss.scope e)).vars.has c.name = !c.drops (ss.depth e))
    (hnew : c.drops (ss.depth e) = false → (ss.scope e).vars.has c.name = true ∨
      c = .routed c.name ∨ c = .written c.name (ss.depth e))
    (hblocks : (f.apply (ss.scope e)).blocks =
      (ss.scope e).blocks.modifyHead (· ++ (c.noted? (ss.depth e)).toList))
    (hinside : ∀ x d, c = .written x d → d = 0 ∨ ss.depth e ≤ d)
    (hroute : ∀ x, c = .routed x → ∃ i, ss.root i = e) :
    Accounted e ss [c] (ss.update e f.apply) where
  recorded := by rw [scope_update_apply he, hchanges, List.singleton_append]
  kept x hx := by rw [scope_update_apply he, hothers x (hx c List.mem_cons_self)]
  bound x hx hbound := by
    rw [scope_update_apply he]
    by_cases hname : c.name = x
    · rw [← hname, hhas, hx c List.mem_cons_self hname, Bool.not_false]
    · rwa [← Scope.isSome_binding?, hothers x hname, Scope.isSome_binding?]
  erased x := by
    rintro ⟨c', hc, rfl⟩ hdrops
    obtain rfl := List.mem_singleton.1 hc
    rw [scope_update_apply he, hhas, hdrops c' hc rfl, Bool.not_true]
  new x hx := by
    rw [scope_update_apply he] at hx
    by_cases hname : c.name = x
    · subst hname
      rw [hhas, Bool.not_eq_true'] at hx
      exact (hnew hx).imp_right (.imp (fun h => List.mem_singleton.2 h.symm)
        fun h => List.mem_singleton.2 h.symm)
    · rw [← Scope.isSome_binding?, hothers x hname, Scope.isSome_binding?] at hx
      exact .inl hx
  noted := by
    rw [scope_update_apply he, hblocks]
    cases h : c.noted? (ss.depth e) <;> simp [h]
  inside x d hx := hinside x d (List.mem_singleton.1 hx).symm
  inner h := by
    refine ⟨fun i => ?_, fun x hx => ?_⟩
    · rw [root_update ss e f.ancestors_apply]
      exact h i
    · obtain ⟨i, hi⟩ := hroute x (List.mem_singleton.1 hx).symm
      exact h i hi

/-- An effect is recorded where it is had. -/
theorem of_effect (hassign : ∀ x v, f = .assign x v → (ss.scope e).vars.has x = true)
    (hroute : ∀ x v readOnly, f = .bind x v readOnly false → ∃ i, ss.root i = e) :
    Accounted e ss (f.changes (ss.depth e)) (ss.update e f.apply) := by
  cases f with
  | bind name value readOnly noted =>
    have hothers (x : String) (hx : name ≠ x) :
        ((ss.scope e).bind name value readOnly noted).binding? x = (ss.scope e).binding? x := by
      rw [Scope.binding?_bind, if_neg hx]
    have hhas : ((ss.scope e).bind name value readOnly noted).vars.has name = true := by
      rw [← Scope.isSome_binding?, Scope.binding?_bind, if_pos rfl, Option.isSome_some]
    cases noted with
    | true =>
      refine of_change (c := .written name (ss.depth e)) he _
        (congrArg Scope.changes (Scope.bind_eq ..)) hothers ?_ (fun _ => .inr (.inr rfl)) ?_
        (fun x d hx => ?_) fun _ => nofun
      · simpa [Effect.apply, Change.name, Change.drops] using hhas
      · simp [Effect.apply, Scope.bind_eq, Change.noted?]
      · cases hx
        exact .inr (Nat.le_refl _)
    | false =>
      refine of_change (c := .routed name) he _ (congrArg Scope.changes (Scope.bind_eq ..)) hothers
        ?_ (fun _ => .inr (.inl rfl)) ?_ (fun _ _ => nofun)
        fun _ _ => hroute name value readOnly rfl
      · simpa [Effect.apply, Change.name, Change.drops] using hhas
      · simp [Effect.apply, Scope.bind_eq, Change.noted?]
  | assign name value =>
    refine of_change (c := .written name 0) he _ rfl
      (fun x hx => (Scope.binding?_assign ..).trans (if_neg hx)) ?_
      (fun _ => .inl (hassign name value rfl)) ?_ (fun x d hx => ?_) fun _ => nofun
    · rw [← Scope.isSome_binding?]
      simp [Effect.apply, Change.name, Change.drops]
    · -- the record is that of a binding while no block is open, and then none notes the name
      change (ss.scope e).blocks = _
      unfold Scopes.depth
      cases hblocks : (ss.scope e).blocks <;> simp [Change.noted?]
    · cases hx
      exact .inl rfl
  | unset name =>
    refine of_change (c := .removed name) he _ rfl
      (fun x hx => (Scope.binding?_unset ..).trans (if_neg hx)) ?_ nofun
      (Scope.modifyHead_append_nil _).symm (fun _ _ => nofun) fun _ => nofun
    change ((ss.scope e).unset name).vars.has name = false
    rw [← Scope.isSome_binding?, Scope.binding?_unset, if_pos rfl, Option.isSome_none]
  | intend name kind =>
    have hscope := scope_update_apply he (.intend name kind)
    refine of_same (by rw [hscope]; rfl) (fun x => by rw [hscope]; rfl) (by rw [hscope]; rfl)
      fun hroot i => ?_
    rw [root_update ss e (Effect.ancestors_apply _)]
    exact hroot i

end Effect

section Block

variable (he : e < ss.size) (hsize : e < ss'.size) (h : Accounted e (ss.pushBlock e) since ss')
include he hsize h

/-- The end of a block erases what was bound while it was the innermost one. -/
theorem binding?_popBlock (x : String) : ((ss'.popBlock e).scope e).binding? x =
    if .written x (ss.depth e + 1) ∈ since then none else (ss'.scope e).binding? x := by
  have hblock : x ∈ (ss'.scope e).blocks.headD [] ↔ .written x (ss.depth e + 1) ∈ since := by
    rw [h.noted, scope_pushBlock he, depth_pushBlock he]
    simp [Scope.pushBlock, Change.noted?_eq_some_iff]
  rw [popBlock, scope_update, if_pos ⟨rfl, hsize⟩, Scope.binding?_popBlock]
  simp only [hblock]

/-- A block of `e` seals what was done while it was open. -/
theorem sealed : Sealed e ss since (ss'.popBlock e) where
  recorded := by
    have hrecorded := h.recorded
    rw [scope_pushBlock he] at hrecorded
    rw [popBlock, scope_update, if_pos ⟨rfl, hsize⟩, Scope.changes_popBlock]
    exact hrecorded
  bound x hx := by
    rw [← Scope.isSome_binding?, binding?_popBlock he hsize h] at hx
    split at hx
    · cases hx
    · next hkept =>
      rw [Scope.isSome_binding?] at hx
      have hnew := h.new x hx
      rw [scope_pushBlock he, depth_pushBlock he] at hnew
      exact hnew.imp_right fun hnew => hnew.resolve_right hkept
  inner hroot := (h.inner fun i => by rw [root_pushBlock]; exact hroot i).2

/-- A block of `e` is accounted for if what was done while it was open is. -/
theorem block : Accounted e ss since (ss'.popBlock e) where
  recorded := (sealed he hsize h).recorded
  kept x hx := by
    rw [binding?_popBlock he hsize h, if_neg fun hwritten => hx _ hwritten rfl, h.kept x hx,
      scope_pushBlock he]
    rfl
  bound x hx hbound := by
    rw [← Scope.isSome_binding?, binding?_popBlock he hsize h, if_neg fun hwritten => ?_,
      Scope.isSome_binding?]
    · refine h.bound x (fun c hc hname => ?_) (by rwa [scope_pushBlock he])
      have hkept := hx c hc hname
      rw [depth_pushBlock he]
      cases c with
      | written name d =>
        simp only [Change.drops, decide_eq_false_iff_not] at hkept ⊢
        omega
      | routed name => rfl
      | removed name => exact hkept
    · simpa [Change.drops] using hx _ hwritten rfl
  erased x hchanged hdropped := by
    rw [← Scope.isSome_binding?, binding?_popBlock he hsize h]
    split
    · rfl
    · -- what the block does not erase itself was dropped while it was open
      next hkept =>
      rw [Scope.isSome_binding?]
      refine h.erased x hchanged fun c hc hname => ?_
      have hdrops := hdropped c hc hname
      rw [depth_pushBlock he]
      cases c with
      | written name d =>
        have hd : d ≠ ss.depth e + 1 := fun hd => hkept (by rwa [← hd, ← hname])
        simp only [Change.drops, decide_eq_true_eq] at hdrops ⊢
        omega
      | routed name => exact hdrops
      | removed name => rfl
  new x hx := ((sealed he hsize h).bound x hx).imp_right .inl
  noted := by
    have hblocks := h.noted
    rw [scope_pushBlock he] at hblocks
    rw [popBlock, scope_update, if_pos ⟨rfl, hsize⟩, Scope.blocks_popBlock, hblocks]
    change (ss.scope e).blocks = _
    cases hopen : (ss.scope e).blocks with
    | nil => rfl
    | cons names rest =>
      -- the block that was innermost before has noted nothing meanwhile
      have hnone : since.reverse.filterMap (Change.noted? (ss.depth e)) = [] := by
        refine List.filterMap_eq_nil_iff.2 fun c hc => Option.eq_none_iff_forall_ne_some.2 ?_
        intro x hx
        rw [Change.noted?_eq_some_iff] at hx
        have hinside := h.inside x (ss.depth e) (hx ▸ List.mem_reverse.1 hc)
        rw [depth_pushBlock he, Scopes.depth, hopen, List.length_cons] at hinside
        omega
      rw [hnone, Scope.modifyHead_append_nil]
  inside x d hx := by
    have hinside := h.inside x d hx
    rw [depth_pushBlock he] at hinside
    omega
  inner hroot := by
    obtain ⟨hroot', hrouted⟩ := h.inner fun i => by rw [root_pushBlock]; exact hroot i
    exact ⟨fun i => by rw [root_popBlock]; exact hroot' i, hrouted⟩

end Block

/-- So is a block of another scope. -/
theorem block_of_ne {i : ScopeId} (hi : i ≠ e) (h : Accounted e (ss.pushBlock i) since ss') :
    Accounted e ss since (ss'.popBlock i) := by
  have hopen : (ss.pushBlock i).scope e = ss.scope e := by
    rw [pushBlock, scope_update, if_neg fun hi' => hi hi'.1.symm]
  have hclosed : (ss'.popBlock i).scope e = ss'.scope e := by
    rw [popBlock, scope_update, if_neg fun hi' => hi hi'.1.symm]
  have hdepth : (ss.pushBlock i).depth e = ss.depth e := by rw [Scopes.depth, hopen, Scopes.depth]
  refine ⟨?_, fun x => ?_, fun x => ?_, fun x => ?_, fun x => ?_, ?_, fun x d => ?_, ?_⟩
  all_goals simp only [hclosed, root_popBlock, ← hopen, ← hdepth, ← root_pushBlock ss i]
  · exact h.recorded
  · exact h.kept x
  · exact h.bound x
  · exact h.erased x
  · exact h.new x
  · exact h.noted
  · exact h.inside x d
  · exact h.inner

end Accounted

/-- Each single change of the scopes can be accounted for. -/
theorem exists_accounted_apply (he : e < ss.size) (c : Step α) :
    ∃ since, Accounted e ss since (c.apply ss) := by
  obtain ⟨parent, -, hnew⟩ | ⟨t, f, hf, happly⟩ := c.apply_eq ss
  · rw [hnew]
    refine ⟨[], .of_scope_eq ?_ fun hroot i => ?_⟩
    · rw [scope_new, if_neg (Nat.ne_of_lt he)]
    · rw [root_new]
      split
      · cases parent with
        | none => exact Nat.ne_of_gt he
        | some p => exact hroot p
      · exact hroot i
  · rw [happly]
    by_cases ht : t = e
    · subst ht
      exact ⟨_, .of_effect he f (fun x v hx => Step.has_of_effect? (hx ▸ hf))
        fun x v readOnly hx => Step.root_of_effect? (hx ▸ hf)⟩
    · refine ⟨[], .of_scope_eq ?_ fun hroot i => ?_⟩
      · rw [scope_update, if_neg fun h => ht h.1.symm]
      · rw [root_update ss t f.ancestors_apply]
        exact hroot i

/-- However scopes change, each scope that was there has recorded what was done to its names. -/
theorem Evolves.exists_accounted (h : Evolves ss ss') (he : e < ss.size) :
    ∃ since, Accounted e ss since ss' := by
  induction h with
  | refl ss => exact ⟨[], .of_scope_eq rfl id⟩
  | trans h _ ih ih' =>
    obtain ⟨since, haccounted⟩ := ih he
    obtain ⟨since', haccounted'⟩ := ih' (Nat.lt_of_lt_of_le he h.blocksKept.1)
    exact ⟨_, haccounted.trans haccounted'⟩
  | new ss parent => exact exists_accounted_apply he (.new parent)
  | declare ss i name value readOnly forceGlobal forceLocal =>
    exact exists_accounted_apply he (.declare i name value readOnly forceGlobal forceLocal)
  | assign ss i name value => exact exists_accounted_apply he (.assign i name value)
  | unset ss i name => exact exists_accounted_apply he (.unset i name)
  | setIntent ss i name kind => exact exists_accounted_apply he (.setIntent i name kind)
  | @block ss ss' i h ih =>
    obtain ⟨since, haccounted⟩ := ih (lt_size_pushBlock he)
    by_cases hi : i = e
    · subst hi
      have hsize := Nat.lt_of_lt_of_le (lt_size_pushBlock he) h.blocksKept.1
      exact ⟨since, haccounted.block he hsize⟩
    · exact ⟨since, haccounted.block_of_ne hi⟩

end Scopes

end ScriptLang
