import ScriptLang.Proofs.Run.Call
import ScriptLang.Proofs.Run.Literal
import ScriptLang.Proofs.Scope.Nested

/-!
# Bodies of functions and variables

The body of a class or a template is run in a scope of its own inside the outermost one. A function
of the body is assigned, so it takes the place of a global with its name; and a variable is
declared, so it removes such a global. Where each name is after the body was run can therefore be
told from its definitions: it stays in the scope of the body, or it has gone astray to the globals.
-/

namespace ScriptLang

/-! ### Definitions in a body -/

namespace Node

/-- A function, or a variable whose value is a literal. -/
inductive IsMember : Node → Prop where
  | func (name : String) (params : List (String × String × Node)) (returns : String)
      (body : List Node) : IsMember (.func name params returns body)
  | var (name : String) {expr : Node} {b : Binding} : expr.IsLiteral → b.declare = true →
      b.forceGlobal = false → b.forceLocal = false → IsMember (.assign (some name) expr .absent b)

def memberName? : Node → Option String
  | func id .. => some id
  | assign (some id) .. => if id = "_" then none else some id
  | _ => none

def isVar : Node → Bool
  | assign .. => true
  | _ => false

def isReadOnlyVar : Node → Bool
  | assign _ _ _ b => b.readOnly
  | _ => false

end Node

def lastDefinition? (body : List Node) (x : String) : Option Node :=
  body.reverse.find? fun d => d.memberName? = some x

/-- One more member: it is the last definition of its name. -/
theorem lastDefinition?_concat (body : List Node) (d : Node) (x : String) :
    lastDefinition? (body ++ [d]) x =
      if d.memberName? = some x then some d else lastDefinition? body x := by
  rw [lastDefinition?, List.reverse_concat, List.find?_cons]
  by_cases h : d.memberName? = some x <;> simp [h, lastDefinition?]

theorem lastDefinition?_concat_of_eq {d : Node} {x : String} (h : d.memberName? = some x)
    (body : List Node) : lastDefinition? (body ++ [d]) x = some d := by
  rw [lastDefinition?_concat, if_pos h]

/-- A name without a definition is no member's name. -/
theorem lastDefinition?_eq_none_iff {body : List Node} {x : String} :
    lastDefinition? body x = none ↔ ∀ d ∈ body, d.memberName? ≠ some x := by
  simp [lastDefinition?]

def declarationObj (name returns : String) (code : Nat) (body : List Node) : Obj :=
  .record .declaration [("name", .text name), ("return_type", .text returns),
    ("body", .internal (.nodes [code] body))]

/-- A member as its definition says, for a body in the scope `inner`. -/
def Defines (m : Machine) (inner : ScopeId) : Node → Value → Prop
  | .func name params returns body, v => ∃ r declaration code, v = .ref r ∧
      m.store[r]? = some (.func declaration code [("env", .internal (.scope inner))]) ∧
      m.store[declaration]? = some (declarationObj name returns code body) ∧
      m.codes[code]? = some { params, body, scope := inner }
  | .assign _ expr _ _, v => Denotes m.store expr v
  | _, _ => False

/-- The second machine has the objects and the code of the first one, and the same globals. -/
structure Machine.Extends (m m' : Machine) : Prop where
  store : Grows m.store m'.store
  codes : Grows m.codes m'.codes
  root : m'.root = m.root

theorem Machine.Allocates.extends {m m' : Machine} (h : m.Allocates m') : m.Extends m' :=
  ⟨h.store, h.codes ▸ .refl _, h.root⟩

theorem Machine.Extends.trans {m m' m'' : Machine} (h : m.Extends m') (h' : m'.Extends m'') :
    m.Extends m'' :=
  ⟨h.store.trans h'.store, h.codes.trans h'.codes, h'.root.trans h.root⟩

theorem Defines.mono {m m' : Machine} {inner : ScopeId} {d : Node} {v : Value}
    (h : Defines m inner d v) (hext : m.Extends m') : Defines m' inner d v := by
  unfold Defines at h ⊢
  split at h
  · obtain ⟨r, declaration, code, rfl, hfunc, hrecord, hcode⟩ := h
    exact ⟨r, declaration, code, rfl, hext.store _ _ hfunc, hext.store _ _ hrecord,
      hext.codes _ _ hcode⟩
  · exact Denotes.mono h hext.store
  · exact h

/-- A name stays in the scope of the body: it is not meant to be global, and if it is a global then
a variable takes its place. -/
def IsOwn (start : Machine) (body : List Node) (x : String) : Prop :=
  (start.scopes.scope start.root).intents.get? x ≠ some "global" ∧
    ((start.scopes.scope start.root).binding? x = none ∨
      ∃ d ∈ body, d.isVar = true ∧ d.memberName? = some x)

namespace Exec

open Scopes (Nested Outermost)

variable {start m m' : Machine} {inner : ScopeId} {body : List Node} {d : Node} {x : String}

/-! ### Where names are -/

/-- Where a name is after a body, or a part of it, was run. -/
structure Placed (start : Machine) (inner : ScopeId) (body : List Node) (m : Machine) (x : String) :
    Prop where
  untouched : lastDefinition? body x = none → (m.scopes.scope inner).binding? x = none ∧
    (m.scopes.scope start.root).binding? x = (start.scopes.scope start.root).binding? x
  own : ∀ d, lastDefinition? body x = some d → IsOwn start body x →
    (m.scopes.scope start.root).binding? x = none ∧
    ∃ v readOnly, (m.scopes.scope inner).binding? x = some (v, readOnly) ∧ Defines m inner d v ∧
      (readOnly = true → ∃ d ∈ body, d.memberName? = some x ∧ d.isReadOnlyVar = true)
  astray : lastDefinition? body x ≠ none → ¬ IsOwn start body x →
    (m.scopes.scope inner).binding? x = none ∧
    (m.scopes.scope start.root).binding? x ≠ none

namespace Placed

variable (h : Placed start inner body m x)

include h

/-- A name that is not the body's own is not bound in its scope. -/
theorem inner_of_not_isOwn (hown : ¬ IsOwn start body x) :
    (m.scopes.scope inner).binding? x = none := by
  cases hlast : lastDefinition? body x with
  | none => exact (h.untouched hlast).1
  | some d => exact (h.astray (by simp [hlast]) hown).1

/-- A name of the body's own is not bound outside. -/
theorem root_of_isOwn (hown : IsOwn start body x) :
    (m.scopes.scope start.root).binding? x = none := by
  cases hlast : lastDefinition? body x with
  | none =>
    rw [(h.untouched hlast).2]
    refine hown.2.resolve_right ?_
    rintro ⟨d, hd, -, hname⟩
    exact lastDefinition?_eq_none_iff.1 hlast d hd hname
  | some d => exact (h.own d hlast hown).1

/-- A name that stays in the body is read-only there only if the body says so. -/
theorem readOnly_of_isOwn (hown : IsOwn start body x) {v : Value}
    (hv : (m.scopes.scope inner).binding? x = some (v, true)) :
    ∃ d ∈ body, d.memberName? = some x ∧ d.isReadOnlyVar = true := by
  cases hlast : lastDefinition? body x with
  | none =>
    rw [(h.untouched hlast).1] at hv
    cases hv
  | some d =>
    obtain ⟨-, w, readOnly, hw, -, himplies⟩ := h.own d hlast hown
    rw [hv] at hw
    cases hw
    exact himplies rfl

/-- A name that another definition does not touch stays where it is. -/
theorem concat_of_ne (hd : d.memberName? ≠ some x) (hext : m.Extends m')
    (hinner : (m'.scopes.scope inner).binding? x = (m.scopes.scope inner).binding? x)
    (hroot : (m'.scopes.scope start.root).binding? x = (m.scopes.scope start.root).binding? x) :
    Placed start inner (body ++ [d]) m' x := by
  have hlast : lastDefinition? (body ++ [d]) x = lastDefinition? body x := by
    rw [lastDefinition?_concat, if_neg hd]
  have hown : IsOwn start (body ++ [d]) x ↔ IsOwn start body x := by
    simp [IsOwn, or_and_right, exists_or, hd]
  refine ⟨fun hnone => ?_, fun d' hd' h' => ?_, fun hsome h' => ?_⟩
  · rw [hinner, hroot]
    exact h.untouched (hlast.symm.trans hnone)
  · obtain ⟨hnone, v, readOnly, hv, hdefines, himplies⟩ :=
      h.own d' (hlast.symm.trans hd') (hown.1 h')
    refine ⟨hroot.trans hnone, v, readOnly, hinner.trans hv, hdefines.mono hext, fun hr => ?_⟩
    obtain ⟨d'', hmem, hname⟩ := himplies hr
    exact ⟨d'', List.mem_append_left _ hmem, hname⟩
  · rw [hinner, hroot]
    exact h.astray (hlast ▸ hsome) fun hb => h' (hown.2 hb)

end Placed

/-- The scopes and the names after a body, or a part of it, was run. -/
structure Collects (start : Machine) (inner : ScopeId) (body : List Node) (m : Machine) : Prop where
  kept : start.Extends m
  nested : Nested inner start.root (start.scopes.scope start.root).intents m.scopes
  placed : ∀ x, Placed start inner body m x

namespace Collects

variable (h : Collects start inner body m)

include h

/-- An assignment of a name that stays in the body goes to the scope of the body. -/
theorem written_of_isOwn (hown : IsOwn start body x) : m.scopes.written inner x = inner := by
  rw [h.nested.written]
  split_ifs with hinner hroot
  · rfl
  · rw [← Scope.isSome_binding?, (h.placed x).root_of_isOwn hown] at hroot
    exact absurd hroot (by simp [hown.1])
  · rfl

/-- An assignment of another name goes to the globals. -/
theorem written_of_not_isOwn (hown : ¬ IsOwn start body x) :
    m.scopes.written inner x = start.root := by
  have hplaced := h.placed x
  have hinner : ¬ (m.scopes.scope inner).vars.has x = true := by
    rw [← Scope.isSome_binding?, hplaced.inner_of_not_isOwn hown]
    simp
  have hroot : (m.scopes.scope start.root).vars.has x = true ∨
      (start.scopes.scope start.root).intents.get? x = some "global" := by
    rw [← Scope.isSome_binding?, Option.isSome_iff_ne_none]
    by_cases hnone : (m.scopes.scope start.root).binding? x = none
    · refine .inr (by_contra fun hintent => hown ⟨hintent, .inl ?_⟩)
      cases hlast : lastDefinition? body x with
      | none => rw [← (hplaced.untouched hlast).2, hnone]
      | some d => exact absurd hnone (hplaced.astray (by simp [hlast]) hown).2
    · exact .inl hnone
  rw [h.nested.written, if_neg hinner, if_pos hroot]

/-- A name that stays in the body is read-only there only if the body says so. -/
theorem isReadOnly_of_isOwn (hown : IsOwn start body x)
    (hreadOnly : m.scopes.isReadOnly inner x = true) :
    ∃ d ∈ body, d.memberName? = some x ∧ d.isReadOnlyVar = true := by
  rw [Scopes.isReadOnly, h.nested.holder?] at hreadOnly
  by_cases hinner : (m.scopes.scope inner).vars.has x = true
  · rw [if_pos hinner] at hreadOnly
    obtain ⟨v, hv⟩ := Option.isSome_iff_exists.1 hinner
    refine (h.placed x).readOnly_of_isOwn hown (v := v) ?_
    rw [Scope.binding?, hv, Option.map_some]
    exact congrArg (fun readOnly => some (v, readOnly)) hreadOnly
  · have hroot : ¬ (m.scopes.scope start.root).vars.has x = true := by
      rw [← Scope.isSome_binding?, (h.placed x).root_of_isOwn hown]
      simp
    rw [if_neg hinner, if_neg hroot] at hreadOnly
    cases hreadOnly

/-- A global that is not the nearest binding of its name is none. -/
theorem root_of_holder?_ne (hholder : m.scopes.holder? inner x ≠ some start.root) :
    (m.scopes.scope start.root).binding? x = none := by
  by_cases hown : IsOwn start body x
  · exact (h.placed x).root_of_isOwn hown
  · have hinner := (h.placed x).inner_of_not_isOwn hown
    by_contra hbound
    refine hholder ?_
    rw [h.nested.holder?, ← Scope.isSome_binding?, ← Scope.isSome_binding?, hinner, if_neg nofun,
      if_pos (Option.isSome_iff_ne_none.2 hbound)]

theorem allocates (halloc : m.Allocates m') : Collects start inner body m' := by
  refine ⟨h.kept.trans halloc.extends, halloc.scopes ▸ h.nested, fun x => ?_⟩
  obtain ⟨huntouched, hown, hastray⟩ := h.placed x
  rw [← halloc.scopes] at huntouched hown hastray
  refine ⟨huntouched, fun d hd ho => ?_, hastray⟩
  obtain ⟨hnone, v, readOnly, hv, hdefines, himplies⟩ := hown d hd ho
  exact ⟨hnone, v, readOnly, hv, hdefines.mono halloc.extends, himplies⟩

/-- A variable without a name is no member. -/
theorem concat_of_none (hd : d.memberName? = none) : Collects start inner (body ++ [d]) m := by
  refine ⟨h.kept, h.nested, fun x => (h.placed x).concat_of_ne (by simp [hd]) ?_ rfl rfl⟩
  exact ⟨.refl _, .refl _, rfl⟩

/-- A function goes to the scope of the body if its name stays there, and to the globals if not. -/
theorem concat_func {params : List (String × String × Node)} {returns : String} {code : List Node}
    {v : Value} (hext : m.Extends m') (hscopes : m'.scopes = m.scopes.assign inner x v)
    (hv : Defines m' inner (.func x params returns code) v) :
    Collects start inner (body ++ [.func x params returns code]) m' := by
  have hbindings (i : ScopeId) (y : String) : (m'.scopes.scope i).binding? y =
      if i = m.scopes.written inner x ∧ x = y then some (v, m.scopes.isReadOnly inner x)
      else (m.scopes.scope i).binding? y := by
    rw [hscopes]
    exact Scopes.binding?_assign (h.nested.written_lt_size x) v i y
  refine ⟨h.kept.trans hext, hscopes ▸ h.nested.assign inner x v, fun y => ?_⟩
  have hplaced := h.placed y
  by_cases hy : x = y
  · subst hy
    have hisOwn : IsOwn start (body ++ [.func x params returns code]) x ↔ IsOwn start body x := by
      simp [IsOwn, or_and_right, exists_or, Node.isVar]
    have hlast : lastDefinition? (body ++ [.func x params returns code]) x =
        some (.func x params returns code) := lastDefinition?_concat_of_eq rfl body
    refine ⟨fun hnone => ?_, fun d hd hown => ?_, fun _ hown => ?_⟩
    · rw [hlast] at hnone
      cases hnone
    · rw [hlast] at hd
      cases hd
      rw [hisOwn] at hown
      have hwritten := h.written_of_isOwn hown
      rw [hbindings, hbindings, hwritten, if_neg fun hi => h.nested.ne hi.1.symm, if_pos ⟨rfl, rfl⟩]
      refine ⟨hplaced.root_of_isOwn hown, v, _, rfl, hv, fun hreadOnly => ?_⟩
      obtain ⟨d, hd, hname⟩ := h.isReadOnly_of_isOwn hown hreadOnly
      exact ⟨d, List.mem_append_left _ hd, hname⟩
    · rw [hisOwn] at hown
      have hwritten := h.written_of_not_isOwn hown
      rw [hbindings, hbindings, hwritten, if_neg fun hi => h.nested.ne hi.1, if_pos ⟨rfl, rfl⟩]
      exact ⟨hplaced.inner_of_not_isOwn hown, Option.some_ne_none _⟩
  · refine hplaced.concat_of_ne (by simpa [Node.memberName?] using hy) hext ?_ ?_ <;>
      rw [hbindings, if_neg fun h => hy h.2]

/-- A variable goes where its name is meant to be, and takes the place of a global. -/
theorem concat_var {b : Binding} {expr target : Node} {v : Value} {ss : Scopes Value}
    (hname : (Node.assign (some x) expr target b).memberName? = some x)
    (hnested : Nested inner start.root (start.scopes.scope start.root).intents ss)
    (hbindings : ∀ i y, (ss.scope i).binding? y =
      if i = m.scopes.home inner x ∧ x = y then some (v, b.readOnly)
      else if m.scopes.holder? (m.scopes.home inner x) x = some i ∧ x = y then none
      else (m.scopes.scope i).binding? y)
    (hv : Denotes m.store expr v) :
    Collects start inner (body ++ [.assign (some x) expr target b]) { m with scopes := ss } := by
  have hext : m.Extends { m with scopes := ss } := ⟨.refl _, .refl _, rfl⟩
  refine ⟨h.kept.trans hext, hnested, fun y => ?_⟩
  have hplaced := h.placed y
  by_cases hy : x = y
  · subst hy
    have hisOwn : IsOwn start (body ++ [.assign (some x) expr target b]) x ↔
        (start.scopes.scope start.root).intents.get? x ≠ some "global" := by
      simp [IsOwn, or_and_right, exists_or, Node.isVar, hname]
    have hlast := lastDefinition?_concat_of_eq hname body
    refine ⟨fun hnone => ?_, fun d hd hown => ?_, fun _ hown => ?_⟩
    · rw [hlast] at hnone
      cases hnone
    · rw [hlast] at hd
      cases hd
      have hhome : m.scopes.home inner x = inner := by
        rw [h.nested.home, if_neg (hisOwn.1 hown)]
      rw [hhome] at hbindings
      refine ⟨(hbindings start.root x).trans ?_, v, b.readOnly, ?_, hv, fun hreadOnly => ?_⟩
      · rw [if_neg fun hi => h.nested.ne hi.1.symm]
        split
        · rfl
        · next hholder => exact h.root_of_holder?_ne fun hsome => hholder ⟨hsome, rfl⟩
      · exact (hbindings inner x).trans (if_pos ⟨rfl, rfl⟩)
      · exact ⟨_, List.mem_append_right _ List.mem_cons_self, hname, hreadOnly⟩
    · have hintent := not_not.1 (mt hisOwn.2 hown)
      have hhome : m.scopes.home inner x = start.root := by
        rw [h.nested.home, if_pos hintent]
      rw [hhome] at hbindings
      have hholder : m.scopes.holder? start.root x ≠ some inner := by
        rw [h.nested.outermost.holder?]
        split
        · exact fun heq => h.nested.ne (Option.some.inj heq).symm
        · exact nofun
      constructor
      · refine (hbindings inner x).trans ?_
        rw [if_neg fun hi => h.nested.ne hi.1, if_neg fun hi => hholder hi.1]
        exact hplaced.inner_of_not_isOwn fun hown' => hown'.1 hintent
      · rw [hbindings start.root x, if_pos ⟨rfl, rfl⟩]
        exact Option.some_ne_none _
  · refine hplaced.concat_of_ne ?_ hext ?_ ?_
    · rw [hname]
      exact fun h => hy (Option.some.inj h)
    · exact (hbindings inner y).trans (by simp [hy])
    · exact (hbindings start.root y).trans (by simp [hy])

end Collects

/-- The scope of the body binds the names that stay in it. -/
theorem Collects.has_iff (h : Collects start inner body m) (x : String) :
    (m.scopes.scope inner).vars.has x = true ↔
      lastDefinition? body x ≠ none ∧ IsOwn start body x := by
  have hplaced := h.placed x
  rw [← Scope.isSome_binding?]
  constructor
  · intro hsome
    constructor
    · intro hlast
      rw [(hplaced.untouched hlast).1] at hsome
      cases hsome
    · by_contra hown
      rw [hplaced.inner_of_not_isOwn hown] at hsome
      cases hsome
  · rintro ⟨hlast, hown⟩
    obtain ⟨d, hd⟩ := Option.ne_none_iff_exists'.1 hlast
    obtain ⟨-, v, readOnly, hv, -⟩ := hplaced.own d hd hown
    rw [hv]
    rfl

/-! ### Running a body -/

def withFunction (m : Machine) (e : ScopeId) (x : String) (params : List (String × String × Node))
    (returns : String) (code : List Node) : Machine :=
  { m with
    current := e
    store := (m.store.push (declarationObj x returns m.codes.size code)).push
      (.func m.store.size m.codes.size [("env", .internal (.scope e))])
    codes := m.codes.push { params, body := code, scope := e } }

/-- A function is two new objects, its declaration and itself, and its name is assigned. -/
theorem run_execute_func (depth : Nat) (e : ScopeId) (x : String)
    (params : List (String × String × Node)) (returns : String) (code : List Node) (m : Machine) :
    ((Engine.ofDepth (depth + 1)).execute (.func x params returns code) e).run m =
      (assignName e x
          (.ref (m.store.push (declarationObj x returns m.codes.size code)).size) >>= fun _ =>
        pure .none).run (withFunction m e x params returns code) := rfl

theorem defines_withFunction (m : Machine) (e : ScopeId) (x : String)
    (params : List (String × String × Node)) (returns : String) (code : List Node) :
    Defines (withFunction m e x params returns code) e (.func x params returns code)
      (.ref (m.store.push (declarationObj x returns m.codes.size code)).size) :=
  ⟨_, m.store.size, m.codes.size, rfl, Array.getElem?_push_size,
    Grows.push _ _ _ _ Array.getElem?_push_size, Array.getElem?_push_size⟩

theorem extends_withFunction (m : Machine) (e : ScopeId) (x : String)
    (params : List (String × String × Node)) (returns : String) (code : List Node) :
    m.Extends (withFunction m e x params returns code) :=
  ⟨(Grows.push _ _).trans (.push _ _), .push _ _, rfl⟩

/-- A member that has been run is where it belongs. -/
theorem Collects.execute (h : Collects start inner body m) (hd : d.IsMember) {depth : Nat}
    {r : Value} (hrun : ((Engine.ofDepth depth).execute d inner).run m = (.ok r, m')) :
    Collects start inner (body ++ [d]) m' := by
  cases depth with
  | zero => cases hrun
  | succ depth =>
    cases hd with
    | func x params returns code =>
      rw [run_execute_func] at hrun
      obtain ⟨_, _, hassign, hresult⟩ := run_bind_eq_ok.1 hrun
      cases hresult
      cases run_assignName_eq_ok hassign
      have hext := extends_withFunction m inner x params returns code
      refine h.concat_func ⟨hext.store, hext.codes, hext.root⟩ rfl ?_
      exact (defines_withFunction m inner x params returns code).mono ⟨.refl _, .refl _, rfl⟩
    | var x hexpr hdeclare hglobal hlocal =>
      obtain ⟨v, m₁, hvalue, hskip, hbind⟩ := run_declaration_cases hdeclare hrun
      obtain ⟨halloc, hdenotes⟩ := evaluatesTo_of_isLiteral hexpr depth inner _ _ _ hvalue
      have hm₁ : Collects start inner body m₁ :=
        h.allocates ⟨halloc.store, halloc.scopes, halloc.codes, halloc.root⟩
      by_cases hx : x = "_"
      · rw [hskip hx]
        exact hm₁.concat_of_none (by simp [Node.memberName?, hx])
      · obtain ⟨ss, hredeclare, hnested, hbindings⟩ :=
          run_redeclare_nested hm₁.nested x v hglobal hlocal
        rw [hbind hx] at hredeclare
        cases hredeclare
        exact hm₁.concat_var (by simp [Node.memberName?, hx]) hnested hbindings hdenotes

theorem run_executeAll_cons_eq_ok {g : Engine} {e : ScopeId} {s : Node} {rest : List Node}
    {r : Value} (hrun : (g.executeAll e (s :: rest)).run m = (.ok r, m')) :
    ∃ r₁ m₁ r₂, (g.execute s e).run m = (.ok r₁, m₁) ∧
      (g.executeAll e rest).run m₁ = (.ok r₂, m') := by
  cases rest with
  | nil => exact ⟨r, m', .none, hrun, rfl⟩
  | cons s' rest =>
    obtain ⟨r₁, m₁, hfirst, hrest⟩ := run_bind_eq_ok.1 hrun
    exact ⟨r₁, m₁, r, hfirst, hrest⟩

/-- By induction on the statements: what was collected so far and the rest are collected
together. -/
theorem Collects.executeAll {rest : List Node} (h : Collects start inner body m)
    (hrest : ∀ d ∈ rest, d.IsMember) {depth : Nat} {r : Value}
    (hrun : ((Engine.ofDepth depth).executeAll inner rest).run m = (.ok r, m')) :
    Collects start inner (body ++ rest) m' := by
  induction rest generalizing body m r with
  | nil =>
    cases hrun
    rwa [List.append_nil]
  | cons d rest ih =>
    rw [List.forall_mem_cons] at hrest
    obtain ⟨r₁, m₁, r₂, hfirst, hrun⟩ := run_executeAll_cons_eq_ok hrun
    rw [List.append_cons]
    exact ih (h.execute hrest.1 hfirst) hrest.2 hrun

/-- The scope of a body is empty at first. -/
theorem collects_nil (hroot : m.scopes.Outermost m.root) (current : ScopeId) :
    Collects m m.scopes.size []
      { m with current, scopes := (m.scopes.new (some m.root)).2 } := by
  have hne : m.root ≠ m.scopes.size := Nat.ne_of_lt hroot.lt_size
  refine ⟨⟨.refl _, .refl _, rfl⟩, hroot.nested_new, fun x => ⟨fun _ => ⟨?_, ?_⟩, nofun, ?_⟩⟩
  · dsimp only
    rw [Scopes.scope_new, if_pos rfl]
    rfl
  · dsimp only
    rw [Scopes.scope_new, if_neg hne]
  · exact fun hsome => absurd rfl hsome

/-! ### Bodies that run through -/

/-- Nothing in the body is refused: its names are free, the name of the declaration may be written,
no name is both a function and a read-only variable, and values are of their declared types. -/
structure IsOrderly (m : Machine) (name : String) (body : List Node) : Prop where
  free : ∀ x, lastDefinition? body x ≠ none → m.scopes.IsFree m.root x
  writable : m.scopes.isReadOnly m.root name = false
  unmixed : ∀ f ∈ body, ∀ d ∈ body, f.isVar = false → d.isReadOnlyVar = true →
    f.memberName? ≠ d.memberName?
  typed : ∀ x expr target b, .assign x expr target b ∈ body → ∀ st v, Denotes st expr v →
    b.type = "auto" ∨ st.hasType v b.type = true

theorem isFree_iff (hroot : m.scopes.Outermost m.root) : m.scopes.IsFree m.root x ↔
    (m.scopes.scope m.root).binding? x = none ∧
      (m.scopes.scope m.root).intents.get? x ≠ some "global" := by
  rw [Scopes.IsFree, hroot.holder?, hroot.intent?, Scopes.flag?, Option.isSome_map]
  cases (m.scopes.scope m.root).binding? x <;> simp

/-- A free name is the body's own. -/
theorem isOwn_of_isFree (hroot : m.scopes.Outermost m.root) (h : m.scopes.IsFree m.root x)
    (body : List Node) : IsOwn m body x := by
  obtain ⟨hnone, hintent⟩ := (isFree_iff hroot).1 h
  exact ⟨hintent, .inl hnone⟩

/-- A declaration completes if its expression has a value of the declared type. -/
theorem exists_run_declaration {depth : Nat} {expr : Node} {b : Binding} {v : Value} {m₁ : Machine}
    (hdeclare : b.declare = true) (e : ScopeId)
    (hvalue : ((Engine.ofDepth depth).evaluate expr e).run { m with current := e } = (.ok v, m₁))
    (htype : b.type = "auto" ∨ m₁.store.hasType v b.type = true) :
    ∃ r m', ((Engine.ofDepth (depth + 1)).execute (.assign (some x) expr .absent b) e).run m =
      (.ok r, m') := by
  have hcheck (name : String) : (liftM (checkType name b.type v) : Exec Unit).run m₁ =
      (.ok (), m₁) := by
    refine run_host_of_ok ?_
    rw [run_checkType, if_neg]
    simpa using Decidable.or_iff_not_imp_left.1 htype
  have hassign : ∃ m', (executeAssign (.ofDepth depth) e (some x) expr .absent b).run
      { m with current := e } = (.ok (), m') := by
    rw [executeAssign, run_bind, hvalue]
    dsimp only
    by_cases hx : x = "_"
    · rw [if_neg (by simp [hx, Node.isAbsent])]
      exact ⟨m₁, rfl⟩
    · rw [if_pos (by simp [hx]), if_pos hdeclare, run_bind, hcheck]
      dsimp only
      rw [if_neg (by simp [Node.isAbsent]), if_pos hdeclare]
      exact ⟨_, rfl⟩
  obtain ⟨m', hassign⟩ := hassign
  exact ⟨.none, m', run_bind_eq_ok.2 ⟨(), _, rfl, run_bind_eq_ok.2 ⟨(), m', hassign, rfl⟩⟩⟩

/-- A member that is not refused can be run. -/
theorem Collects.exists_execute {name : String} {whole : List Node}
    (h : Collects start inner body m) (hroot : start.scopes.Outermost start.root)
    (horderly : IsOrderly start name whole) (hbody : body ⊆ whole) (hmem : d ∈ whole)
    (hd : d.IsMember) {depth : Nat}
    (hvalues : ∀ x expr target b, d = .assign x expr target b →
      HasValue (.ofDepth depth) inner expr) :
    ∃ r m', ((Engine.ofDepth (depth + 1)).execute d inner).run m = (.ok r, m') := by
  cases hd with
  | func x params returns code =>
    have hname : (Node.func x params returns code).memberName? = some x := rfl
    have hfree : start.scopes.IsFree start.root x := by
      refine horderly.free x fun hnone => ?_
      exact lastDefinition?_eq_none_iff.1 hnone _ hmem hname
    have hwritable : m.scopes.isReadOnly inner x = false := by
      by_contra hreadOnly
      obtain ⟨d, hd, hdname, hdvar⟩ :=
        h.isReadOnly_of_isOwn (isOwn_of_isFree hroot hfree body) (Bool.not_eq_false _ ▸ hreadOnly)
      exact horderly.unmixed _ hmem d (hbody hd) rfl hdvar (hname.trans hdname.symm)
    rw [run_execute_func, run_bind,
      run_assignName (m := withFunction m inner x params returns code) hwritable]
    exact ⟨_, _, rfl⟩
  | var x hexpr hdeclare hglobal hlocal =>
    obtain ⟨v, m₁, hvalue⟩ := hvalues _ _ _ _ rfl { m with current := inner }
    have hdenotes := (evaluatesTo_of_isLiteral hexpr depth inner _ _ _ hvalue).2
    exact exists_run_declaration hdeclare inner hvalue
      (horderly.typed _ _ _ _ hmem _ _ hdenotes)

/-- By induction on the statements: in an orderly body each of them is executed to its end. -/
theorem Collects.exists_executeAll {name : String} {whole rest : List Node}
    (h : Collects start inner body m) (hroot : start.scopes.Outermost start.root)
    (horderly : IsOrderly start name whole) (hbody : body ⊆ whole) (hrest : rest ⊆ whole)
    (hmembers : ∀ d ∈ whole, d.IsMember) {depth : Nat}
    (hvalues : ∀ d ∈ whole, ∀ x expr target b, d = .assign x expr target b →
      HasValue (.ofDepth depth) inner expr) :
    ∃ r m', ((Engine.ofDepth (depth + 1)).executeAll inner rest).run m = (.ok r, m') := by
  induction rest generalizing body m with
  | nil => exact ⟨.none, m, rfl⟩
  | cons d rest ih =>
    obtain ⟨hmem, hrest⟩ := List.cons_subset.1 hrest
    obtain ⟨r₁, m₁, hfirst⟩ :=
      h.exists_execute hroot horderly hbody hmem (hmembers d hmem) (hvalues d hmem)
    have hnext := h.execute (hmembers d hmem) hfirst
    have hdone : body ++ [d] ⊆ whole := List.append_subset.2 ⟨hbody, by simpa using hmem⟩
    obtain ⟨r₂, m₂, hall⟩ := ih hnext hdone hrest
    cases rest with
    | nil => exact ⟨r₁, m₁, hfirst⟩
    | cons d' rest => exact ⟨r₂, m₂, run_bind_eq_ok.2 ⟨r₁, m₁, hfirst, hall⟩⟩

end Exec

end ScriptLang
