import ScriptLang.Proofs.Run.Furnish

/-!
# What definitions leave

A definition of a member can end in two ways: it fails, or it leaves a machine that is known. The
module is made if there is none, the name of the member is put on its list if it has one and the
name is not there, and the names of the member have its content. A definition that is completed
gives those names their value even if they are read-only.
-/

namespace ScriptLang

theorem Store.list?_ref_eq_some_iff {st : Store} {r : Ref} {items : Array Value} :
    st.list? (.ref r) = some items ↔ st[r]? = some (.list items) := by
  simp only [list?, ofValue?]
  split
  · next heq => simp [heq]
  · next hother =>
    simp only [reduceCtorEq, false_iff]
    exact hother items

namespace Machine

variable {m : Machine}

/-! ### Changes of globals -/

def setGlobal (m : Machine) (x : String) (v : Value) : Machine :=
  { m with scopes := m.scopes.assign m.root x v }

theorem global?_setGlobal (hm : m.scopes.Outermost m.root) (x : String) (v : Value) (y : String) :
    (m.setGlobal x v).global? y = if x = y then some v else m.global? y :=
  hm.get?_vars_assign x v y

theorem outermost_setGlobal (hm : m.scopes.Outermost m.root) (x : String) (v : Value) :
    (m.setGlobal x v).scopes.Outermost (m.setGlobal x v).root := hm.assign m.root x v

def withStore (m : Machine) (st : Store) : Machine := { m with store := st }

def described (m : Machine) (key : String) (doc : Value) : Machine :=
  { m with docs := m.store.insert m.docs (.text key) doc }

@[simp] theorem store_setGlobal (m : Machine) (x : String) (v : Value) :
    (m.setGlobal x v).store = m.store := rfl

@[simp] theorem root_setGlobal (m : Machine) (x : String) (v : Value) :
    (m.setGlobal x v).root = m.root := rfl

@[simp] theorem root_described (m : Machine) (key : String) (doc : Value) :
    (m.described key doc).root = m.root := rfl

@[simp] theorem store_withStore (m : Machine) (st : Store) : (m.withStore st).store = st := rfl

theorem global?_withStore (m : Machine) (st : Store) (y : String) :
    (m.withStore st).global? y = m.global? y := rfl

theorem outermost_withStore (hm : m.scopes.Outermost m.root) (st : Store) :
    (m.withStore st).scopes.Outermost (m.withStore st).root := hm

theorem global?_described (m : Machine) (key : String) (doc : Value) (y : String) :
    (m.described key doc).global? y = m.global? y := rfl

theorem outermost_described (hm : m.scopes.Outermost m.root) (key : String) (doc : Value) :
    (m.described key doc).scopes.Outermost (m.described key doc).root := hm

/-- The machine with a new list of names for a module. -/
def relisted (m : Machine) (name : String) (ids : List String) : Machine :=
  (m.withStore (m.store.push (.list (ids.map Value.text).toArray))).setGlobal name
    (.ref m.store.size)

theorem global?_relisted (hm : m.scopes.Outermost m.root) (name : String) (ids : List String)
    (y : String) : (m.relisted name ids).global? y =
      if name = y then some (.ref m.store.size) else m.global? y :=
  global?_setGlobal (outermost_withStore hm _) name (.ref m.store.size) y

theorem outermost_relisted (hm : m.scopes.Outermost m.root) (name : String) (ids : List String) :
    (m.relisted name ids).scopes.Outermost (m.relisted name ids).root :=
  outermost_setGlobal (outermost_withStore hm _) name _

def ensured (m : Machine) (name : String) : Machine :=
  if (m.global? name).isSome then m else m.relisted name []

def list? (m : Machine) (x : String) : Option (Ref × Array Value) :=
  match m.global? x with
  | some (.ref r) =>
    match m.store[r]? with
    | some (.list items) => some (r, items)
    | _ => none
  | _ => none

/-- A global is a list exactly if it refers to one. -/
theorem list?_eq_some_iff {x : String} {r : Ref} {items : Array Value} :
    m.list? x = some (r, items) ↔
      m.global? x = some (.ref r) ∧ m.store[r]? = some (.list items) := by
  rw [list?]
  constructor
  · intro h
    split at h
    · next r' hvalue =>
      split at h
      · next items' hitems =>
        cases h
        exact ⟨hvalue, hitems⟩
      · cases h
    · cases h
  · rintro ⟨hvalue, hitems⟩
    simp only [hvalue, hitems]

/-- The machine with a member on the list of a module, if it has one. -/
def added (m : Machine) (name : String) (id : Value) : Machine :=
  match m.list? name with
  | some (r, items) =>
    if items.any fun v => m.store.equalItem v id then m
    else (m.withStore (m.store.setIfInBounds r (.list (items.push id)))).setGlobal name (.ref r)
  | none => m

theorem outermost_ensured (hm : m.scopes.Outermost m.root) (name : String) :
    (m.ensured name).scopes.Outermost (m.ensured name).root := by
  rw [ensured]
  split
  · exact hm
  · exact outermost_relisted hm _ _

theorem outermost_added (hm : m.scopes.Outermost m.root) (name : String) (id : Value) :
    (m.added name id).scopes.Outermost (m.added name id).root := by
  rw [added]
  split
  · split
    · exact hm
    · exact outermost_setGlobal hm _ _
  · exact hm

theorem root_ensured (m : Machine) (name : String) : (m.ensured name).root = m.root := by
  rw [ensured]
  split <;> rfl

theorem root_added (m : Machine) (name : String) (id : Value) :
    (m.added name id).root = m.root := by
  rw [added]
  split
  · split <;> rfl
  · rfl

def definedIn (m : Machine) (module id : String) (content doc : Value) : Machine :=
  (((m.ensured module).added module (.text id)).setGlobal (module ++ "." ++ id) content).described
    (module ++ "." ++ id) doc

def definedRoot (m : Machine) (id : String) (content doc : Value) : Machine :=
  let listed := (((m.ensured "root").ensured "@").added "root" (.text id)).added "@" (.text id)
  let bound := ((listed.setGlobal ("root." ++ id) content).setGlobal ("@." ++ id) content).setGlobal
    id content
  (bound.described ("root." ++ id) doc).described ("@." ++ id) doc

theorem root_definedIn (m : Machine) (module id : String) (content doc : Value) :
    (m.definedIn module id content doc).root = m.root := by
  rw [definedIn, root_described, root_setGlobal, root_added, root_ensured]

theorem outermost_definedIn (hm : m.scopes.Outermost m.root) (module id : String)
    (content doc : Value) : (m.definedIn module id content doc).scopes.Outermost
      (m.definedIn module id content doc).root :=
  outermost_described (outermost_setGlobal (outermost_added (outermost_ensured hm _) _ _) _ _) _ _

theorem outermost_definedRoot (hm : m.scopes.Outermost m.root) (id : String)
    (content doc : Value) : (m.definedRoot id content doc).scopes.Outermost
      (m.definedRoot id content doc).root := by
  have hlisted := outermost_added (outermost_added (outermost_ensured (outermost_ensured hm "root")
    "@") "root" (.text id)) "@" (.text id)
  have hbound := outermost_setGlobal (outermost_setGlobal (outermost_setGlobal hlisted
    ("root." ++ id) content) ("@." ++ id) content) id content
  exact outermost_described (outermost_described hbound _ _) _ _

/-! ### Their values -/

/-- A module is made only if there is nothing of its name. -/
theorem global?_ensured (hm : m.scopes.Outermost m.root) (name y : String) :
    (m.ensured name).global? y =
      if name = y ∧ m.global? y = none then some (.ref m.store.size) else m.global? y := by
  rw [ensured]
  by_cases hbound : (m.global? name).isSome
  · rw [if_pos hbound, if_neg]
    rintro ⟨rfl, hnone⟩
    simp [hnone] at hbound
  · have hnone : m.global? name = none := Option.not_isSome_iff_eq_none.1 hbound
    rw [if_neg hbound, global?_relisted hm]
    by_cases hy : name = y
    · subst hy
      rw [if_pos rfl, if_pos ⟨rfl, hnone⟩]
    · rw [if_neg hy, if_neg fun h => hy h.1]

/-- A list that grows is the same list. -/
theorem global?_added (hm : m.scopes.Outermost m.root) (name : String) (id : Value) (y : String) :
    (m.added name id).global? y = m.global? y := by
  rw [added]
  split
  · next r items hlist =>
    split
    · rfl
    · rw [global?_setGlobal (outermost_withStore hm _), global?_withStore]
      split
      · next hy =>
        subst hy
        exact (list?_eq_some_iff.1 hlist).1.symm
      · rfl
  · rfl

/-- A member of a module is a global with a dotted name. -/
theorem global?_definedIn (hm : m.scopes.Outermost m.root) (module id : String)
    (content doc : Value) (y : String) :
    (m.definedIn module id content doc).global? y =
      if module ++ "." ++ id = y then some content else (m.ensured module).global? y := by
  have hensured := outermost_ensured hm module
  rw [definedIn, global?_described, global?_setGlobal (outermost_added hensured _ _),
    global?_added hensured]

/-- A member of the root module is a global under three names. -/
theorem global?_definedRoot (hm : m.scopes.Outermost m.root) (id : String) (content doc : Value)
    (y : String) :
    (m.definedRoot id content doc).global? y =
      if y ∈ [id, "@." ++ id, "root." ++ id] then some content
      else ((m.ensured "root").ensured "@").global? y := by
  have hensured := outermost_ensured (outermost_ensured hm "root") "@"
  have hadded := outermost_added hensured "root" (.text id)
  have hlisted := outermost_added hadded "@" (.text id)
  have hlong := outermost_setGlobal hlisted ("root." ++ id) content
  have hshort := outermost_setGlobal hlong ("@." ++ id) content
  rw [definedRoot, global?_described, global?_described, global?_setGlobal hshort,
    global?_setGlobal hlong, global?_setGlobal hlisted, global?_added hadded,
    global?_added hensured]
  simp only [List.mem_cons, List.not_mem_nil, or_false, eq_comm (a := y)]
  grind

/-! ### Which names are bound -/

theorem isSome_global?_ensured (hm : m.scopes.Outermost m.root) (name y : String) :
    ((m.ensured name).global? y).isSome ↔ y = name ∨ (m.global? y).isSome := by
  rw [global?_ensured hm]
  cases hy : m.global? y with
  | none => by_cases heq : name = y <;> simp [heq, eq_comm]
  | some v => simp

/-- A definition binds the member and its module, and no other name. -/
theorem isSome_global?_definedIn (hm : m.scopes.Outermost m.root) (module id : String)
    (content doc : Value) (y : String) :
    ((m.definedIn module id content doc).global? y).isSome ↔
      y = module ++ "." ++ id ∨ y = module ∨ (m.global? y).isSome := by
  rw [global?_definedIn hm, ← isSome_global?_ensured hm]
  split
  · next hy => simp [hy]
  · next hy => simp [Ne.symm hy]

/-- The same for the root module, which has two names itself. -/
theorem isSome_global?_definedRoot (hm : m.scopes.Outermost m.root) (id : String)
    (content doc : Value) (y : String) :
    ((m.definedRoot id content doc).global? y).isSome ↔
      y ∈ [id, "@." ++ id, "root." ++ id] ∨ y ∈ ["@", "root"] ∨ (m.global? y).isSome := by
  have hensured := isSome_global?_ensured (outermost_ensured hm "root") "@" y
  rw [isSome_global?_ensured hm, ← or_assoc] at hensured
  rw [global?_definedRoot hm]
  split
  · next hy => simp only [hy, true_or, Option.isSome_some]
  · next hy =>
    rw [hensured]
    simp only [hy, false_or, List.mem_cons, List.not_mem_nil, or_false]

end Machine

namespace Exec

open Machine Store

variable {m m' : Machine}

theorem run_ensureModule (hm : m.scopes.Outermost m.root) (name : String) :
    (ensureModule name).run m = (.ok (), m.ensured name) := by
  have hholder : (m.scopes.holder? m.root name).isNone = !(m.global? name).isSome := by
    rw [hm.holder?, Scopes.isSome_flag?, Table.has, ← global?]
    cases (m.global? name).isSome <;> rfl
  rw [ensureModule, run_bind, run_get]
  dsimp only
  rw [hholder, ensured]
  by_cases hbound : (m.global? name).isSome
  · simp only [hbound]
    rfl
  · have hopen : m.scopes.isReadOnly m.root name = false := by
      rw [hm.isReadOnly, Scope.binding?, ← global?, Option.not_isSome_iff_eq_none.1 hbound]
      rfl
    simp only [hbound]
    exact run_assignName (m := { m with store := m.store.push (.list #[]) }) hopen

theorem run_lookup_eq_ok {e : ScopeId} {name : String} {v : Value}
    (hrun : (lookup e name).run m = (.ok v, m')) :
    m' = m ∧ (m.scopes.get? e name).getD .none = v := by
  rw [lookup, run_bind, run_get] at hrun
  dsimp only at hrun
  split at hrun
  · next heq =>
    cases hrun
    exact ⟨rfl, by rw [heq]; rfl⟩
  · next heq =>
    obtain ⟨_, m₁, hreport, hrun⟩ := run_bind_eq_ok.1 hrun
    obtain ⟨host, hhost, rfl⟩ := exists_run_host_eq_ok hreport
    cases run_report_eq_ok hhost
    cases hrun
    exact ⟨rfl, by rw [heq]; rfl⟩

/-- A member is put on the list, or there is no list and that is not told. -/
theorem run_addMember_eq_ok (hm : m.scopes.Outermost m.root) {name : String} {id : Value}
    (hrun : (addMember name id).run m = (.ok (), m')) : m' = m.added name id := by
  rw [addMember, run_bind, run_get] at hrun
  obtain ⟨v, m₁, hlookup, hrun⟩ := run_bind_eq_ok.1 hrun
  obtain ⟨rfl, rfl⟩ := run_lookup_eq_ok hlookup
  rw [run_bind, run_get] at hrun
  dsimp only at hrun
  have hvalue : m₁.scopes.get? m₁.root name = m₁.global? name := hm.get? name
  rw [hvalue] at hrun
  split at hrun
  · next r items hr hitems =>
    have hglobal : m₁.global? name = some (.ref r) := by
      cases hv : m₁.global? name <;> simp_all
    have hlist : m₁.list? name = some (r, items) := by
      rw [hr, list?_ref_eq_some_iff] at hitems
      exact list?_eq_some_iff.2 ⟨hglobal, hitems⟩
    rw [added, hlist]
    dsimp only
    split at hrun
    · next hnew =>
      obtain ⟨_, m₂, hset, hrun⟩ := run_bind_eq_ok.1 hrun
      cases hset
      rw [if_neg (by simpa using hnew), run_assignName_eq_ok hrun, hr]
      rfl
    · next hthere =>
      cases hrun
      rw [if_pos (by simpa using hthere)]
  · next hnone =>
    obtain ⟨host, hhost, rfl⟩ := exists_run_host_eq_ok hrun
    cases run_report_eq_ok hhost
    have hlist : m₁.list? name = none := by
      rw [Option.eq_none_iff_forall_ne_some]
      rintro ⟨r, items⟩ hsome
      obtain ⟨hglobal, hitems⟩ := list?_eq_some_iff.1 hsome
      refine hnone r items (by rw [hglobal]; rfl) ?_
      rwa [hglobal, Option.getD_some, list?_ref_eq_some_iff]
    rw [added, hlist]

theorem run_assignRoot_eq_ok {root : ScopeId} {x : String} {v : Value} {u : Unit}
    (hroot : m.root = root) (hrun : (assignName root x v).run m = (.ok u, m')) :
    m' = m.setGlobal x v ∧ m'.root = root := by
  subst hroot
  have heq := run_assignName_eq_ok hrun
  exact ⟨heq, by rw [heq]⟩

theorem run_setDoc (key : String) (doc : Value) (m : Machine) :
    (liftM (setDoc (.text key) doc) : Exec Unit).run m = (.ok (), m.described key doc) :=
  run_host_of_ok rfl

/-- The machine that a completed definition in a module leaves. -/
theorem run_define_eq_ok (hm : m.scopes.Outermost m.root) {module id : String} {content doc : Value}
    (hroot : isRootModule (.text module) = false)
    (hrun : (define (.text module) (.text id) content doc).run m = (.ok (), m')) :
    m' = m.definedIn module id content doc := by
  rw [define, run_bind, run_get] at hrun
  simp only [hroot] at hrun
  change (ensureModule module >>= _).run m = _ at hrun
  rw [run_bind, run_ensureModule hm] at hrun
  obtain ⟨_, m₁, hadd, hrun⟩ := run_bind_eq_ok.1 hrun
  obtain rfl := run_addMember_eq_ok (outermost_ensured hm module) hadd
  rw [run_bind, run_text_text] at hrun
  obtain ⟨_, m₂, hassign, hrun⟩ := run_bind_eq_ok.1 hrun
  have hroot₁ : ((m.ensured module).added module (.text id)).root = m.root := by
    rw [root_added, root_ensured]
  obtain ⟨rfl, -⟩ := run_assignRoot_eq_ok hroot₁ hassign
  rw [run_setDoc] at hrun
  cases hrun
  rfl

/-- The machine that a completed definition in the root module leaves. -/
theorem run_defineRoot_eq_ok (hm : m.scopes.Outermost m.root) {module id : String}
    {content doc : Value} (hroot : isRootModule (.text module) = true)
    (hrun : (define (.text module) (.text id) content doc).run m = (.ok (), m')) :
    m' = m.definedRoot id content doc := by
  rw [define, run_bind, run_get] at hrun
  simp only [hroot] at hrun
  change (ensureModule "root" >>= _).run m = _ at hrun
  have hm₁ := outermost_ensured hm "root"
  have hm₂ := outermost_ensured hm₁ "@"
  rw [run_bind, run_ensureModule hm] at hrun
  dsimp only at hrun
  rw [run_bind, run_ensureModule hm₁] at hrun
  obtain ⟨_, m₃, hadd, hrun⟩ := run_bind_eq_ok.1 hrun
  have heq₃ := run_addMember_eq_ok hm₂ hadd
  have hm₃ := outermost_added hm₂ "root" (.text id)
  rw [← heq₃] at hm₃
  obtain ⟨_, m₄, hadd', hrun⟩ := run_bind_eq_ok.1 hrun
  have heq₄ := run_addMember_eq_ok hm₃ hadd'
  have hroot₄ : m₄.root = m.root := by
    rw [heq₄, root_added, heq₃, root_added, root_ensured, root_ensured]
  rw [run_bind, run_text_text] at hrun
  obtain ⟨_, m₅, hlong, hrun⟩ := run_bind_eq_ok.1 hrun
  obtain ⟨_, m₆, hshort, hrun⟩ := run_bind_eq_ok.1 hrun
  obtain ⟨_, m₇, hown, hrun⟩ := run_bind_eq_ok.1 hrun
  obtain ⟨heq₅, hroot₅⟩ := run_assignRoot_eq_ok hroot₄ hlong
  obtain ⟨heq₆, hroot₆⟩ := run_assignRoot_eq_ok hroot₅ hshort
  obtain ⟨heq₇, -⟩ := run_assignRoot_eq_ok hroot₆ hown
  rw [run_bind, run_setDoc] at hrun
  dsimp only at hrun
  rw [run_setDoc, Prod.mk.injEq] at hrun
  rw [← hrun.2, heq₇, heq₆, heq₅, heq₄, heq₃]
  rfl

end Exec

end ScriptLang
