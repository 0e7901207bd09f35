import ScriptLang.Proofs.Run.Globals
import ScriptLang.Proofs.Run.Notices
import ScriptLang.Proofs.Scope.Nested

/-!
# Defining the modules of an interpreter

A module is a global list of the names of its members. Defining a member makes the list if there is
none, adds to it, and assigns the member. In an interpreter that has just been started this succeeds
and shows nothing, as long as the global with the name of the module is a list, if there is one.

The members of the root module are globals of their own. One of them has the name of another module,
`import`, and takes the place of its list. So the modules can be enabled once and not twice.
-/

namespace ScriptLang

variable {α β : Type}

namespace Exec

/-- The computation gives a result from a machine, with a property of the result and the machine
that is left. -/
def Reaches (x : Exec α) (m : Machine) (Q : α → Machine → Prop) : Prop :=
  ∃ a m', x.run m = (.ok a, m') ∧ Q a m'

namespace Reaches

variable {m : Machine} {Q : α → Machine → Prop} {R : β → Machine → Prop}

theorem pure {a : α} (h : Q a m) : Reaches (pure a) m Q := ⟨a, m, rfl, h⟩

theorem bind {x : Exec α} {f : α → Exec β} (hx : Reaches x m Q)
    (hf : ∀ a m', Q a m' → Reaches (f a) m' R) : Reaches (x >>= f) m R := by
  obtain ⟨a, m', hrun, hQ⟩ := hx
  obtain ⟨b, m'', hrun', hR⟩ := hf a m' hQ
  exact ⟨b, m'', run_bind_eq_ok.2 ⟨a, m', hrun, hrun'⟩, hR⟩

/-- A step whose result is known. -/
theorem step {x : Exec α} {f : α → Exec β} {a : α} {n : Machine} (hx : x.run m = (.ok a, n))
    (hf : Reaches (f a) n R) : Reaches (x >>= f) m R := by
  obtain ⟨b, m', hrun, hR⟩ := hf
  exact ⟨b, m', run_bind_eq_ok.2 ⟨a, n, hx, hrun⟩, hR⟩

theorem mono {x : Exec α} {Q' : α → Machine → Prop} (hx : Reaches x m Q)
    (h : ∀ a m', Q a m' → Q' a m') : Reaches x m Q' := by
  obtain ⟨a, m', hrun, hQ⟩ := hx
  exact ⟨a, m', hrun, h a m' hQ⟩

end Reaches

end Exec

namespace Machine

/-! ### Globals -/

def IsList (m : Machine) (x : String) : Prop :=
  ∃ r items, m.global? x = some (.ref r) ∧ m.store[r]? = some (.list items)

namespace GlobalsOpen

variable {m : Machine} (hm : m.GlobalsOpen) (x : String)

include hm

theorem get?_root : m.scopes.get? m.root x = m.global? x := hm.outermost.get? x

/-- A global is found in the outermost scope or nowhere. -/
theorem holder?_root : m.scopes.holder? m.root x =
    if (m.global? x).isSome then some m.root else none := by
  rw [hm.outermost.holder?, Scopes.isSome_flag?]
  rfl

theorem isReadOnly_root : m.scopes.isReadOnly m.root x = false := by
  rw [hm.outermost.isReadOnly, Scope.binding?, hm.writable]
  cases (m.scopes.scope m.root).vars.get? x <;> rfl

theorem global?_assign (v : Value) (y : String) :
    global? { m with scopes := m.scopes.assign m.root x v } y =
      if x = y then some v else m.global? y := hm.outermost.get?_vars_assign x v y

end GlobalsOpen

/-- The globals while modules are being defined. Nothing was shown since the start. The globals of
`lists` are lists, as far as they are bound; those of `kept` have their values, and those of `bound`
have some value. -/
structure Furnished (start : Machine) (lists : List String) (kept : List (String × Value))
    (bound : List String) (m : Machine) : Prop where
  globalsOpen : m.GlobalsOpen
  root : m.root = start.root
  events : m.world.events = start.world.events
  level : m.level = start.level
  lists : ∀ x ∈ lists, m.global? x = none ∨ m.IsList x
  kept : ∀ x v, (x, v) ∈ kept → m.global? x = some v
  bound : ∀ x ∈ bound, (m.global? x).isSome

namespace Furnished

variable {start m : Machine} {lists bound : List String} {kept : List (String × Value)}
  (hm : start.Furnished lists kept bound m)

include hm

/-- A bound name among the lists is a list. -/
theorem isList {x : String} (hx : x ∈ lists) (hbound : x ∈ bound) : m.IsList x := by
  refine (hm.lists x hx).resolve_left fun hnone => ?_
  have hsome := hm.bound x hbound
  rw [hnone] at hsome
  cases hsome

theorem forget : start.Furnished lists kept [] m := { hm with bound := fun _ h => nomatch h }

theorem mono {lists' : List String} (h : lists' ⊆ lists) : start.Furnished lists' kept bound m :=
  { hm with lists := fun x hx => hm.lists x (h hx) }

theorem keep {x : String} {v : Value} (h : m.global? x = some v) :
    start.Furnished lists ((x, v) :: kept) bound m := by
  refine { hm with kept := fun y w hy => ?_ }
  obtain heq | hy := List.mem_cons.1 hy
  · cases heq
    exact h
  · exact hm.kept y w hy

/-- Lists may grow, and other objects may be made. -/
theorem setStore {st : Store} (hst : ∀ (r : Ref) (items : Array Value),
      m.store[r]? = some (.list items) → ∃ items', st[r]? = some (.list items')) :
    start.Furnished lists kept bound { m with store := st } where
  globalsOpen := ⟨hm.globalsOpen.outermost, hm.globalsOpen.writable⟩
  root := hm.root
  events := hm.events
  level := hm.level
  lists x hx := by
    refine (hm.lists x hx).imp_right fun ⟨r, items, hvalue, hitems⟩ => ?_
    obtain ⟨items', hitems'⟩ := hst r items hitems
    exact ⟨r, items', hvalue, hitems'⟩
  kept := hm.kept
  bound := hm.bound

/-- A global may be assigned, unless its value is kept; one of the lists only to a list. -/
theorem assign {x : String} (hkept : x ∉ kept.map Prod.fst) {v : Value}
    (hlist : x ∈ lists → ∃ r items, v = .ref r ∧ m.store[r]? = some (.list items)) :
    start.Furnished lists kept (x :: bound) { m with scopes := m.scopes.assign m.root x v } where
  globalsOpen := hm.globalsOpen.assign m.root x v
  root := hm.root
  events := hm.events
  level := hm.level
  lists y hy := by
    by_cases hxy : x = y
    · subst hxy
      obtain ⟨r, items, rfl, hitems⟩ := hlist hy
      refine .inr ⟨r, items, ?_, hitems⟩
      rw [hm.globalsOpen.global?_assign, if_pos rfl]
    · simp only [IsList, hm.globalsOpen.global?_assign, if_neg hxy]
      exact hm.lists y hy
  kept y w hy := by
    have hxy : x ≠ y := by
      rintro rfl
      exact hkept (List.mem_map_of_mem hy)
    rw [hm.globalsOpen.global?_assign, if_neg hxy]
    exact hm.kept y w hy
  bound y hy := by
    rw [hm.globalsOpen.global?_assign]
    split
    · rfl
    · next hxy =>
      obtain rfl | hy := List.mem_cons.1 hy
      · exact absurd rfl hxy
      · exact hm.bound y hy

end Furnished

end Machine

namespace Exec

open Machine

variable {start m : Machine} {lists bound : List String} {kept : List (String × Value)}

/-! ### Defining a member -/

/-- Assigning a list to a list, or anything to another name, keeps the modules furnished. -/
theorem furnished_assignName (hm : start.Furnished lists kept bound m) {x : String}
    (hkept : x ∉ kept.map Prod.fst) {v : Value}
    (hlist : x ∈ lists → ∃ r items, v = .ref r ∧ m.store[r]? = some (.list items)) :
    Reaches (assignName start.root x v) m fun _ m' =>
      start.Furnished lists kept (x :: bound) m' ∧ m'.global? x = some v := by
  rw [← hm.root]
  refine ⟨(), _, run_assignName (hm.globalsOpen.isReadOnly_root x), hm.assign hkept hlist, ?_⟩
  rw [hm.globalsOpen.global?_assign, if_pos rfl]

/-- A module is made if there is none. -/
theorem furnished_ensureModule (hm : start.Furnished lists kept bound m) {name : String}
    (hkept : name ∉ kept.map Prod.fst) :
    Reaches (ensureModule name) m fun _ m' => start.Furnished lists kept (name :: bound) m' := by
  refine .step (run_get m) ?_
  rw [hm.globalsOpen.holder?_root, hm.root]
  by_cases hbound : (m.global? name).isSome
  · rw [if_pos hbound]
    refine .pure { hm with bound := ?_ }
    exact List.forall_mem_cons.2 ⟨hbound, hm.bound⟩
  · rw [if_neg hbound]
    have hst : ∀ (r : Ref) (items : Array Value), m.store[r]? = some (.list items) →
        ∃ items', (m.store.push (.list #[]))[r]? = some (.list items') := by
      intro r items hitems
      obtain ⟨hr, -⟩ := Array.getElem?_eq_some_iff.1 hitems
      refine ⟨items, ?_⟩
      rw [Array.getElem?_push_lt hr, ← hitems, Array.getElem?_eq_getElem hr]
    have hempty : (liftM (newList []) : Exec Value).run m =
        (.ok (.ref m.store.size), { m with store := m.store.push (.list #[]) }) := rfl
    refine .step hempty ((furnished_assignName (hm.setStore hst) hkept fun _ => ?_).mono
      fun _ _ h => h.1)
    exact ⟨m.store.size, #[], rfl, Array.getElem?_push_size⟩

/-- A member is added to a module, unless it is there. -/
theorem furnished_addMember (hm : start.Furnished lists kept bound m) {name : String}
    (hlists : name ∈ lists) (hbound : name ∈ bound) (hkept : name ∉ kept.map Prod.fst)
    (id : Value) :
    Reaches (addMember name id) m fun _ m' => start.Furnished lists kept bound m' := by
  obtain ⟨r, items, hvalue, hitems⟩ := hm.isList hlists hbound
  have hlookup : (lookup start.root name).run m = (.ok (.ref r), m) := by
    rw [lookup, run_bind, run_get]
    dsimp only
    rw [← hm.root, hm.globalsOpen.get?_root, hvalue]
    rfl
  have hlist : m.store.list? (.ref r) = some items := by
    simp [Store.list?, Store.ofValue?, hitems]
  refine .step (run_get m) ?_
  rw [hm.root]
  refine .step hlookup (.step (run_get m) ?_)
  dsimp only
  rw [hlist]
  dsimp only
  split
  · have hst : ∀ (r' : Ref) (items' : Array Value), m.store[r']? = some (.list items') →
        ∃ items'', (m.store.setIfInBounds r (.list (items.push id)))[r']? =
          some (.list items'') := by
      intro r' items' hitems'
      obtain ⟨hr', -⟩ := Array.getElem?_eq_some_iff.1 hitems'
      rw [Array.getElem?_setIfInBounds]
      split
      · next heq =>
        subst heq
        exact ⟨items.push id, if_pos hr'⟩
      · exact ⟨items', hitems'⟩
    have hpush : (liftM (setObj r (.list (items.push id))) : Exec Unit).run m =
        (.ok (), { m with store := m.store.setIfInBounds r (.list (items.push id)) }) := rfl
    refine .step hpush ((furnished_assignName (hm.setStore hst) hkept fun _ => ?_).mono
      fun _ _ h => { h.1 with bound := fun x hx => h.1.bound x (List.mem_cons_of_mem _ hx) })
    obtain ⟨items', hitems'⟩ := hst r items hitems
    exact ⟨r, items', rfl, hitems'⟩
  · exact .pure hm

theorem run_text_text (s : String) (m : Machine) :
    (liftM (text (.text s)) : Exec String).run m = (.ok s, m) := by
  have htext : m.store.text m.reader (.text s) = .ok s := by
    simp [Store.text, Store.depthBound, Store.textWithin]
  exact run_host_of_ok (HostExec.run_text htext)

/-- Descriptions are apart from the globals. -/
theorem furnished_setDoc (hm : start.Furnished lists kept bound m) (key : String) (doc : Value) :
    Reaches (liftM (setDoc (.text key) doc) : Exec Unit) m fun _ m' =>
      start.Furnished lists kept bound m' ∧ m'.global? = m.global? := by
  have hrun : (setDoc (.text key) doc).run m.toHost =
      (.ok (), { m.toHost with docs := m.store.insert m.docs (.text key) doc }) := rfl
  refine ⟨(), _, run_host_of_ok hrun, ?_, rfl⟩
  exact { hm with globalsOpen := ⟨hm.globalsOpen.outermost, hm.globalsOpen.writable⟩ }

def IsFree (lists : List String) (kept : List (String × Value)) (x : String) : Prop :=
  x ∉ lists ∧ x ∉ kept.map Prod.fst

theorem furnished_assignFree (hm : start.Furnished lists kept bound m) {x : String}
    (hx : IsFree lists kept x) (v : Value) :
    Reaches (assignName start.root x v) m fun _ m' =>
      start.Furnished lists kept bound m' ∧ m'.global? x = some v := by
  refine (furnished_assignName hm hx.2 fun h => absurd h hx.1).mono fun _ m' hm' => ⟨?_, hm'.2⟩
  exact { hm'.1 with bound := fun y hy => hm'.1.bound y (List.mem_cons_of_mem x hy) }

/-- A member of the root module is a global by its own name as well. -/
theorem furnished_defineRoot (hm : start.Furnished lists kept [] m)
    (hmodules : ∀ x ∈ ["root", "@"], x ∈ lists ∧ x ∉ kept.map Prod.fst) {id : String}
    (hnames : ∀ x ∈ ["root." ++ id, "@." ++ id, id], IsFree lists kept x) (content doc : Value) :
    Reaches (define (.text "@") (.text id) content doc) m fun _ m' =>
      start.Furnished lists kept [] m' ∧ m'.global? id = some content := by
  simp only [List.forall_mem_cons, List.not_mem_nil, false_implies, implies_true, and_true]
    at hmodules hnames
  obtain ⟨⟨hroot, hroot'⟩, hat, hat'⟩ := hmodules
  obtain ⟨hlong, hshort, hown⟩ := hnames
  refine .step (run_get m) ?_
  rw [hm.root]
  change Reaches (ensureModule "root" >>= _) m _
  refine (furnished_ensureModule hm hroot').bind fun _ m₁ hm₁ => ?_
  refine (furnished_ensureModule hm₁ hat').bind fun _ m₂ hm₂ => ?_
  refine (furnished_addMember hm₂ hroot (by simp) hroot' _).bind fun _ m₃ hm₃ => ?_
  refine (furnished_addMember hm₃ hat (by simp) hat' _).bind fun _ m₄ hm₄ => ?_
  refine .step (run_text_text id m₄) ?_
  refine (furnished_assignFree hm₄ hlong content).bind fun _ m₅ hm₅ => ?_
  refine (furnished_assignFree hm₅.1 hshort content).bind fun _ m₆ hm₆ => ?_
  refine (furnished_assignFree hm₆.1 hown content).bind fun _ m₇ hm₇ => ?_
  refine (furnished_setDoc hm₇.1 _ doc).bind fun _ m₈ hm₈ => ?_
  refine (furnished_setDoc hm₈.1 _ doc).mono fun _ m₉ hm₉ => ⟨hm₉.1.forget, ?_⟩
  rw [hm₉.2, hm₈.2, hm₇.2]

/-- A member of a module that is a list is defined. -/
theorem furnished_defineIn (hm : start.Furnished lists kept [] m) {module : String}
    (hmodule : module ∈ lists) (hmodule' : module ∉ kept.map Prod.fst)
    (hroot : isRootModule (.text module) = false) {id : String}
    (hname : IsFree lists kept (module ++ "." ++ id)) (content doc : Value) :
    Reaches (define (.text module) (.text id) content doc) m fun _ m' =>
      start.Furnished lists kept [] m' := by
  refine .step (run_get m) ?_
  rw [hm.root]
  simp only [hroot]
  change Reaches (ensureModule module >>= _) m _
  refine (furnished_ensureModule hm hmodule').bind fun _ m₁ hm₁ => ?_
  refine (furnished_addMember hm₁ hmodule (by simp) hmodule' _).bind fun _ m₂ hm₂ => ?_
  refine .step (run_text_text id m₂) ?_
  refine (furnished_assignFree hm₂ hname content).bind fun _ m₃ hm₃ => ?_
  exact (furnished_setDoc hm₃.1 _ doc).mono fun _ m₄ hm₄ => hm₄.1.forget

/-! ### Defining the members of modules -/

/-- A member can be defined next to given lists and given other globals. -/
def Fits (lists kept : List String) (module id : String) : Prop :=
  if module = "@" then
    (∀ x ∈ ["root", "@"], x ∈ lists ∧ x ∉ kept) ∧
      ∀ x ∈ ["root." ++ id, "@." ++ id, id], x ∉ lists ∧ x ∉ kept
  else
    module ≠ "root" ∧ (module ∈ lists ∧ module ∉ kept) ∧
      module ++ "." ++ id ∉ lists ∧ module ++ "." ++ id ∉ kept

instance (lists kept : List String) (module id : String) :
    Decidable (Fits lists kept module id) := by
  unfold Fits
  infer_instance

/-- A member that fits is defined, and all that was furnished stays so. -/
theorem furnished_define (hm : start.Furnished lists kept [] m) {module id : String}
    (hfits : Fits lists (kept.map Prod.fst) module id) (content doc : Value) :
    Reaches (define (.text module) (.text id) content doc) m fun _ m' =>
      start.Furnished lists kept [] m' := by
  unfold Fits at hfits
  split at hfits
  · next hroot =>
    subst hroot
    exact (furnished_defineRoot hm hfits.1 hfits.2 content doc).mono fun _ _ h => h.1
  · next hroot =>
    obtain ⟨hother, hmodule, hname⟩ := hfits
    exact furnished_defineIn hm hmodule.1 hmodule.2 (by simp [isRootModule, hroot, hother]) hname
      content doc

def names (ds : List Definition) : List (String × String) := ds.map fun d => (d.module, d.id)

theorem defineAll_cons (d : Definition) (ds : List Definition) : defineAll (d :: ds) = (do
    define (.text d.module) (.text d.id) d.content (d.doc.elim .none Value.text)
    defineAll ds) := by
  simp [defineAll]

/-- By induction on the definitions: each of them fits. -/
theorem furnished_defineAll {ds : List Definition} (hm : start.Furnished lists kept [] m)
    (hfits : ∀ d ∈ names ds, Fits lists (kept.map Prod.fst) d.1 d.2) :
    Reaches (defineAll ds) m fun _ m' => start.Furnished lists kept [] m' := by
  induction ds generalizing m with
  | nil => exact .pure hm
  | cons d ds ih =>
    rw [names, List.map_cons, List.forall_mem_cons] at hfits
    rw [defineAll_cons]
    exact (furnished_define hm hfits.1 _ _).bind fun _ m' hm' => ih hm' hfits.2

/-! ### Enabling the default modules -/

/-- The modules that an interpreter starts with, besides `import`. -/
def moduleNames : List String := ["root", "@", "standard", "ypsh", "docs"]

/-- The lists and the other globals that the members must fit: at first `import` is a list too, and
later it is not. -/
def phases : List (List String × List String) :=
  [("import" :: moduleNames, []), (moduleNames, ["import"])]

theorem fits_core : ∀ p ∈ phases, ∀ d ∈ names Definition.core, Fits p.1 p.2 d.1 d.2 := by decide

/-- The settings are values of members, not names. -/
theorem names_extra (options : Table Value) (optionsDict : Value) :
    names (Definition.extra options optionsDict) = names (Definition.extra [] .none) := rfl

theorem fits_extra (options : Table Value) (optionsDict : Value) : ∀ p ∈ phases,
    ∀ d ∈ names (Definition.extra options optionsDict), Fits p.1 p.2 d.1 d.2 := by
  rw [names_extra]
  decide

theorem fits_environment :
    ∀ p ∈ phases, ∀ d ∈ names Definition.environment, Fits p.1 p.2 d.1 d.2 := by decide

def prelude : Exec Unit := do
  defineAll Definition.core
  enableExtra
  enableEnvironment
  modifyHost fun h => { h with searches := [] }

def addSearchPaths (paths : List String) : Exec Unit := do
  for p in paths do addSearchPath p

/-- The default modules in two parts: before the search paths of imports and after them. -/
theorem enable_default : enable .default = (do
    prelude
    defineAll Definition.searchPaths
    let paths ← extraPaths
    addSearchPaths paths
    defineAll Definition.imports
    defineAll Definition.docs) := by
  simp [enable, enableImports, prelude, addSearchPaths]

/-- All that comes before the search paths is defined. -/
theorem furnished_prelude (hm : start.Furnished lists kept [] m)
    (hphase : (lists, kept.map Prod.fst) ∈ phases) :
    Reaches prelude m fun _ m' => start.Furnished lists kept [] m' := by
  refine (furnished_defineAll hm (fits_core _ hphase)).bind fun _ m₁ hm₁ => ?_
  refine .bind (Q := fun _ m' => start.Furnished lists kept [] m') ?_ fun _ m₂ hm₂ => ?_
  · exact .step (run_get m₁) (furnished_defineAll hm₁ (fits_extra _ _ _ hphase))
  refine (furnished_defineAll hm₂ (fits_environment _ hphase)).bind fun _ m₃ hm₃ => ?_
  exact ⟨(), { m₃ with searches := [] }, rfl,
    { hm₃ with globalsOpen := ⟨hm₃.globalsOpen.outermost, hm₃.globalsOpen.writable⟩ }⟩

/-- A search path is added silently. -/
theorem run_addSearchPath (p : String) (m : Machine) : ∃ world,
    (liftM (addSearchPath p) : Exec Unit).run m = (.ok (), { m with world }) ∧
      world.events = m.world.events := by
  let world := if (Path.expand m.world.environment p).isEmpty ||
      m.world.searchPath.contains (Path.expand m.world.environment p) then m.world
    else { m.world with searchPath := Path.expand m.world.environment p :: m.world.searchPath }
  refine ⟨world, rfl, ?_⟩
  dsimp only [world]
  split <;> rfl

theorem addSearchPaths_cons (p : String) (paths : List String) : addSearchPaths (p :: paths) = (do
    addSearchPath p
    addSearchPaths paths) := by simp [addSearchPaths]

/-- Adding search paths keeps the modules furnished. -/
theorem furnished_addSearchPaths (hm : start.Furnished lists kept [] m) (paths : List String) :
    Reaches (addSearchPaths paths) m fun _ m' => start.Furnished lists kept [] m' := by
  induction paths generalizing m with
  | nil => exact .pure hm
  | cons p paths ih =>
    obtain ⟨world, hrun, hevents⟩ := run_addSearchPath p m
    rw [addSearchPaths_cons]
    refine .step hrun (ih { hm with globalsOpen := ?_, events := hevents.trans hm.events })
    exact ⟨hm.globalsOpen.outermost, hm.globalsOpen.writable⟩

/-- The first time, all modules are enabled; then `import` is a function. -/
theorem furnished_enable (hm : start.Furnished ("import" :: moduleNames) [] [] m) :
    Reaches (enable .default) m fun _ m' =>
      start.Furnished moduleNames [("import", .builtin .importLibrary)] [] m' := by
  rw [enable_default]
  refine (furnished_prelude hm (by decide)).bind fun _ m₁ hm₁ => ?_
  refine (furnished_defineAll hm₁ (by decide)).bind fun _ m₂ hm₂ => ?_
  refine .step (n := m₂) (run_host_of_ok rfl) ?_
  refine (furnished_addSearchPaths hm₂ _).bind fun _ m₃ hm₃ => ?_
  refine .bind (Q := fun _ m' =>
    start.Furnished moduleNames [("import", .builtin .importLibrary)] [] m') ?_ fun _ m₄ hm₄ => ?_
  · rw [Definition.imports, defineAll_cons]
    refine (furnished_define hm₃ (by decide) _ _).bind fun _ m₄ hm₄ => ?_
    rw [defineAll_cons]
    have hrest := hm₄.mono (List.subset_cons_self "import" moduleNames)
    refine (furnished_defineRoot hrest (by decide) (by simp [IsFree]; decide) _ _).bind
      fun _ m₅ hm₅ => ?_
    exact .pure (hm₅.1.keep hm₅.2)
  · exact furnished_defineAll hm₄ (by decide)

/-- A member is not defined in a module whose place a function has taken. -/
theorem run_define_notAList (hm : start.Furnished lists kept bound m) {module : String}
    {f : Builtin} (hmodule : m.global? module = some (.builtin f))
    (hroot : isRootModule (.text module) = false) (hquiet : start.isQuiet = false)
    (id content doc : Value) :
    (define (.text module) id content doc).run m = (.error (.exit (.int 1)),
      { m with world := m.world.emit ((Notice.notAList module).event m.reader) }) := by
  have hloud : m.isQuiet = false := by
    have hlevel := hm.level
    simp only [isQuiet, Host.isQuiet] at hquiet ⊢
    rwa [hlevel]
  have hensure : (ensureModule module).run m = (.ok (), m) := by
    rw [ensureModule, run_bind, run_get]
    dsimp only
    rw [hm.globalsOpen.holder?_root, hmodule]
    rfl
  have hlookup : (lookup m.root module).run m = (.ok (.builtin f), m) := by
    rw [lookup, run_bind, run_get]
    dsimp only
    rw [hm.globalsOpen.get?_root, hmodule]
    rfl
  have hadd : (addMember module id).run m = (.error (.exit (.int 1)),
      { m with world := m.world.emit ((Notice.notAList module).event m.reader) }) := by
    rw [addMember, run_bind, run_get]
    dsimp only
    rw [run_bind, hlookup]
    dsimp only
    rw [run_bind, run_get]
    dsimp only
    rw [run_host, run_report_shown hloud]
    rfl
  rw [define, run_bind, run_get]
  simp only [hroot]
  change (ensureModule module >>= _).run m = _
  rw [run_bind, hensure]
  dsimp only
  rw [run_bind, hadd]

/-- The second time, `import` is found not to be a list. -/
theorem run_enable_again
    (hm : start.Furnished moduleNames [("import", .builtin .importLibrary)] [] m)
    (hquiet : start.isQuiet = false) : ∃ m' reader,
    (enable .default).run m = (.error (.exit (.int 1)), m') ∧
      m'.world.events = (Notice.notAList "import").event reader :: start.world.events := by
  obtain ⟨_, m₁, hprelude, hm₁⟩ := furnished_prelude hm (by decide)
  have himport : m₁.global? "import" = some (.builtin .importLibrary) :=
    hm₁.kept _ _ List.mem_cons_self
  let notice := (Notice.notAList "import").event m₁.reader
  refine ⟨{ m₁ with world := m₁.world.emit notice }, m₁.reader, ?_,
    congrArg (notice :: ·) hm₁.events⟩
  rw [enable_default, run_bind, hprelude]
  dsimp only
  rw [run_bind, Definition.searchPaths, defineAll_cons, run_bind,
    run_define_notAList hm₁ himport (by decide) hquiet]

/-! ### Starting an interpreter -/

/-- An interpreter that has just been started has its modules, and nothing was shown. -/
theorem furnished_startInterpreter (m : Machine) : ∃ start : Machine,
    start.world.events = m.world.events ∧ start.level = m.level ∧
    Reaches startInterpreter m fun _ m' =>
      start.Furnished moduleNames [("import", .builtin .importLibrary)] [] m' := by
  let start : Machine := { m with scopes := (m.scopes.new none).2, root := m.scopes.size }
  have hempty (x : String) : start.global? x = none := by
    simp [start, global?, Scopes.scope_new, Table.get?]
  have hopen : start.GlobalsOpen := by
    refine ⟨⟨by simp [start], ?_⟩, fun x => ?_⟩ <;>
      simp [start, Scopes.scope_new, Scope.isReadOnly, Table.get?]
  have hstart : start.Furnished ("import" :: moduleNames) [] [] start :=
    ⟨hopen, rfl, rfl, rfl, fun x _ => .inl (hempty x),
      fun _ _ h => absurd h List.not_mem_nil, fun _ h => absurd h List.not_mem_nil⟩
  refine ⟨start, rfl, rfl, ?_⟩
  have hrestart : Reaches (restart .default) m fun _ m' =>
      start.Furnished moduleNames [("import", .builtin .importLibrary)] [] m' := by
    refine .step (run_newScope none m) (.step (n := start) rfl ?_)
    exact furnished_enable hstart
  refine hrestart.bind fun _ m' hm' => ⟨(), { m' with current := m'.root }, rfl, ?_⟩
  exact { hm' with globalsOpen := ⟨hm'.globalsOpen.outermost, hm'.globalsOpen.writable⟩ }

end Exec

end ScriptLang
