import ScriptLang.Proofs.Run.Interpreter
import ScriptLang.Proofs.Run.Pure
import ScriptLang.Proofs.Run.Settle

/-!
# Imports under another name

An import under another name runs a library in the globals and sorts out the names that are new. If
the library only declares names, without calls in their values, then it changes these names and no
others. So the import is confined to its alias exactly if none of the names was there before, but
for coincidences: a name that was there has the value that the library gives it, and is no member of
the alias.
-/

namespace ScriptLang

/-! ### Libraries that declare names -/

inductive Node.IsDeclaration : Node → Prop where
  | value (x : String) (expr : Node) {b : Binding} : b.declare = true →
      IsDeclaration (.assign (some x) expr .absent b)
  | func (x : String) (params : List (String × String × Node)) (returns : String)
      (body : List Node) : IsDeclaration (.func x params returns body)

def Node.binds : Node → List String
  | .assign (some x) .. => if x = "_" then [] else [x]
  | .func x .. => [x]
  | _ => []

def boundNames (nodes : List Node) : List String := nodes.flatMap Node.binds

/-- The value that is declared, if there is one, is found without calls. -/
def Node.IsQuiet : Node → Prop
  | .assign _ expr .. => expr.Inert
  | _ => True

namespace Scopes

variable {α : Type} {e : ScopeId} {ss : Scopes α}

/-- In an outermost scope, a declaration binds the name in that scope. -/
theorem Outermost.get?_vars_declare (h : Outermost e ss) (x : String) (v : α)
    (readOnly forceGlobal forceLocal : Bool) (y : String) :
    ((ss.declare e x v readOnly forceGlobal forceLocal).scope e).vars.get? y =
      if x = y then some v else (ss.scope e).vars.get? y := by
  have hupdate (noted : Bool) :
      ((ss.update e fun s => s.bind x v readOnly noted).scope e).vars.get? y =
        if x = y then some v else (ss.scope e).vars.get? y := by
    rw [scope_update, if_pos ⟨rfl, h.lt_size⟩, Scope.bind_eq, Table.get?_set]
  rw [Scopes.declare]
  split
  · rw [h.root]
    exact hupdate _
  · split
    · exact hupdate _
    · rw [bindHome, h.home]
      exact hupdate _

theorem Outermost.dropNearest (h : Outermost e ss) (x : String) :
    Outermost e (ss.dropNearest e x) := by
  rw [Scopes.dropNearest]
  split
  · exact h.unset _ x
  · exact h

theorem get?_vars_dropNearest {x y : String} (hxy : x ≠ y) :
    ((ss.dropNearest e x).scope e).vars.get? y = (ss.scope e).vars.get? y := by
  rw [← Scope.map_fst_binding?, binding?_dropNearest, if_neg fun h => hxy h.2,
    Scope.map_fst_binding?]

end Scopes

namespace Machine

/-- The second machine binds the names `N`, and has the other globals of the first one. -/
structure Binds (N : List String) (m m' : Machine) : Prop where
  root : m'.root = m.root
  bound : ∀ n ∈ N, (m'.global? n).isSome
  others : ∀ x ∉ N, m'.global? x = m.global? x

variable {N N' : List String} {m m₁ m' : Machine}

theorem Binds.of_scopes_eq (hscopes : m'.scopes = m.scopes) (hroot : m'.root = m.root) :
    Binds [] m m' :=
  ⟨hroot, List.forall_mem_nil _, fun x _ => by rw [global?, global?, hscopes, hroot]⟩

theorem Binds.trans (h : Binds N m m₁) (h' : Binds N' m₁ m') : Binds (N ++ N') m m' := by
  refine ⟨h'.root.trans h.root, fun n hn => ?_, fun x hx => ?_⟩
  · by_cases hn' : n ∈ N'
    · exact h'.bound n hn'
    · rw [h'.others n hn']
      exact h.bound n ((List.mem_append.1 hn).resolve_right hn')
  · rw [List.mem_append, not_or] at hx
    rw [h'.others x hx.2, h.others x hx.1]

theorem Binds.of_global?_eq {x : String} {v : Value} (hroot : m'.root = m.root)
    (hglobal : ∀ y, m'.global? y = if x = y then some v else m.global? y) : Binds [x] m m' := by
  refine ⟨hroot, ?_, fun y hy => ?_⟩
  · rw [List.forall_mem_singleton, hglobal, if_pos rfl]
    rfl
  · rw [hglobal, if_neg fun hxy => hy (List.mem_singleton.2 hxy.symm)]

/-! ### Confinement -/

variable {A : String} {wanted : String → Prop}

def Fresh (m m₁ : Machine) (n : String) : Prop := m.global? n = none ∧ (m₁.global? n).isSome

/-- The import of a library that binds the names `N` is confined to its alias `A`. What was there
has kept its value, no name of the library is new, and those that are wanted, and no others, have
become members of the alias, with the values that they have after the library has run. -/
structure KeptApart (A : String) (N : List String) (wanted : String → Prop) (m m₁ m' : Machine) :
    Prop where
  kept : ∀ x, (m.global? x).isSome → x ≠ A → (∀ k, x ≠ A ++ "." ++ k) → m'.global? x = m.global? x
  unbound : ∀ n ∈ N, m.global? n = none → m'.global? n = none
  members : ∀ n ∈ N, wanted n → m'.global? (A ++ "." ++ n) = m₁.global? n
  others : ∀ n ∈ N, ¬ wanted n → m'.global? (A ++ "." ++ n) = m.global? (A ++ "." ++ n)

namespace Imported

variable (h : Imported A (Fresh m m₁) wanted m₁ m')

include h

/-- What was there before has the value that the library leaves it. -/
theorem global?_of_bound {x : String} (hx : (m.global? x).isSome) (hA : x ≠ A)
    (hnames : ∀ k, x ≠ A ++ "." ++ k) : m'.global? x = m₁.global? x := by
  refine h.others x (fun hfresh => ?_) hA fun k _ _ => hnames k
  rw [hfresh.1] at hx
  cases hx

/-- A name of the library that was there before, or is not wanted, becomes no member. -/
theorem global?_dotted (hbinds : Binds N m m₁) {n : String}
    (hnew : A ++ "." ++ n ∉ N) (hn : (m.global? n).isSome ∨ ¬ wanted n) :
    m'.global? (A ++ "." ++ n) = m.global? (A ++ "." ++ n) := by
  have hsame := hbinds.others _ hnew
  rw [← hsame]
  refine h.others _ (fun hfresh => ?_) (dotted_ne_module A n) fun k hk hwanted heq => ?_
  · rw [Fresh, hsame] at hfresh
    rw [hfresh.1] at hfresh
    cases hfresh.2
  · obtain rfl := dotted_right_inj.1 heq
    obtain hn | hn := hn
    · rw [hk.1] at hn
      cases hn
    · exact hn hwanted

/-- The import is confined to its alias exactly if the names that were bound before kept their
values, and the wanted ones among them were members with these values. -/
theorem keptApart_iff (hbinds : Binds N m m₁) (hA : A ∉ N)
    (hplain : ∀ n ∈ N, ∀ k, n ≠ A ++ "." ++ k) :
    KeptApart A N wanted m m₁ m' ↔ ∀ n ∈ N, (m.global? n).isSome →
      m₁.global? n = m.global? n ∧ (wanted n → m.global? (A ++ "." ++ n) = m₁.global? n) := by
  -- no member of the alias is a name of the library, so it is new only if it has been moved
  have hnew (n : String) : A ++ "." ++ n ∉ N := fun hin => hplain _ hin n rfl
  have hne {n : String} (hn : n ∈ N) : n ≠ A := fun heq => hA (heq ▸ hn)
  constructor
  · intro hapart n hn hbound
    refine ⟨?_, fun hwanted => ?_⟩
    · rw [← h.global?_of_bound hbound (hne hn) (hplain n hn)]
      exact hapart.kept n hbound (hne hn) (hplain n hn)
    · rw [← h.global?_dotted hbinds (hnew n) (.inl hbound)]
      exact hapart.members n hn hwanted
  · intro hnames
    refine ⟨fun x hx hxA hdotted => ?_, fun n hn hnone => ?_, fun n hn hwanted => ?_,
      fun n hn hwanted => h.global?_dotted hbinds (hnew n) (.inr hwanted)⟩
    · rw [h.global?_of_bound hx hxA hdotted]
      by_cases hN : x ∈ N
      · exact (hnames x hN hx).1
      · exact hbinds.others x hN
    · exact h.gone n ⟨hnone, hbinds.bound n hn⟩
    · cases hn' : m.global? n with
      | none => exact h.moved n ⟨hn', hbinds.bound n hn⟩ hwanted
      | some w =>
        have hbound : (m.global? n).isSome := by simp [hn']
        rw [h.global?_dotted hbinds (hnew n) (.inl hbound)]
        exact (hnames n hn hbound).2 hwanted

end Imported

/-! ### Requests -/

/-- Whether a list of names asks for a name. Without a list, and with an empty one, all names are
asked for. -/
def Asked (only : Option (List Value)) (n : String) : Prop :=
  ∀ names, only = some names → names ≠ [] → .text n ∈ names

def libraryFile? (m : Machine) (lib : String) : Option String :=
  match m.world.source? lib with
  | some (.program path) => some path
  | some _ => none
  | none => (m.searches.get? (lib ++ ".ypsh")).getD (m.world.deepFile? (lib ++ ".ypsh"))

/-- The argument of an import is a dictionary that asks for a library as the module `A`, perhaps for
some names of it only. The library is a text that spells the statements `nodes`. -/
def Asks (m : Machine) (spec : Value) (A : String) (only : Option (List Value))
    (nodes : List Node) : Prop :=
  ∃ entries lib path code, m.store.dict? spec = some entries ∧
    m.store.lookup entries (.text "lib") = some (.text lib) ∧ lib ≠ "" ∧
    m.store.lookup entries (.text "as") = some (.text A) ∧
    ((m.store.lookup entries (.text "in")).bind m.store.list?).map Array.toList = only ∧
    m.libraryFile? lib = some path ∧ m.world.files.text? (m.world.resolve path) = some code ∧
    parseProgram m.isQuiet code = .ok nodes

end Machine

namespace Exec

open Machine

variable {depth : Nat} {m m₁ m' : Machine} {v : Value}

/-- A declaration among the globals binds its name, and the others are as before. -/
theorem global?_of_redeclare (hm : m.scopes.Outermost m.root) {x : String} {b : Binding} {u : Unit}
    (hrun : (redeclare m.root x v b).run m = (.ok u, m')) :
    m'.root = m.root ∧ ∀ y, m'.global? y = if x = y then some v else m.global? y := by
  rw [redeclare, run_modifyScopes, Prod.mk.injEq] at hrun
  obtain ⟨-, rfl⟩ := hrun
  refine ⟨rfl, fun y => ?_⟩
  rw [global?]
  dsimp only
  rw [hm.root, ite_self]
  change (((m.scopes.dropNearest m.root x).declare m.root x v _ _ _).scope m.root).vars.get? y = _
  rw [(hm.dropNearest x).get?_vars_declare]
  split
  · rfl
  · next hxy => exact Scopes.get?_vars_dropNearest hxy

theorem globals_of_host {α : Type} {x : HostExec α} {a : α}
    (hrun : (liftM x : Exec α).run m = (.ok a, m')) : m'.scopes = m.scopes ∧ m'.root = m.root := by
  obtain ⟨host, -, rfl⟩ := exists_run_host_eq_ok hrun
  exact ⟨rfl, rfl⟩

/-- A declaration without calls binds its name and no other. -/
theorem binds_executeAssign (hm : m.scopes.Outermost m.root) {x : String} {expr : Node}
    (hexpr : expr.Inert) {b : Binding} (hb : b.declare = true)
    (hrun : (executeAssign (Engine.ofDepth depth) m.root (some x) expr .absent b).run m =
      (.ok (), m')) : Binds (if x = "_" then [] else [x]) m m' := by
  rw [executeAssign] at hrun
  obtain ⟨v, m₁, hevaluate, hrun⟩ := run_bind_eq_ok.1 hrun
  have hm₁ := run_evaluate_inert_eq_ok hexpr hevaluate
  have hscopes₁ : m₁.scopes = m.scopes := by rw [hm₁]
  have hroot₁ : m₁.root = m.root := by rw [hm₁]
  by_cases hx : x = "_"
  · subst hx
    rw [if_pos rfl]
    cases hrun
    exact .of_scopes_eq hscopes₁ hroot₁
  · have hbinds : (!(some x == some "_" && Node.absent.isAbsent)) = true := by
      simp [hx, Node.isAbsent]
    have htarget : (!Node.absent.isAbsent) ≠ true := by simp [Node.isAbsent]
    rw [if_neg hx]
    rw [if_pos hbinds, if_pos hb, if_neg htarget, if_pos hb] at hrun
    obtain ⟨_, m₂, hcheck, hrun⟩ := run_bind_eq_ok.1 hrun
    obtain ⟨hscopes₂, hroot₂⟩ := globals_of_host hcheck
    rw [hscopes₁] at hscopes₂
    rw [hroot₁] at hroot₂
    obtain ⟨hroot, hglobal⟩ := global?_of_redeclare (hscopes₂ ▸ hroot₂ ▸ hm) (hroot₂ ▸ hrun)
    refine .of_global?_eq (v := v) (hroot.trans hroot₂) fun y => ?_
    have hsame : m₂.global? y = m.global? y := by rw [global?, global?, hscopes₂, hroot₂]
    rw [hglobal y, hsame]
    rfl

/-- A function binds its name and no other. -/
theorem binds_executeFunction (hm : m.scopes.Outermost m.root) {x returns : String}
    {params : List (String × String × Node)} {body : List Node}
    (hrun : (executeFunction m.root x params returns body).run m = (.ok (), m')) :
    Binds [x] m m' := by
  rw [executeFunction] at hrun
  obtain ⟨code, m₁, hcode, hrun⟩ := run_bind_eq_ok.1 hrun
  obtain ⟨declaration, m₂, halloc, hrun⟩ := run_bind_eq_ok.1 hrun
  obtain ⟨f, m₃, hvalue, hrun⟩ := run_bind_eq_ok.1 hrun
  have hcode₁ : m₁.scopes = m.scopes ∧ m₁.root = m.root := by
    rw [← (Prod.mk.inj hcode).2]
    exact ⟨rfl, rfl⟩
  obtain ⟨hscopes₂, hroot₂⟩ := globals_of_host halloc
  obtain ⟨hscopes₃, hroot₃⟩ := globals_of_host hvalue
  rw [hscopes₂, hcode₁.1] at hscopes₃
  rw [hroot₂, hcode₁.2] at hroot₃
  have hassign := run_assignName_eq_ok hrun
  have hroot : m'.root = m.root := by rw [hassign, ← hroot₃]
  refine .of_global?_eq (v := f) hroot fun y => ?_
  rw [global?, hroot, hassign, hscopes₃]
  exact hm.get?_vars_assign x f y

theorem run_inScope_eq_ok {e : ScopeId} {x : Exec Unit} {w : Value}
    (hrun : (inScope e >>= fun _ => x >>= fun _ => pure w).run m = (.ok v, m')) :
    x.run { m with current := e } = (.ok (), m') := by
  obtain ⟨_, m₁, hscope, hrun⟩ := run_bind_eq_ok.1 hrun
  cases hscope
  obtain ⟨_, m₂, hrun, hpure⟩ := run_bind_eq_ok.1 hrun
  cases hpure
  exact hrun

/-- A declaration without calls binds its name, and leaves the other globals alone. -/
theorem binds_execute (hm : m.scopes.Outermost m.root) {s : Node} (hs : s.IsDeclaration)
    (hquiet : s.IsQuiet) (hrun : ((Engine.ofDepth depth).execute s m.root).run m = (.ok v, m')) :
    Binds s.binds m m' := by
  cases depth with
  | zero => cases hrun
  | succ depth =>
    cases hs with
    | value x expr hb =>
      have h := binds_executeAssign (m := { m with current := m.root }) hm hquiet hb
        (run_inScope_eq_ok hrun)
      exact ⟨h.root, h.bound, h.others⟩
    | func x params returns body =>
      have h := binds_executeFunction (m := { m with current := m.root }) hm
        (run_inScope_eq_ok hrun)
      exact ⟨h.root, h.bound, h.others⟩

theorem evolving_interpretAll (depth : Nat) (nodes : List Node) :
    Evolving ((Engine.ofDepth depth).interpretAll nodes) := by
  have hholds : FreeDiscipline.evolving.Holds ((Engine.ofDepth depth).interpretAll nodes) :=
    rel_interpretAll fun s _ e => (Engine.evolving_ofDepth depth).execute s e
  exact hholds

/-- So does a library of such declarations, one after the other. -/
theorem binds_interpretAll {nodes : List Node} (hm : m.scopes.Tidy m.root)
    (hnodes : ∀ s ∈ nodes, s.IsDeclaration ∧ s.IsQuiet)
    (hrun : ((Engine.ofDepth depth).interpretAll nodes).run m = (.ok v, m')) :
    Binds (boundNames nodes) m m' := by
  induction nodes generalizing m with
  | nil =>
    cases hrun
    exact .of_scopes_eq rfl rfl
  | cons s nodes ih =>
    rw [List.forall_mem_cons] at hnodes
    cases nodes with
    | nil =>
      rw [Engine.interpretAll, run_bind, run_get] at hrun
      simpa [boundNames] using binds_execute hm.toOutermost hnodes.1.1 hnodes.1.2 hrun
    | cons s' nodes =>
      rw [Engine.interpretAll, run_bind, run_get] at hrun
      obtain ⟨_, m₁, hfirst, hrun⟩ := run_bind_eq_ok.1 hrun
      have hbinds := binds_execute hm.toOutermost hnodes.1.1 hnodes.1.2 hfirst
      have hevolves := (Engine.evolving_ofDepth depth).execute s m.root m
      rw [hfirst] at hevolves
      have hm₁ : m₁.scopes.Tidy m₁.root := hbinds.root ▸ hevolves.tidy hm
      rw [boundNames, List.flatMap_cons]
      exact hbinds.trans (ih hm₁ hnodes.2 hrun)
      all_goals simp

/-! ### From the argument of an import to the run of a library -/

theorem run_getHost (host : Host) : (get : HostExec Host).run host = (.ok host, host) := rfl

/-- The request of an import, read off the entries of its dictionary. -/
theorem run_requestOf {spec : Value} {entries : List (Value × Value)} {lib A : String}
    {only : Option (List Value)} (hdict : m.store.dict? spec = some entries)
    (hlib : m.store.lookup entries (.text "lib") = some (.text lib)) (hempty : lib ≠ "")
    (hA : m.store.lookup entries (.text "as") = some (.text A))
    (hin : ((m.store.lookup entries (.text "in")).bind m.store.list?).map Array.toList = only) :
    ∃ r, (liftM (requestOf spec) : Exec Request).run m = (.ok r, m) ∧ r.lib = lib ∧
      r.module = .text A ∧ r.only = only.filter fun names => !names.isEmpty := by
  have htruth : m.store.truth (.text lib) = true := by simpa [Store.truth] using hempty
  suffices ∃ r, (requestOf spec).run m.toHost = (.ok r, m.toHost) ∧ r.lib = lib ∧
      r.module = .text A ∧ r.only = only.filter fun names => !names.isEmpty by
    obtain ⟨r, hrun, hr⟩ := this
    exact ⟨r, run_host_of_ok hrun, hr⟩
  rw [requestOf, HostExec.run_bind, run_getHost]
  dsimp only
  simp only [hdict, List.map_cons, hlib, Option.getD_some, List.find?_cons, htruth]
  rw [if_neg (by simpa using hempty)]
  refine ⟨_, rfl, rfl, by rw [hA]; rfl, ?_⟩
  rw [← hin]
  dsimp only
  cases m.store.lookup entries (.text "in") with
  | none => rfl
  | some v =>
    simp only [Option.getD_some, Option.bind_some]
    cases m.store.list? v with
    | none => rfl
    | some items => by_cases hitems : items.isEmpty <;> simp [Option.filter, hitems]

/-- A search is remembered, and nothing else changes. -/
theorem run_searchLibraries (name : String) (m : Machine) : ∃ searches,
    (liftM (searchLibraries name) : Exec (Option String)).run m =
      (.ok ((m.searches.get? name).getD (m.world.deepFile? name)), { m with searches }) := by
  suffices ∃ searches, (searchLibraries name).run m.toHost =
      (.ok ((m.searches.get? name).getD (m.world.deepFile? name)), { m.toHost with searches }) by
    obtain ⟨searches, hrun⟩ := this
    exact ⟨searches, run_host_of_ok hrun⟩
  rw [searchLibraries, HostExec.run_bind, run_getHost]
  dsimp only
  cases m.searches.get? name with
  | some found => exact ⟨m.searches, rfl⟩
  | none => exact ⟨_, rfl⟩

/-- An import that finds a file runs it. -/
theorem run_importOne_eq_ok {g : Engine} {r : Request} {path : String} {found : Bool}
    (hpath : m.libraryFile? r.lib = some path) (hrun : (importOne g r).run m = (.ok found, m')) :
    ∃ searches, (importProgram g path r).run { m with searches } = (.ok (), m') := by
  have hprogram {m₀ : Machine}
      (h : (importProgram g path r *> pure true).run m₀ = (.ok found, m')) :
      (importProgram g path r).run m₀ = (.ok (), m') := by
    rw [seqRight_eq_bind] at h
    obtain ⟨_, m₁, hprogram, hpure⟩ := run_bind_eq_ok.1 h
    cases hpure
    exact hprogram
  rw [importOne, run_bind, run_get] at hrun
  dsimp only at hrun
  rw [Machine.libraryFile?] at hpath
  cases hsource : m.world.source? r.lib with
  | some source =>
    rw [hsource] at hpath hrun
    cases source with
    | program path' =>
      cases hpath
      exact ⟨m.searches, hprogram hrun⟩
    | plain | folder => cases hpath
  | none =>
    rw [hsource] at hpath hrun
    dsimp only at hpath hrun
    obtain ⟨searches, hsearch⟩ := run_searchLibraries (r.lib ++ ".ypsh") m
    rw [run_bind, hsearch, hpath] at hrun
    exact ⟨searches, hprogram hrun⟩

theorem run_readText {path code : String}
    (hcode : m.world.files.text? (m.world.resolve path) = some code) :
    (liftM (readText path) : Exec String).run m = (.ok code, m) := by
  refine run_host_of_ok ?_
  rw [readText, HostExec.run_bind, run_getHost]
  dsimp only
  rw [hcode]
  rfl

theorem run_parse {code : String} {nodes : List Node}
    (hparse : parseProgram m.isQuiet code = .ok nodes) :
    (liftM (parse code) : Exec (List Node)).run m = (.ok nodes, m) := by
  refine run_host_of_ok ?_
  rw [parse, HostExec.run_bind, run_getHost]
  dsimp only
  rw [hparse]
  rfl

theorem run_checkFile_eq_ok {path : String} {u : Unit}
    (hrun : (liftM (checkFile path) : Exec Unit).run m = (.ok u, m')) : m' = m := by
  obtain ⟨host, hhost, rfl⟩ := exists_run_host_eq_ok hrun
  rw [checkFile, HostExec.run_bind, run_getHost] at hhost
  dsimp only at hhost
  split at hhost
  · rw [run_report_eq_ok hhost]
  · rw [← (Prod.mk.inj hhost).2]

/-- Running a library is running its statements, and then sorting out the names that are new. -/
theorem run_importProgram_eq_ok {g : Engine} {r : Request} {path code : String} {nodes : List Node}
    (hcode : m.world.files.text? (m.world.resolve path) = some code) {quiet : Bool}
    (hquiet : m.isQuiet = quiet) (hparse : parseProgram quiet code = .ok nodes)
    (hrun : (importProgram g path r).run m = (.ok (), m')) :
    ∃ v m₁, (g.interpretAll nodes).run m = (.ok v, m₁) ∧
      (settleNames m.globalNames r).run m₁ = (.ok (), m') := by
  have hnames : globalNames.run m = (.ok m.globalNames, m) := rfl
  rw [importProgram, run_bind, hnames] at hrun
  dsimp only at hrun
  obtain ⟨_, m₁, hfile, hrun⟩ := run_bind_eq_ok.1 hrun
  obtain rfl := run_checkFile_eq_ok hfile
  obtain ⟨text, m₂, hread, hrun⟩ := run_bind_eq_ok.1 hrun
  rw [run_readText hcode, Prod.mk.injEq, Except.ok.injEq] at hread
  obtain ⟨rfl, rfl⟩ := hread
  obtain ⟨v, m₂, hlibrary, hrun⟩ := run_bind_eq_ok.1 hrun
  rw [Engine.interpretText, run_bind, run_parse (hquiet ▸ hparse)] at hlibrary
  exact ⟨v, m₂, hlibrary, hrun⟩

theorem run_importAll_eq_ok {g : Engine} {spec : Value} {r : Request}
    (hrequest : (liftM (requestOf spec) : Exec Request).run m = (.ok r, m))
    (hrun : (importAll g [spec]).run m = (.ok (), m')) :
    ∃ found, (importOne g r).run m = (.ok found, m') := by
  rw [importAll] at hrun
  obtain ⟨missing, m₁, hall, hreport⟩ := run_bind_eq_ok.1 hrun
  rw [List.filterMapM_cons] at hall
  obtain ⟨name?, m₂, hone, hall⟩ := run_bind_eq_ok.1 hall
  rw [run_bind, hrequest] at hone
  obtain ⟨found, m₃, hone, hpure⟩ := run_bind_eq_ok.1 hone
  have h₂ : m₃ = m₂ := (Prod.mk.inj hpure).2
  have h₁ : m₂ = m₁ := by
    cases name? with
    | none => exact (Prod.mk.inj hall).2
    | some name => exact (Prod.mk.inj hall).2
  have h' : m₁ = m' := by
    split at hreport
    · obtain ⟨host, hhost, rfl⟩ := exists_run_host_eq_ok hreport
      rw [run_report_eq_ok hhost]
    · exact (Prod.mk.inj hreport).2
  rw [h₂, h₁, h'] at hone
  exact ⟨found, hone⟩

/-- An import runs the library, and then sorts out the new names as it was asked to. -/
theorem run_import_eq_ok {g : Engine} {spec : Value} {A : String} {only : Option (List Value)}
    {nodes : List Node} (hasks : m.Asks spec A only nodes)
    (hrun : (applyBuiltin g .importLibrary [spec] []).run m = (.ok v, m')) :
    ∃ searches w m₁ r, (g.interpretAll nodes).run { m with searches } = (.ok w, m₁) ∧
      r.module = .text A ∧ r.only = only.filter (fun names => !names.isEmpty) ∧
      (settleNames m.globalNames r).run m₁ = (.ok (), m') := by
  obtain ⟨entries, lib, path, code, hdict, hlib, hempty, hA, hin, hfile, hcode, hparse⟩ := hasks
  obtain ⟨r, hrequest, rfl, hmodule, honly⟩ := run_requestOf hdict hlib hempty hA hin
  change (importAll g [spec] >>= _).run m = _ at hrun
  obtain ⟨_, m₁, himport, hrun⟩ := run_bind_eq_ok.1 hrun
  obtain rfl : m₁ = m' := (Prod.mk.inj hrun).2
  obtain ⟨found, hone⟩ := run_importAll_eq_ok hrequest himport
  obtain ⟨searches, hprogram⟩ := run_importOne_eq_ok hfile hone
  obtain ⟨w, m₂, hlibrary, hsettle⟩ := run_importProgram_eq_ok (m := { m with searches }) hcode rfl
    hparse hprogram
  exact ⟨searches, w, m₂, r, hlibrary, hmodule, honly, hsettle⟩

/-! ### Imports under another name -/

/-- An empty list of names asks for all of them. -/
theorem wanted_filter_iff (only : Option (List Value)) (n : String) :
    Wanted (only.filter fun names => !names.isEmpty) n ↔ Asked only n := by
  cases only with
  | none => simp [Wanted, Asked]
  | some names => cases names <;> simp [Wanted, Asked, Option.filter]

/-- A test of a completed run, to be evaluated at a concrete machine. -/
theorem exists_run_eq_ok {α : Type} {x : Exec α} (test : Machine → Bool)
    (h : (x.run m).1.isOk && test (x.run m).2) :
    ∃ a m', x.run m = (.ok a, m') ∧ test m' = true := by
  rw [Bool.and_eq_true] at h
  generalize x.run m = run at h
  obtain ⟨e | a, m'⟩ := run
  · cases h.1
  · exact ⟨a, m', rfl, h.2⟩

/-- An import under another name runs its library in the globals, whatever the library does there.
If it does not start over, and its new names are not the alias or members of it, then these are
gone in the end and those that are wanted are members of the alias; what else there is has the value
that the library leaves it. If the library consists of declarations without calls, it changes the
names that they bind and no others; so the import is confined to its alias exactly if no name of
them was there before, or its value happens to be what it should be. -/
theorem aliased_import_iff {A : String} {only : Option (List Value)} {nodes : List Node}
    {spec : Value} (hm : m.scopes.Tidy m.root) (hasks : m.Asks spec A only nodes)
    (hempty : A ≠ "") (hA : A ∉ ["@", "root"])
    (hrun : ((Engine.ofDepth (depth + 1)).apply (.builtin .importLibrary) [spec] []).run m =
      (.ok v, m')) :
    ∃ searches w m₁,
      ((Engine.ofDepth depth).interpretAll nodes).run { m with searches } = (.ok w, m₁) ∧
      (m₁.root = m.root → (∀ n, Fresh m m₁ n → n ≠ A ∧ ∀ k, n ≠ A ++ "." ++ k) →
        Imported A (Fresh m m₁) (Asked only) m₁ m') ∧
      ((∀ s ∈ nodes, s.IsDeclaration ∧ s.IsQuiet) → A ∉ boundNames nodes →
        (∀ n ∈ boundNames nodes, '.' ∉ n.toList) →
        Binds (boundNames nodes) m m₁ ∧ Imported A (Fresh m m₁) (Asked only) m₁ m' ∧
        (KeptApart A (boundNames nodes) (Asked only) m m₁ m' ↔
          ∀ n ∈ boundNames nodes, (m.global? n).isSome → m₁.global? n = m.global? n ∧
            (Asked only n → m.global? (A ++ "." ++ n) = m₁.global? n))) := by
  have hroot : isRootModule (.text A) = false := by simpa [isRootModule] using hA
  obtain ⟨searches, w, m₁, r, hlibrary, hmodule, honly, hsettle⟩ :=
    run_import_eq_ok (g := .ofDepth depth) hasks hrun
  have himported (hkept : m₁.root = m.root)
      (hapart : ∀ n, Fresh m m₁ n → n ≠ A ∧ ∀ k, n ≠ A ++ "." ++ k) :
      Imported A (Fresh m m₁) (Asked only) m₁ m' := by
    have htidy : m₁.scopes.Tidy m₁.root := by
      have hevolves := evolving_interpretAll depth nodes { m with searches }
      rw [hlibrary] at hevolves
      exact hkept ▸ hevolves.tidy hm
    have hnew (n : String) : n ∉ m.globalNames ∧ (m₁.global? n).isSome ↔ Fresh m m₁ n := by
      have hbound : n ∈ m.globalNames ↔ (m.global? n).isSome := Table.has_iff_mem_names.symm
      rw [hbound, Option.not_isSome_iff_eq_none, Fresh]
    have h := run_settleNames_eq_ok htidy.toOutermost htidy.distinct hmodule hempty hroot
      (fun n hn hbound => hapart n ((hnew n).1 ⟨hn, hbound⟩)) hsettle
    exact h.congr hnew fun n => honly ▸ wanted_filter_iff only n
  refine ⟨searches, w, m₁, hlibrary, himported, fun hnodes hfree hplain => ?_⟩
  -- such a library meets what is asked of any other one, since all that is new is declared
  have hbinds : Binds (boundNames nodes) m m₁ := by
    have h := binds_interpretAll (m := { m with searches }) hm hnodes hlibrary
    exact ⟨h.root, h.bound, h.others⟩
  have hdotted (n : String) (hn : n ∈ boundNames nodes) (k : String) : n ≠ A ++ "." ++ k := by
    rintro rfl
    exact hplain _ hn (by simp)
  have hfresh (n : String) (hn : Fresh m m₁ n) : n ∈ boundNames nodes := by
    by_contra hnot
    rw [Fresh, hbinds.others n hnot] at hn
    rw [hn.1] at hn
    cases hn.2
  have h := himported hbinds.root fun n hn =>
    ⟨fun heq => hfree (heq ▸ hfresh n hn), hdotted n (hfresh n hn)⟩
  exact ⟨hbinds, h, h.keptApart_iff hbinds hfree hdotted⟩

/-- A library declares `x` and `y` where there is an `x` already: this one gets another value, and
only `y` becomes a member of the alias. -/
theorem aliased_import_iff_shadowed :
    let code := "var x = 2\nvar y = 3"
    let m : Machine :=
      { store := #[.dict [(.text "lib", .text "mylib"), (.text "as", .text "A")]]
        world := { files := [("/mylib.ypsh", .file (code.toList.map Char.toNat) 0o644)] }
        scopes := #[{ vars := [("x", .int 1)], flags := [("x", false)] }] }
    let nodes : List Node := [.assign (some "x") (.number (.int 2)) .absent { declare := true },
      .assign (some "y") (.number (.int 3)) .absent { declare := true }]
    m.scopes.Tidy m.root ∧ m.Asks (.ref 0) "A" none nodes ∧ ∃ v m',
      ((Engine.ofDepth 3).apply (.builtin .importLibrary) [.ref 0] []).run m = (.ok v, m') ∧
      (m'.global? "x").bind Value.int? = some 2 ∧ m'.global? "A.x" = none ∧
      (m'.global? "A.y").isSome := by
  intro code m nodes
  have hm : m.scopes.Tidy m.root := ⟨⟨by decide, rfl⟩, by decide⟩
  have hasks : m.Asks (.ref 0) "A" none nodes := by
    have htokens : tokenize code = [⟨.name, "var", 1⟩, ⟨.name, "x", 1⟩, ⟨.equal, "=", 1⟩,
        ⟨.number, "2", 1⟩, ⟨.name, "var", 2⟩, ⟨.name, "y", 2⟩, ⟨.equal, "=", 2⟩,
        ⟨.number, "3", 2⟩] := by
      decide +kernel
    have hparse : parseProgram false code = .ok nodes := by
      rw [parseProgram, htokens]
      rfl
    exact ⟨_, "mylib", "/mylib.ypsh", code, rfl, rfl, by decide, rfl, rfl, by decide +kernel,
      by decide +kernel, hparse⟩
  obtain ⟨v, m', hrun, htest⟩ := exists_run_eq_ok (m := m)
    (x := (Engine.ofDepth 3).apply (.builtin .importLibrary) [.ref 0] [])
    (fun m' => (m'.global? "x").bind Value.int? == some 2) (by decide +kernel)
  have hnodes : ∀ s ∈ nodes, s.IsDeclaration ∧ s.IsQuiet := by
    simp only [nodes, List.forall_mem_cons]
    exact ⟨⟨.value _ _ rfl, .number _⟩, ⟨.value _ _ rfl, .number _⟩,
      List.forall_mem_nil _⟩
  obtain ⟨_, _, m₁, -, -, hquiet⟩ := aliased_import_iff hm hasks (by decide) (by decide) hrun
  obtain ⟨hbinds, himported, -⟩ := hquiet hnodes (by decide) (by decide)
  have hy : Fresh m m₁ "y" := ⟨rfl, hbinds.bound "y" (by decide)⟩
  refine ⟨hm, hasks, v, m', hrun, eq_of_beq htest, ?_, ?_⟩
  · exact himported.global?_dotted hbinds (n := "x") (by decide) (.inl rfl)
  · exact himported.moved "y" hy (by simp [Asked]) ▸ hy.2

end Exec

end ScriptLang
