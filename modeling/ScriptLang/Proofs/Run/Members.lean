import ScriptLang.Proofs.Run.Body
import ScriptLang.Proofs.Run.Globals

/-!
# The members of classes and templates

What the scope of a body binds in the end are the members, and they go over those that a class takes
over from a template. A body is isolated from the globals exactly if none of its names is one of
theirs. Otherwise globals change, or members are missing.
-/

namespace ScriptLang

/-! ### Dictionaries with names as keys -/

namespace Store

/-- Only a text is equal to a text. -/
theorem eq_text_of_equalItem {st : Store} {v : Value} {x : String}
    (h : st.equalItem v (.text x) = true) : v = .text x := by
  cases v <;> simp_all [equalItem, Value.same, equal, depthBound, equalWithin, numbersEqual?,
    Value.int?]

theorem equalItem_text (st : Store) (x y : String) :
    st.equalItem (.text x) (.text y) = decide (x = y) := by
  by_cases h : x = y <;>
    simp [equalItem, Value.same, equal, depthBound, equalWithin, numbersEqual?, Value.int?, h]

theorem any_equalItem_iff (st : Store) (names : List Value) (x : String) :
    (names.any fun v => st.equalItem v (.text x)) = true ↔ .text x ∈ names := by
  rw [List.any_eq_true]
  constructor
  · rintro ⟨v, hv, heq⟩
    rwa [← eq_text_of_equalItem heq]
  · intro hx
    exact ⟨.text x, hx, by simp [equalItem_text]⟩

theorem lookup_cons (st : Store) (e : Value × Value) (entries : List (Value × Value))
    (key : Value) : st.lookup (e :: entries) key =
      if st.equalItem e.1 key then some e.2 else st.lookup entries key := by
  rw [lookup, List.find?_cons]
  cases st.equalItem e.1 key <;> rfl

/-- What is found under a name does not depend on the objects there are. -/
theorem lookup_text_congr (st st' : Store) (entries : List (Value × Value)) (x : String) :
    st.lookup entries (.text x) = st'.lookup entries (.text x) := by
  have hsame (v : Value) : st.equalItem v (.text x) = st'.equalItem v (.text x) := by
    rw [Bool.eq_iff_iff]
    constructor <;> intro h <;> rw [eq_text_of_equalItem h, equalItem_text] <;> simp
  simp only [lookup, hsame]

/-- An entry that was inserted is found, and the others are as they were. -/
theorem lookup_insert (st : Store) (entries : List (Value × Value)) (x y : String) (v : Value) :
    st.lookup (st.insert entries (.text x) v) (.text y) =
      if x = y then some v else st.lookup entries (.text y) := by
  induction entries with
  | nil => simp [insert, lookup_cons, equalItem_text]
  | cons e entries ih =>
    rw [insert, lookup_cons]
    by_cases hx : st.equalItem e.1 (.text x) = true
    · rw [if_pos hx, lookup_cons, eq_text_of_equalItem hx, equalItem_text]
      by_cases h : x = y <;> simp [h]
    · rw [if_neg hx, lookup_cons, ih]
      by_cases hy : st.equalItem e.1 (.text y) = true
      · have hne : x ≠ y := by
          rintro rfl
          exact hx hy
        rw [if_pos hy, if_pos hy, if_neg hne]
      · rw [if_neg hy, if_neg hy]

theorem lookup_map_text (st : Store) (t : Table Value) (x : String) :
    st.lookup (t.map fun b => (.text b.1, b.2)) (.text x) = t.get? x := by
  induction t with
  | nil => rfl
  | cons b t ih =>
    rw [List.map_cons, lookup_cons, equalItem_text, ih]
    by_cases h : b.1 = x <;> simp [Table.get?, h]

/-- What a table binds goes over what was there before. -/
theorem lookup_foldl_insert (st : Store) {t : Table Value} (ht : t.names.Nodup)
    (entries : List (Value × Value)) (x : String) :
    st.lookup (t.foldl (fun es b => st.insert es (.text b.1) b.2) entries) (.text x) =
      (t.get? x).or (st.lookup entries (.text x)) := by
  induction t generalizing entries with
  | nil => rfl
  | cons b t ih =>
    obtain ⟨hnew, ht⟩ := List.nodup_cons.1 ht
    rw [List.foldl_cons, ih ht, lookup_insert, Table.get?]
    by_cases h : b.1 = x
    · have hnone : Table.get? t x = none := by
        rw [h] at hnew
        rwa [← Option.not_isSome_iff_eq_none, ← Table.has, Table.has_iff_mem_names]
      simp [h, hnone]
    · simp [h]

def members? (st : Store) (kind : RecordKind) (v : Value) : Option (List (Value × Value)) :=
  match st.ofValue? v with
  | some (.record k fields) => if k = kind then (fields.get? "env").bind st.dict? else none
  | _ => none

/-- A value has members if it is a record of the kind whose scope is a dictionary. -/
theorem members?_eq_some_iff {st : Store} {kind : RecordKind} {v : Value}
    {entries : List (Value × Value)} : st.members? kind v = some entries ↔
      ∃ r fields env, v = .ref r ∧ st[r]? = some (.record kind fields) ∧
        fields.get? "env" = some env ∧ st.dict? env = some entries := by
  constructor
  · intro h
    unfold members? at h
    split at h
    · next k fields hobj =>
      obtain ⟨rfl, hbind⟩ := (ite_eq_iff.1 h).resolve_right nofun
      obtain ⟨env, henv, hentries⟩ := Option.bind_eq_some_iff.1 hbind
      cases v with
      | ref r => exact ⟨r, fields, env, rfl, hobj, henv, hentries⟩
      | _ => cases hobj
    · cases h
  · rintro ⟨r, fields, env, rfl, hobj, henv, hentries⟩
    simp [members?, ofValue?, hobj, henv, hentries]

end Store

def Machine.members? (m : Machine) (kind : RecordKind) (x : String) :
    Option (List (Value × Value)) :=
  (m.global? x).bind (m.store.members? kind)

namespace Exec

open Scopes (Outermost)

variable {m m' : Machine} {body : List Node}

/-! ### Declaring a class or a template -/

/-- The node declares a template, or a class that may take over the members of a template. -/
inductive Builds (m : Machine) :
    Node → RecordKind → String → List Node → List (Value × Value) → Prop where
  | template (name : String) (body : List Node) :
      Builds m (.template name body) .template name body []
  | cls (name : String) (body : List Node) : Builds m (.cls name none body) .cls name body []
  | derived (name : String) (body : List Node) {base : String} {inherited : List (Value × Value)} :
      base ≠ "" → m.members? .template base = some inherited →
      Builds m (.cls name (some base) body) .cls name body inherited

/-- The members that a class takes over are those of the template it names. -/
theorem run_baseMembers {base : String} {inherited : List (Value × Value)}
    (hroot : m.scopes.Outermost m.root) (hbase : base ≠ "")
    (hmembers : m.members? .template base = some inherited) :
    (baseValue m.root (some base) >>= fun v => liftM (baseMembers v)).run m =
      (.ok inherited, m) := by
  obtain ⟨v, hv, hmembers⟩ := Option.bind_eq_some_iff.1 hmembers
  have hlookup : (lookup m.root base).run m = (.ok v, m) := by
    rw [lookup, run_bind, run_get]
    dsimp only
    rw [hroot.get?, ← Machine.global?, hv]
    rfl
  obtain ⟨r, fields, env, rfl, hobj, henv, hentries⟩ := Store.members?_eq_some_iff.1 hmembers
  have htruth : m.store.truth (.ref r) = true := by simp [Store.truth, hobj]
  have hget : (liftM (objOf? (.ref r)) : Exec (Option Obj)).run m =
      (.ok (some (.record .template fields)), m) := by
    have hhost : (objOf? (.ref r)).run m.toHost = (.ok (m.store.ofValue? (.ref r)), m.toHost) := rfl
    rw [Store.ofValue?, hobj] at hhost
    exact run_host_of_ok hhost
  have hvalue : (baseValue m.root (some base)).run m = (.ok (.ref r), m) := by
    rw [baseValue]
    · rw [run_bind, hlookup]
      dsimp only
      rw [run_bind, hget]
      dsimp only
      simp only [Bool.not_true, Bool.and_false]
      rfl
    · exact hbase
  have hmodelled : (modelled? (.ref r) "env").run m.toHost = (.ok (some env), m.toHost) := by
    have hhost : (obj? r).run m.toHost = (.ok m.store[r]?, m.toHost) := rfl
    rw [hobj] at hhost
    rw [modelled?, HostExec.run_bind, hhost]
    dsimp only
    rw [henv]
    rfl
  have hattribute : (attribute? (.ref r) "env").run m.toHost = (.ok (some env), m.toHost) := by
    rw [attribute?, HostExec.run_bind, hmodelled]
    rfl
  have hmembers : (baseMembers (.ref r)).run m.toHost = (.ok inherited, m.toHost) := by
    have hhost : (truth (.ref r)).run m.toHost = (.ok (m.store.truth (.ref r)), m.toHost) := rfl
    rw [baseMembers, HostExec.run_bind, hhost, htruth]
    dsimp only
    rw [if_pos rfl, HostExec.run_bind, hattribute]
    dsimp only
    have hget (f : Host → HostExec (List (Value × Value))) :
        (get >>= f).run m.toHost = (f m.toHost).run m.toHost := rfl
    rw [hget, hentries]
    rfl
  rw [run_bind, hvalue]
  exact run_host_of_ok hmembers

def finishTemplate (e inner : ScopeId) (name : String) : Exec Unit := do
  let env ← dictOfTable ((← get).scopes.scope inner).vars
  let t ← allocValue (.record .template [("env", .ref env)])
  assignName e name t

def finishClass (e inner : ScopeId) (name : String) (inherited : List (Value × Value)) :
    Exec Unit := do
  let m ← get
  let members := (m.scopes.scope inner).vars.foldl
    (fun ms b => m.store.insert ms (.text b.1) b.2) inherited
  let env ← newDict members
  let c ← allocValue (.record .cls [("name", .text name), ("env", env),
    ("interpreter", .internal .interpreter)])
  assignName e name c

/-- A template runs its body in a new scope, and is made of it then. -/
theorem run_executeTemplate (g : Engine) (e : ScopeId) (name : String) (m : Machine) :
    (executeTemplate g e name body).run m =
      (g.executeAll m.scopes.size body >>= fun _ => finishTemplate e m.scopes.size name).run
        { m with scopes := (m.scopes.new (some e)).2 } := rfl

/-- A class does the same, with the members that it takes over. -/
theorem run_executeClass (g : Engine) (e : ScopeId) (name : String) {base : Option String}
    {inherited : List (Value × Value)}
    (h : (baseValue e base >>= fun v => liftM (baseMembers v)).run m = (.ok inherited, m)) :
    (executeClass g e name base body).run m =
      (g.executeAll m.scopes.size body >>= fun _ =>
        finishClass e m.scopes.size name inherited).run
          { m with scopes := (m.scopes.new (some m.root)).2 } := by
  rw [executeClass, ← bind_assoc, run_bind, h]
  rfl

/-- In the end the name is assigned a new record, which has the names of the body as members, and
otherwise those that are taken over. -/
def Finishes (finish : Exec Unit) (e inner : ScopeId) (kind : RecordKind) (name : String)
    (inherited : List (Value × Value)) (m : Machine) : Prop :=
  ∃ v st members, finish.run m = (assignName e name v).run { m with store := st } ∧
    Grows m.store st ∧ st.members? kind v = some members ∧
    ∀ x, st.lookup members (.text x) =
      ((m.scopes.scope inner).vars.get? x).or (st.lookup inherited (.text x))

/-- A dictionary and a record that holds it, as the newest objects, are the members of the
record. -/
theorem members?_push_push (st : Store) {members : List (Value × Value)} {kind : RecordKind}
    {fields : Table Value} (hfields : fields.get? "env" = some (.ref st.size)) :
    Store.members? ((st.push (.dict members)).push (.record kind fields)) kind
      (.ref (st.push (.dict members)).size) = some members := by
  refine Store.members?_eq_some_iff.2 ⟨_, fields, .ref st.size, rfl, Array.getElem?_push_size,
    hfields, ?_⟩
  have hdict : ((st.push (.dict members)).push (.record kind fields))[st.size]? =
      some (.dict members) := Grows.push _ _ _ _ Array.getElem?_push_size
  simp only [Store.dict?, Store.ofValue?, hdict]

/-- A template has the names of its body as members. -/
theorem finishes_template (e inner : ScopeId) (name : String) (m : Machine) :
    Finishes (finishTemplate e inner name) e inner .template name [] m := by
  let members : List (Value × Value) := (m.scopes.scope inner).vars.map fun b => (.text b.1, b.2)
  let fields : Table Value := [("env", .ref m.store.size)]
  have hrun : (finishTemplate e inner name).run m =
      (assignName e name (.ref (m.store.push (.dict members)).size)).run { m with
        store := (m.store.push (.dict members)).push (.record .template fields) } := rfl
  refine ⟨_, _, members, hrun, (Grows.push _ _).trans (.push _ _), members?_push_push m.store rfl,
    fun x => ?_⟩
  rw [Store.lookup_map_text]
  exact Option.or_none.symm

/-- A class has the names of its body as members, and the others that it took over. -/
theorem finishes_class (e inner : ScopeId) (name : String) (inherited : List (Value × Value))
    {m : Machine} (hdistinct : (m.scopes.scope inner).vars.names.Nodup) :
    Finishes (finishClass e inner name inherited) e inner .cls name inherited m := by
  let members : List (Value × Value) := (m.scopes.scope inner).vars.foldl
    (fun ms b => m.store.insert ms (.text b.1) b.2) inherited
  let fields : Table Value := [("name", .text name), ("env", .ref m.store.size),
    ("interpreter", .internal .interpreter)]
  have hrun : (finishClass e inner name inherited).run m =
      (assignName e name (.ref (m.store.push (.dict members)).size)).run { m with
        store := (m.store.push (.dict members)).push (.record .cls fields) } := rfl
  refine ⟨_, _, members, hrun, (Grows.push _ _).trans (.push _ _), members?_push_push m.store rfl,
    fun x => ?_⟩
  rw [Store.lookup_text_congr _ m.store, Store.lookup_foldl_insert _ hdistinct,
    Store.lookup_text_congr m.store]

/-- A declaration runs its body in a new scope and then assigns its name. -/
theorem run_execute_builds {node : Node} {kind : RecordKind} {name : String}
    {inherited : List (Value × Value)} (hroot : m.scopes.Outermost m.root)
    (hnode : Builds m node kind name body inherited) (depth : Nat) : ∃ finish,
    ((Engine.ofDepth (depth + 1)).execute node m.root).run m =
      ((Engine.ofDepth depth).executeAll m.scopes.size body >>= (fun _ => finish) >>= fun _ =>
        pure .none).run { m with current := m.root, scopes := (m.scopes.new (some m.root)).2 } ∧
    ∀ m₁ : Machine, (m₁.scopes.scope m.scopes.size).vars.names.Nodup →
      Finishes finish m.root m.scopes.size kind name inherited m₁ := by
  let m₀ : Machine := { m with current := m.root }
  have hstep {x y : Exec Unit} {m₁ : Machine} (h : x.run m₀ = y.run m₁) :
      (x >>= fun _ => (pure .none : Exec Value)).run m₀ = (y >>= fun _ => pure .none).run m₁ := by
    rw [run_bind, run_bind, h]
  cases hnode with
  | template =>
    exact ⟨_, hstep (run_executeTemplate ..), fun m₁ _ => finishes_template ..⟩
  | cls =>
    have hnone : (baseValue m.root none >>= fun v => liftM (baseMembers v)).run m₀ =
        (.ok [], m₀) := rfl
    exact ⟨_, hstep (run_executeClass _ _ _ hnone), fun m₁ hdistinct =>
      finishes_class _ _ _ _ hdistinct⟩
  | derived _ _ hbase hmembers =>
    exact ⟨_, hstep (run_executeClass _ _ _ (run_baseMembers (m := m₀) hroot hbase hmembers)),
      fun m₁ hdistinct => finishes_class _ _ _ _ hdistinct⟩

/-- Given enough depth, a declaration with an orderly body completes. -/
theorem exists_run_builds {node : Node} {kind : RecordKind} {name : String}
    {inherited : List (Value × Value)} (hroot : m.scopes.Outermost m.root)
    (hnode : Builds m node kind name body inherited) (hbody : ∀ d ∈ body, d.IsMember)
    (horderly : IsOrderly m name body) :
    ∃ n, ∀ depth ≥ n, ∃ m', ((Engine.ofDepth depth).execute node m.root).run m =
      (.ok .none, m') := by
  obtain ⟨n, hn⟩ : ∃ n, ∀ depth ≥ n, ∀ d ∈ body, ∀ x expr target b,
      d = .assign x expr target b → ∀ e, HasValue (.ofDepth depth) e expr := by
    refine exists_depth_of_forall fun d hd => ?_
    cases hbody d hd with
    | func => exact ⟨0, fun _ _ _ _ _ _ h => (nomatch h)⟩
    | var x hexpr =>
      obtain ⟨n, hn⟩ := hasValue_of_isLiteral hexpr
      refine ⟨n, fun depth hdepth x expr target b heq => ?_⟩
      cases heq
      exact hn depth hdepth
  refine ⟨n + 2, fun depth hdepth => ?_⟩
  obtain ⟨depth, rfl⟩ := Nat.exists_eq_add_of_le' (Nat.le_of_add_left_le hdepth)
  obtain ⟨finish, hrun, hfinish⟩ := run_execute_builds hroot hnode (depth + 1)
  have hstart := collects_nil hroot m.root
  obtain ⟨r, m₁, hall⟩ := hstart.exists_executeAll hroot horderly (List.nil_subset _)
    (List.Subset.refl _) hbody
    (fun d hd x expr target b heq => hn depth (by omega) d hd x expr target b heq _)
  have hm₁ : Collects m m.scopes.size body m₁ := hstart.executeAll hbody hall
  obtain ⟨v, st, members, hfinished, -⟩ := hfinish m₁ hm₁.nested.distinct
  have hwritable : m₁.scopes.isReadOnly m.root name = false := by
    rw [hm₁.nested.outermost.isReadOnly]
    cases hlast : lastDefinition? body name with
    | none =>
      rw [((hm₁.placed name).untouched hlast).2, ← hroot.isReadOnly]
      exact horderly.writable
    | some d =>
      have hfree := horderly.free name (by simp [hlast])
      rw [(hm₁.placed name).root_of_isOwn (isOwn_of_isFree hroot hfree body)]
      rfl
  rw [hrun, run_bind, run_bind, hall]
  dsimp only
  rw [hfinished, run_assignName (m := { m₁ with store := st }) hwritable]
  exact ⟨_, rfl⟩

/-! ### Isolation -/

/-- The body was isolated: the other globals are as they were, and the scope of the body, which is
the one that was new, binds all that the body defines. -/
def IsIsolated (m m' : Machine) (name : String) (body : List Node) : Prop :=
  (∀ x ≠ name, (m'.scopes.scope m.root).binding? x = (m.scopes.scope m.root).binding? x) ∧
  ∀ x, lastDefinition? body x ≠ none → (m'.scopes.scope m.scopes.size).vars.has x = true

/-- The machine that a declaration leaves, by the one after its body. -/
structure Establishes (m m₁ m' : Machine) (kind : RecordKind) (name : String)
    (inherited members : List (Value × Value)) : Prop where
  kept : m₁.Extends m'
  inner : m'.scopes.scope m.scopes.size = m₁.scopes.scope m.scopes.size
  globals : ∀ x ≠ name,
    (m'.scopes.scope m.root).binding? x = (m₁.scopes.scope m.root).binding? x
  record : m'.members? kind name = some members
  lookup : ∀ x, m'.store.lookup members (.text x) =
    ((m₁.scopes.scope m.scopes.size).vars.get? x).or (m.store.lookup inherited (.text x))

/-- A declaration that completes has run its body and made a record of it. -/
theorem exists_establishes {node : Node} {kind : RecordKind} {name : String}
    {inherited : List (Value × Value)} (hroot : m.scopes.Outermost m.root)
    (hnode : Builds m node kind name body inherited) (hbody : ∀ d ∈ body, d.IsMember)
    {depth : Nat} {r : Value}
    (hrun : ((Engine.ofDepth depth).execute node m.root).run m = (.ok r, m')) :
    ∃ m₁ members, Collects m m.scopes.size body m₁ ∧
      Establishes m m₁ m' kind name inherited members := by
  cases depth with
  | zero => cases hrun
  | succ depth =>
    obtain ⟨finish, heq, hfinish⟩ := run_execute_builds hroot hnode depth
    rw [heq] at hrun
    obtain ⟨_, _, hrun, hresult⟩ := run_bind_eq_ok.1 hrun
    cases hresult
    obtain ⟨_, m₁, hall, hrun⟩ := run_bind_eq_ok.1 hrun
    have hm₁ : Collects m m.scopes.size body m₁ := (collects_nil hroot m.root).executeAll hbody hall
    obtain ⟨v, st, members, hfinished, hgrows, hmembers, hlookup⟩ :=
      hfinish m₁ hm₁.nested.distinct
    rw [hfinished] at hrun
    cases run_assignName_eq_ok hrun
    have houter := hm₁.nested.outermost
    have hwritten : m₁.scopes.written m.root name = m.root := houter.written name
    have hbindings (y : String) := Scopes.binding?_assign (x := name) (e := m.root)
      (hwritten.symm ▸ houter.lt_size) v m.root y
    rw [hwritten] at hbindings
    refine ⟨m₁, members, hm₁, ⟨⟨hgrows, .refl _, rfl⟩, ?_, fun x hx => ?_, ?_, fun x => ?_⟩⟩
    · exact Scopes.scope_assign_of_ne (hwritten.symm ▸ hm₁.nested.ne) v
    · exact (hbindings x).trans (if_neg fun h => hx h.2.symm)
    · have hglobal : ((m₁.scopes.assign m.root name v).scope m₁.root).vars.get? name = some v := by
        rw [hm₁.kept.root]
        rw [← Scope.map_fst_binding?, hbindings, if_pos ⟨rfl, rfl⟩]
        rfl
      exact Option.bind_eq_some_iff.2 ⟨v, hglobal, hmembers⟩
    · rw [hlookup, Store.lookup_text_congr st m.store]

/-- The body was isolated exactly if its names were free outside, or the name of the declaration
itself. -/
theorem Establishes.isIsolated_iff {m₁ : Machine} {kind : RecordKind} {name : String}
    {inherited members : List (Value × Value)} (h : Establishes m m₁ m' kind name inherited members)
    (hroot : m.scopes.Outermost m.root) (hm₁ : Collects m m.scopes.size body m₁) :
    IsIsolated m m' name body ↔ ∀ x, lastDefinition? body x ≠ none →
      m.scopes.IsFree m.root x ∨ x = name ∧ IsOwn m body x := by
  constructor
  · rintro ⟨hglobals, hbinds⟩ x hlast
    have hown : IsOwn m body x := by
      have hhas := hbinds x hlast
      rw [h.inner] at hhas
      exact ((hm₁.has_iff x).1 hhas).2
    by_cases hx : x = name
    · exact .inr ⟨hx, hown⟩
    · have hnone := hglobals x hx
      rw [h.globals x hx, (hm₁.placed x).root_of_isOwn hown] at hnone
      exact .inl ((isFree_iff hroot).2 ⟨hnone.symm, hown.1⟩)
  · intro hfree
    refine ⟨fun x hx => ?_, fun x hlast => ?_⟩
    · rw [h.globals x hx]
      by_cases hlast : lastDefinition? body x = none
      · exact ((hm₁.placed x).untouched hlast).2
      · have hfree := (hfree x hlast).resolve_right fun hname => hx hname.1
        rw [(hm₁.placed x).root_of_isOwn (isOwn_of_isFree hroot hfree body),
          ((isFree_iff hroot).1 hfree).1]
    · rw [h.inner, hm₁.has_iff]
      refine ⟨hlast, ?_⟩
      obtain hfree | ⟨-, hown⟩ := hfree x hlast
      · exact isOwn_of_isFree hroot hfree body
      · exact hown

/-- What a class or a template is made of, and what its declaration does to the globals. A name that
the body does not define is taken over from the template. A name that it defines has its last
definition if the scope of the body binds it, and otherwise it is missing there. The body is
isolated if and only if its names are free, that is, neither globals nor meant to be global; only a
variable may have the name that is declared. If so, and if nothing in it is refused, then the
declaration completes. -/
theorem members_isolated_iff {node : Node} {kind : RecordKind} {name : String}
    {inherited : List (Value × Value)} (hroot : m.scopes.Outermost m.root)
    (hnode : Builds m node kind name body inherited) (hbody : ∀ d ∈ body, d.IsMember) :
    (∀ depth r m', ((Engine.ofDepth depth).execute node m.root).run m = (.ok r, m') →
      ∃ members, m'.members? kind name = some members ∧
        (∀ x, lastDefinition? body x = none →
          m'.store.lookup members (.text x) = m.store.lookup inherited (.text x)) ∧
        (∀ x d, lastDefinition? body x = some d →
          if (m'.scopes.scope m.scopes.size).vars.has x then
            ∃ v, m'.store.lookup members (.text x) = some v ∧ Defines m' m.scopes.size d v
          else m'.store.lookup members (.text x) = m.store.lookup inherited (.text x)) ∧
        (IsIsolated m m' name body ↔ ∀ x, lastDefinition? body x ≠ none →
          m.scopes.IsFree m.root x ∨ x = name ∧ IsOwn m body x)) ∧
    (IsOrderly m name body → ∃ n, ∀ depth ≥ n, ∃ m',
      ((Engine.ofDepth depth).execute node m.root).run m = (.ok .none, m')) := by
  refine ⟨fun depth r m' hrun => ?_, exists_run_builds hroot hnode hbody⟩
  obtain ⟨m₁, members, hm₁, h⟩ := exists_establishes hroot hnode hbody hrun
  have hmissing (x : String) (hx : ¬ (m₁.scopes.scope m.scopes.size).vars.has x = true) :
      m'.store.lookup members (.text x) = m.store.lookup inherited (.text x) := by
    rw [h.lookup, Option.not_isSome_iff_eq_none.1 hx, Option.none_or]
  refine ⟨members, h.record, fun x hlast => ?_, fun x d hlast => ?_, h.isIsolated_iff hroot hm₁⟩
  · exact hmissing x fun hhas => ((hm₁.has_iff x).1 hhas).1 hlast
  · rw [h.inner]
    split
    · next hhas =>
      obtain ⟨-, v, readOnly, hv, hdefines, -⟩ :=
        (hm₁.placed x).own d hlast ((hm₁.has_iff x).1 hhas).2
      refine ⟨v, ?_, hdefines.mono h.kept⟩
      rw [h.lookup, ← Scope.map_fst_binding?, hv]
      rfl
    · next hhas => exact hmissing x hhas

/-- A method with the name of a global is missing in its class; one with another name is not, and
its class can be declared. -/
theorem members_isolated_iff_method :
    let m : Machine := { scopes := #[{ vars := [("f", .int 1)], flags := [("f", false)] }] }
    let body (x : String) : List Node := [.func x [] "auto" []]
    let after (x : String) := (((Engine.ofDepth 3).execute (.cls "C" none (body x)) 0).run m).2
    ¬ IsIsolated m (after "f") "C" (body "f") ∧ IsIsolated m (after "g") "C" (body "g") ∧
      ∃ n, ∀ depth ≥ n, ∃ m',
        ((Engine.ofDepth depth).execute (.cls "C" none (body "g")) 0).run m = (.ok .none, m') := by
  intro m body after
  have hroot : m.scopes.Outermost m.root := ⟨by decide, rfl⟩
  have hbody (x : String) : ∀ d ∈ body x, d.IsMember := by
    intro d hd
    rw [List.mem_singleton.1 hd]
    exact .func ..
  have hdefined {x y : String} : lastDefinition? (body x) y ≠ none ↔ x = y := by
    simp [lastDefinition?, body, Node.memberName?]
  have hfree : m.scopes.IsFree m.root "g" := ⟨rfl, by decide⟩
  obtain ⟨hf, -⟩ := members_isolated_iff hroot (.cls "C" (body "f")) (hbody "f")
  obtain ⟨hg, hcompletes⟩ := members_isolated_iff hroot (.cls "C" (body "g")) (hbody "g")
  obtain ⟨-, -, -, -, hf⟩ := hf 3 .none (after "f") rfl
  obtain ⟨-, -, -, -, hg⟩ := hg 3 .none (after "g") rfl
  refine ⟨fun hisolated => ?_, hg.2 fun x hx => ?_, hcompletes ⟨fun x hx => ?_, rfl, ?_, ?_⟩⟩
  · obtain ⟨hholder, -⟩ | ⟨hname, -⟩ := hf.1 hisolated "f" (hdefined.2 rfl)
    · exact absurd hholder (by decide)
    · exact absurd hname (by decide)
  · rw [← hdefined.1 hx]
    exact .inl hfree
  · rw [← hdefined.1 hx]
    exact hfree
  · intro f _ d hd _ hvar
    rw [List.mem_singleton.1 hd] at hvar
    cases hvar
  · intro x expr target b hmem
    cases List.mem_singleton.1 hmem
end Exec

end ScriptLang
