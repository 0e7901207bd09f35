import ScriptLang.Proofs.Run.Define
import ScriptLang.Proofs.Run.Members

/-!
# What removals leave

The removal of a member takes its name away, and gives the module a list without the member. A whole
module is removed with the names of all that is on its list. The root module is different: its
members lose their names and stay on its list.
-/

namespace ScriptLang

def Value.hasItems : Value → Bool
  | .text _ | .range .. | .ref _ | .stream .input | .internal (.nodes ..) => true
  | _ => false

namespace Machine

variable {m : Machine}

def unsetGlobal (m : Machine) (x : String) : Machine :=
  { m with scopes := m.scopes.unset m.root x }

theorem global?_unsetGlobal (hm : m.scopes.Outermost m.root) (x y : String) :
    (m.unsetGlobal x).global? y = if x = y then none else m.global? y := by
  rw [global?, unsetGlobal, Scopes.unset, Scopes.scope_update, if_pos ⟨rfl, hm.lt_size⟩]
  exact Table.get?_erase ..

@[simp] theorem root_unsetGlobal (m : Machine) (x : String) : (m.unsetGlobal x).root = m.root := rfl

theorem outermost_unsetGlobal (hm : m.scopes.Outermost m.root) (x : String) :
    (m.unsetGlobal x).scopes.Outermost (m.unsetGlobal x).root := hm.unset m.root x

def undescribed (m : Machine) (key : String) : Machine :=
  { m with docs := m.store.remove m.docs (.text key) }

def forgotten (m : Machine) (x : String) : Machine := (m.unsetGlobal x).undescribed x

theorem global?_forgotten (hm : m.scopes.Outermost m.root) (x y : String) :
    (m.forgotten x).global? y = if x = y then none else m.global? y := global?_unsetGlobal hm x y

theorem isSome_global?_forgotten (hm : m.scopes.Outermost m.root) (x y : String) :
    ((m.forgotten x).global? y).isSome ↔ y ≠ x ∧ (m.global? y).isSome := by
  rw [global?_forgotten hm]
  split
  · next hy => simp [hy]
  · next hy => simp [Ne.symm hy]

theorem outermost_forgotten (hm : m.scopes.Outermost m.root) (x : String) :
    (m.forgotten x).scopes.Outermost (m.forgotten x).root := outermost_unsetGlobal hm x

def emptied (m : Machine) (module : String) (ids : List String) : Machine :=
  ids.foldl (fun m id => m.forgotten (module ++ "." ++ id)) m

/-- The members of a module are gone, and the others are as they were. -/
theorem isSome_global?_emptied (hm : m.scopes.Outermost m.root) (module : String)
    (ids : List String) (y : String) : ((m.emptied module ids).global? y).isSome ↔
      (∀ id ∈ ids, y ≠ module ++ "." ++ id) ∧ (m.global? y).isSome := by
  rw [emptied]
  induction ids generalizing m with
  | nil => simp
  | cons id ids ih =>
    rw [List.foldl_cons, ih (outermost_forgotten hm _), isSome_global?_forgotten hm,
      List.forall_mem_cons]
    grind

def undefinedRoot (m : Machine) (id : String) : Machine :=
  ((((m.unsetGlobal ("root." ++ id)).unsetGlobal ("@." ++ id)).unsetGlobal id).undescribed
    ("root." ++ id)).undescribed ("@." ++ id)

/-- A member of the root module is gone under all three names. -/
theorem global?_undefinedRoot (hm : m.scopes.Outermost m.root) (id y : String) :
    (m.undefinedRoot id).global? y =
      if y ∈ [id, "@." ++ id, "root." ++ id] then none else m.global? y := by
  have hlong := outermost_unsetGlobal hm ("root." ++ id)
  have hshort := outermost_unsetGlobal hlong ("@." ++ id)
  have hall := global?_unsetGlobal hshort id y
  rw [global?_unsetGlobal hlong, global?_unsetGlobal hm] at hall
  rw [show (m.undefinedRoot id).global? y = _ from hall]
  simp only [List.mem_cons, List.not_mem_nil, or_false, eq_comm (a := y)]
  grind

theorem isSome_global?_undefinedRoot (hm : m.scopes.Outermost m.root) (id y : String) :
    ((m.undefinedRoot id).global? y).isSome ↔
      y ∉ [id, "@." ++ id, "root." ++ id] ∧ (m.global? y).isSome := by
  rw [global?_undefinedRoot hm]
  split
  · next hy => simp [hy]
  · next hy => exact (and_iff_right hy).symm

end Machine

namespace Exec

open Machine Store

variable {m m' : Machine}

theorem run_unsetRoot (x : String) (m : Machine) :
    (unsetRoot x).run m = (.ok (), m.unsetGlobal x) := rfl

theorem run_removeDoc (key : String) (m : Machine) :
    (liftM (removeDoc (.text key)) : Exec Unit).run m = (.ok (), m.undescribed key) :=
  run_host_of_ok rfl

theorem run_text_none (m : Machine) :
    (liftM (text .none) : Exec String).run m = (.ok "None", m) := by
  have htext (fuel : Nat) : m.store.textWithin m.reader (fuel + 1) .none = .ok "None" := rfl
  exact run_host_of_ok (HostExec.run_text (htext 9999))

/-- Without a name of its own, the member that is removed is called `None`. -/
theorem run_undefineRoot {module : String} (hroot : isRootModule (.text module) = true)
    (id : Option String) (m : Machine) :
    (undefine (.text module) (id.elim .none .text)).run m =
      (.ok (), m.undefinedRoot (id.getD "None")) := by
  have htext : (liftM (text (id.elim .none .text)) : Exec String).run m =
      (.ok (id.getD "None"), m) := by
    cases id with
    | none => exact run_text_none m
    | some id => exact run_text_text id m
  rw [undefine, if_pos hroot, run_bind, htext]
  rfl

theorem run_items_list {r : Ref} {items : Array Value}
    (hitems : m.store[r]? = some (.list items)) :
    (liftM (Exec.items (.ref r)) : Exec (List Value)).run m = (.ok items.toList, m) := by
  refine run_host_of_ok ?_
  have hobj : (obj? r).run m.toHost = (.ok (some (.list items)), m.toHost) := by
    change (Except.ok m.store[r]?, m.toHost) = _
    rw [hitems]
  have hitems? : (items? (.ref r)).run m.toHost = (.ok (some items.toList), m.toHost) := by
    change (obj? r >>= _).run m.toHost = _
    rw [HostExec.run_bind, hobj]
    rfl
  rw [Exec.items, HostExec.run_bind, hitems?]
  rfl

theorem run_forget (name : String) (ids : List String) (m : Machine) :
    (forIn (ids.map Value.text) PUnit.unit fun member _ => do
      let id ← text member
      unsetRoot (name ++ "." ++ id)
      removeDoc (.text (name ++ "." ++ id))
      pure (.yield PUnit.unit) : Exec PUnit).run m =
      (.ok (), m.emptied name ids) := by
  induction ids generalizing m with
  | nil => rfl
  | cons id ids ih =>
    simp only [List.map_cons, List.forIn_cons, bind_assoc]
    rw [run_bind, run_text_text]
    dsimp only
    rw [run_bind, run_unsetRoot]
    dsimp only
    rw [run_bind, run_removeDoc]
    simp only [pure_bind]
    exact ih _

/-- The members of a module are the items of its list. -/
theorem run_members?_list (hm : m.scopes.Outermost m.root) {name : String} {r : Ref}
    {items : Array Value} (hlist : m.list? name = some (r, items)) :
    (members? name).run m = (.ok (some items.toList), m) := by
  obtain ⟨hr, hitems⟩ := list?_eq_some_iff.1 hlist
  have hget : m.scopes.get? m.root name = some (.ref r) := (hm.get? name).trans hr
  rw [members?, run_bind, run_get]
  simp only [hget]
  rw [map_eq_pure_bind, run_bind, run_items_list hitems]
  rfl

theorem run_members?_none (hm : m.scopes.Outermost m.root) {name : String}
    (hnone : m.global? name = none) : (members? name).run m = (.ok none, m) := by
  have hget : m.scopes.get? m.root name = none := (hm.get? name).trans hnone
  rw [members?, run_bind, run_get]
  simp only [hget]
  rfl

/-- A module that has no items has no members, and asking for them fails. -/
theorem run_members?_other (hm : m.scopes.Outermost m.root) {name : String} {v : Value}
    (hv : m.global? name = some v) (hitems : v.hasItems = false) (found : Option (List Value)) :
    (members? name).run m ≠ (.ok found, m') := by
  have hget : m.scopes.get? m.root name = some v := (hm.get? name).trans hv
  rw [members?, run_bind, run_get]
  simp only [hget]
  intro hrun
  rw [map_eq_pure_bind] at hrun
  obtain ⟨_, m₁, hrun, -⟩ := run_bind_eq_ok.1 hrun
  obtain ⟨host, hhost, -⟩ := exists_run_host_eq_ok hrun
  rw [Exec.items] at hhost
  obtain ⟨vs, host₁, hnone, hfail⟩ := run_hostBind_eq_ok hhost
  have hitems? (vs : List Value) (host' : Host) :
      (items? v).run m.toHost ≠ (.ok (some vs), host') := by
    intro hsome
    cases v with
    | stream s =>
      cases s with
      | input => cases hitems
      | _ => cases hsome
    | internal part =>
      cases part with
      | nodes => cases hitems
      | _ => cases hsome
    | text | range | ref => cases hitems
    | _ => cases hsome
  cases vs with
  | none => cases hfail
  | some vs => exact hitems? vs host₁ hnone

theorem run_equal_text (module id : String) (m : Machine) :
    (liftM (equal (.text module) (.text id)) : Exec Bool).run m =
      (.ok (decide (module = id)), m) := by
  have hequal : m.store.equal (.text module) (.text id) = decide (module = id) := by
    by_cases h : module = id <;>
      simp [Store.equal, depthBound, equalWithin, numbersEqual?, Value.int?, h]
  rw [← hequal]
  exact run_host_of_ok rfl

/-- A module that is not there is not removed. -/
theorem run_undefine_missing (hm : m.scopes.Outermost m.root) {module : String}
    (hroot : isRootModule (.text module) = false) (hnone : m.global? module = none)
    (id : Option String) : (undefine (.text module) (id.elim .none .text)).run m = (.ok (), m) := by
  rw [undefine, if_neg (by simp [hroot])]
  cases id with
  | none =>
    change (members? module >>= _).run m = _
    rw [run_bind, run_members?_none hm hnone]
    rfl
  | some id =>
    change ((liftM (equal (.text module) (.text id)) : Exec Bool) >>= _).run m = _
    rw [run_bind, run_equal_text]
    change (members? module >>= _).run m = _
    rw [run_bind, run_members?_none hm hnone]
    rfl

/-- Where something without items is in the place of a module, nothing is removed. -/
theorem run_undefine_other (hm : m.scopes.Outermost m.root) {module : String}
    (hroot : isRootModule (.text module) = false) {v : Value} (hv : m.global? module = some v)
    (hitems : v.hasItems = false) (id : Option String) :
    (undefine (.text module) (id.elim .none .text)).run m ≠ (.ok (), m') := by
  intro hrun
  rw [undefine, if_neg (by simp [hroot])] at hrun
  cases id with
  | none =>
    change (members? module >>= _).run m = _ at hrun
    obtain ⟨_, _, hmembers, -⟩ := run_bind_eq_ok.1 hrun
    exact run_members?_other hm hv hitems _ hmembers
  | some id =>
    change ((liftM (equal (.text module) (.text id)) : Exec Bool) >>= _).run m = _ at hrun
    rw [run_bind, run_equal_text] at hrun
    change (members? module >>= _).run m = _ at hrun
    obtain ⟨_, _, hmembers, -⟩ := run_bind_eq_ok.1 hrun
    exact run_members?_other hm hv hitems _ hmembers

/-- A whole module is removed with its members. -/
theorem run_undefine_whole (hm : m.scopes.Outermost m.root) {module : String}
    (hroot : isRootModule (.text module) = false) {r : Ref} {ids : List String}
    (hlist : m.list? module = some (r, (ids.map Value.text).toArray)) {id : Option String}
    (hid : id = none ∨ id = some module) :
    (undefine (.text module) (id.elim .none .text)).run m =
      (.ok (), (m.emptied module ids).forgotten module) := by
  rw [undefine, if_neg (by simp [hroot])]
  rcases hid with rfl | rfl
  · change (members? module >>= _).run m = _
    rw [run_bind, run_members?_list hm hlist]
    dsimp only
    rw [if_pos rfl, run_bind, run_forget]
    rfl
  · change ((liftM (equal (.text module) (.text module)) : Exec Bool) >>= _).run m = _
    rw [run_bind, run_equal_text]
    change (members? module >>= _).run m = _
    rw [run_bind, run_members?_list hm hlist]
    dsimp only
    rw [if_pos (by simp), run_bind, run_forget]
    rfl

theorem findIdx?_equalItem_text (st : Store) (ids : List String) (id : String) :
    (ids.map Value.text).findIdx? (fun v => st.equalItem v (.text id)) = ids.idxOf? id := by
  rw [List.findIdx?_map, List.idxOf?]
  congr 1
  funext y
  exact Store.equalItem_text st y id

/-- A member that is removed is taken off the list, and its name is unbound. -/
theorem run_undefine_member_eq_ok (hm : m.scopes.Outermost m.root) {module id : String}
    (hroot : isRootModule (.text module) = false) {r : Ref} {ids : List String}
    (hlist : m.list? module = some (r, (ids.map Value.text).toArray)) (hid : id ≠ module)
    (hrun : (undefine (.text module) (.text id)).run m = (.ok (), m')) :
    m' = (if id ∈ ids then m.relisted module (ids.erase id) else m).forgotten
      (module ++ "." ++ id) := by
  rw [undefine, if_neg (by simp [hroot])] at hrun
  change ((liftM (equal (.text module) (.text id)) : Exec Bool) >>= _).run m = _ at hrun
  rw [run_bind, run_equal_text] at hrun
  change (members? module >>= _).run m = _ at hrun
  rw [run_bind, run_members?_list hm hlist] at hrun
  dsimp only at hrun
  rw [if_neg (by simpa using Ne.symm hid), run_bind, run_get] at hrun
  dsimp only at hrun
  rw [findIdx?_equalItem_text] at hrun
  split at hrun
  · next i hi =>
    have hmem : id ∈ ids := by
      rw [← List.isSome_idxOf?, hi]
      rfl
    have hrest : (ids.map Value.text).eraseIdx i = (ids.eraseIdx i).map Value.text := by
      simp [List.eraseIdx_eq_take_drop_succ, List.map_take, List.map_drop]
    rw [if_pos hmem, List.erase_eq_eraseIdx, hi]
    rw [hrest] at hrun
    obtain ⟨_, m₁, hnew, hrun⟩ := run_bind_eq_ok.1 hrun
    cases hnew
    obtain ⟨_, m₂, hassign, hrun⟩ := run_bind_eq_ok.1 hrun
    obtain ⟨rfl, -⟩ := run_assignRoot_eq_ok rfl hassign
    rw [run_bind, run_text_text] at hrun
    exact (Prod.mk.inj hrun).2.symm
  · next hi =>
    have hmem : id ∉ ids := List.idxOf?_eq_none_iff.1 hi
    rw [if_neg hmem]
    rw [run_bind, run_text_text] at hrun
    exact (Prod.mk.inj hrun).2.symm

end Exec

end ScriptLang
