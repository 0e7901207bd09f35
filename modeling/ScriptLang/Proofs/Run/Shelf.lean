import Mathlib.Logic.Function.Basic
import ScriptLang.Proofs.Run.Undefine

/-!
# Modules and their lists

What the globals with the names of some modules are, told apart from the machine: nothing, a list of
distinct names, or something that has no items. As long as no two of these modules share a list, a
change of one of them is seen by that module alone. So the changes that definitions are made of can
be followed on this picture.
-/

namespace ScriptLang

/-- The names of the module whose members are globals themselves. -/
def rootNames : List String := ["@", "root"]

/-- What the global with the name of a module is: nothing, a list of names, or something that has no
items. -/
inductive Shelf where
  | missing
  | list (ids : List String)
  | other

namespace Shelf

def ids : Shelf → List String
  | list ids => ids
  | _ => []

def ensured : Shelf → Shelf
  | missing => list []
  | s => s

def insert (id : String) : Shelf → Shelf
  | list ids => list (if id ∈ ids then ids else ids ++ [id])
  | s => s

end Shelf

namespace Machine

variable {U U' : String → Prop} {shelf : String → Shelf} {m m' : Machine} {x : String} {s : Shelf}

def OnShelf (m : Machine) (x : String) : Shelf → Prop
  | .missing => m.global? x = none
  | .list ids => ids.Nodup ∧ ∃ r, m.list? x = some (r, (ids.map Value.text).toArray)
  | .other => ∃ v, m.global? x = some v ∧ v.hasItems = false

/-- An object on a shelf has its place in the store. -/
theorem OnShelf.ref_lt {r : Ref} (h : m.OnShelf x s) (hr : m.global? x = some (.ref r)) :
    r < m.store.size := by
  cases s with
  | missing => cases h.symm.trans hr
  | list ids =>
    obtain ⟨-, r', hlist⟩ := h
    obtain ⟨hr', hitems⟩ := list?_eq_some_iff.1 hlist
    cases hr.symm.trans hr'
    exact (Array.getElem?_eq_some_iff.1 hitems).1
  | other =>
    obtain ⟨v, hv, hitems⟩ := h
    cases hr.symm.trans hv
    cases hitems

/-- A list is on a shelf for lists. -/
theorem OnShelf.eq_list {r : Ref} {items : Array Value} (h : m.OnShelf x s)
    (hlist : m.list? x = some (r, items)) :
    ∃ ids, s = .list ids ∧ ids.Nodup ∧ items = (ids.map Value.text).toArray := by
  have hr := (list?_eq_some_iff.1 hlist).1
  cases s with
  | missing => cases h.symm.trans hr
  | list ids =>
    obtain ⟨hnodup, r', hlist'⟩ := h
    cases hlist.symm.trans hlist'
    exact ⟨ids, rfl, hnodup, rfl⟩
  | other =>
    obtain ⟨v, hv, hitems⟩ := h
    cases hr.symm.trans hv
    cases hitems

theorem OnShelf.isSome_iff (h : m.OnShelf x s) : (m.global? x).isSome ↔ s ≠ .missing := by
  cases s with
  | missing => simp [show m.global? x = none from h]
  | list ids =>
    obtain ⟨-, r, hlist⟩ := h
    simp [(list?_eq_some_iff.1 hlist).1]
  | other =>
    obtain ⟨v, hv, -⟩ := h
    simp [hv]

/-- A machine with the same global and the same object is the same here. -/
theorem OnShelf.congr (h : m.OnShelf x s) (hglobal : m'.global? x = m.global? x)
    (hstore : ∀ r, m.global? x = some (.ref r) → m'.store[r]? = m.store[r]?) : m'.OnShelf x s := by
  cases s with
  | missing => exact hglobal.trans h
  | list ids =>
    obtain ⟨hnodup, r, hlist⟩ := h
    obtain ⟨hr, hitems⟩ := list?_eq_some_iff.1 hlist
    exact ⟨hnodup, r, list?_eq_some_iff.2 ⟨hglobal.trans hr, (hstore r hr).trans hitems⟩⟩
  | other =>
    obtain ⟨v, hv, hitems⟩ := h
    exact ⟨v, hglobal.trans hv, hitems⟩

/-- The globals with the names `U` are what the shelves say, and no two of them are the same
object. -/
structure Shelved (U : String → Prop) (shelf : String → Shelf) (m : Machine) : Prop where
  outermost : m.scopes.Outermost m.root
  onShelf : ∀ n, U n → m.OnShelf n (shelf n)
  apart : ∀ n n' r, U n → U n' → m.global? n = some (.ref r) → m.global? n' = some (.ref r) → n = n'

namespace Shelved

/-- Fewer shelves are asked about. -/
theorem mono (h : Shelved U shelf m) (hU : ∀ n, U' n → U n) : Shelved U' shelf m :=
  ⟨h.outermost, fun n hn => h.onShelf n (hU n hn),
    fun n n' r hn hn' => h.apart n n' r (hU n hn) (hU n' hn')⟩

/-- A change of one global, and perhaps of the object that it is. -/
theorem change (h : Shelved U shelf m) (houter : m'.scopes.Outermost m'.root)
    (hglobal : ∀ y, x ≠ y → m'.global? y = m.global? y)
    (hstore : ∀ n r, U n → x ≠ n → m.global? n = some (.ref r) → m'.store[r]? = m.store[r]?)
    (hshelf : U x → m'.OnShelf x s)
    (hfresh : ∀ n r, U x → U n → x ≠ n → m'.global? x = some (.ref r) →
      m.global? n ≠ some (.ref r)) : Shelved U (Function.update shelf x s) m' := by
  refine ⟨houter, fun n hn => ?_, fun n n' r hn hn' hr hr' => ?_⟩
  · by_cases hx : x = n
    · subst hx
      rw [Function.update_self]
      exact hshelf hn
    · rw [Function.update_of_ne (Ne.symm hx)]
      exact (h.onShelf n hn).congr (hglobal n hx) fun r => hstore n r hn hx
  · by_cases hx : x = n <;> by_cases hx' : x = n'
    · exact hx.symm.trans hx'
    · subst hx
      exact absurd (hglobal n' hx' ▸ hr') (hfresh n' r hn hn' hx' hr)
    · subst hx'
      exact absurd (hglobal n hx ▸ hr) (hfresh n r hn' hn hx hr')
    · exact h.apart n n' r hn hn' (hglobal n hx ▸ hr) (hglobal n' hx' ▸ hr')

/-- Another global, or one that gets a value without items. -/
theorem setGlobal (h : Shelved U shelf m) {v : Value} (hv : U x → v.hasItems = false) :
    Shelved U (Function.update shelf x .other) (m.setGlobal x v) := by
  have hx := global?_setGlobal h.outermost x v x
  rw [if_pos rfl] at hx
  refine h.change (outermost_setGlobal h.outermost x v) (fun y hy => ?_) (fun _ _ _ _ _ => rfl)
    (fun hU => ⟨v, hx, hv hU⟩) (fun n r hU _ _ hr => ?_)
  · rw [global?_setGlobal h.outermost, if_neg hy]
  · cases hx.symm.trans hr
    cases hv hU

theorem unsetGlobal (h : Shelved U shelf m) (x : String) :
    Shelved U (Function.update shelf x .missing) (m.unsetGlobal x) := by
  have hx := global?_unsetGlobal h.outermost x x
  rw [if_pos rfl] at hx
  refine h.change (outermost_unsetGlobal h.outermost x) (fun y hy => ?_) (fun _ _ _ _ _ => rfl)
    (fun _ => hx) (fun n r _ _ _ hr => ?_)
  · rw [global?_unsetGlobal h.outermost, if_neg hy]
  · cases hx.symm.trans hr

/-- A list of its own. -/
theorem newList (h : Shelved U shelf m) (x : String) {ids : List String} (hids : ids.Nodup) :
    Shelved U (Function.update shelf x (.list ids)) (m.relisted x ids) := by
  have hglobal := global?_relisted h.outermost x ids
  have hx : (m.relisted x ids).global? x = some (.ref m.store.size) := by rw [hglobal, if_pos rfl]
  refine h.change (outermost_relisted h.outermost x ids) (fun y hy => ?_) (fun n r hn _ hr => ?_)
    (fun _ => ⟨hids, _, list?_eq_some_iff.2 ⟨hx, Array.getElem?_push_size⟩⟩)
    (fun n r _ hn _ hr hr' => ?_)
  · rw [hglobal, if_neg hy]
  · have hlt := (h.onShelf n hn).ref_lt hr
    exact (Array.getElem?_push_lt hlt).trans (Array.getElem?_eq_getElem hlt).symm
  · cases hx.symm.trans hr
    exact Nat.lt_irrefl _ ((h.onShelf n hn).ref_lt hr')

/-- A module that was missing has an empty list now. -/
theorem ensured (h : Shelved U shelf m) (hx : U x) :
    Shelved U (Function.update shelf x (shelf x).ensured) (m.ensured x) := by
  have hbound := (h.onShelf x hx).isSome_iff
  rw [Machine.ensured]
  by_cases hs : shelf x = .missing
  · rw [if_neg fun hsome => hbound.1 hsome hs, hs]
    exact h.newList x List.nodup_nil
  · have hsame : (shelf x).ensured = shelf x := by
      cases hshelf : shelf x with
      | missing => exact absurd hshelf hs
      | list | other => rfl
    rwa [if_pos (hbound.2 hs), hsame, Function.update_eq_self]

theorem any_equalItem_text (st : Store) (ids : List String) (id : String) :
    ((ids.map Value.text).toArray.any fun v => st.equalItem v (.text id)) = decide (id ∈ ids) := by
  rw [List.any_toArray, Bool.eq_iff_iff, Store.any_equalItem_iff]
  simp

/-- A name is added to one list only, as no two shelves are the same object. -/
theorem added (h : Shelved U shelf m) (hx : U x) (id : String) :
    Shelved U (Function.update shelf x ((shelf x).insert id)) (m.added x (.text id)) := by
  rw [Machine.added]
  split
  · next r items hlist =>
    obtain ⟨ids, hs, hnodup, rfl⟩ := (h.onShelf x hx).eq_list hlist
    obtain ⟨hr, hitems⟩ := list?_eq_some_iff.1 hlist
    rw [any_equalItem_text, hs, Shelf.insert]
    by_cases hid : id ∈ ids
    · rw [if_pos (decide_eq_true hid), if_pos hid, ← hs, Function.update_eq_self]
      exact h
    · rw [if_neg hid, if_neg (by simpa using hid)]
      have houter := outermost_withStore h.outermost
        (m.store.setIfInBounds r (.list ((ids.map Value.text).toArray.push (.text id))))
      have hlt := (Array.getElem?_eq_some_iff.1 hitems).1
      have hglobal := global?_setGlobal houter x (.ref r)
      refine h.change (outermost_setGlobal houter x _) (fun y hy => ?_) (fun n r' hn hne hr' => ?_)
        (fun _ => ⟨?_, r, list?_eq_some_iff.2 ⟨?_, ?_⟩⟩) (fun n r' _ hn hne hr' hn' => ?_)
      · rw [hglobal, if_neg hy, global?_withStore]
      · refine Array.getElem?_setIfInBounds_ne fun heq => hne ?_
        exact h.apart x n r hx hn hr (heq ▸ hr')
      · exact List.nodup_append.2 ⟨hnodup, List.nodup_singleton id, by grind⟩
      · rw [hglobal, if_pos rfl]
      · simpa using Array.getElem?_setIfInBounds_self_of_lt hlt
      · rw [hglobal, if_pos rfl] at hr'
        cases hr'
        exact hne (h.apart x n r hx hn hr hn')
  · next hnone =>
    have hsame : (shelf x).insert id = shelf x := by
      cases hs : shelf x with
      | missing | other => rfl
      | list ids =>
        have hshelf := h.onShelf x hx
        rw [hs] at hshelf
        obtain ⟨-, r, hlist⟩ := hshelf
        cases hnone.symm.trans hlist
    rw [hsame, Function.update_eq_self]
    exact h

/-! ### Definitions and removals -/

theorem congr {shelf' : String → Shelf} (h : Shelved U shelf m)
    (heq : ∀ n, U n → shelf' n = shelf n) : Shelved U shelf' m :=
  ⟨h.outermost, fun n hn => heq n hn ▸ h.onShelf n hn, h.apart⟩

theorem described (h : Shelved U shelf m) (key : String) (doc : Value) :
    Shelved U shelf (m.described key doc) :=
  ⟨h.outermost, fun n hn => (h.onShelf n hn).congr rfl fun _ _ => rfl, h.apart⟩

theorem undescribed (h : Shelved U shelf m) (key : String) :
    Shelved U shelf (m.undescribed key) :=
  ⟨h.outermost, fun n hn => (h.onShelf n hn).congr rfl fun _ _ => rfl, h.apart⟩

/-- Names of no module do not matter. -/
theorem update_of_not (hx : ¬ U x) (s : Shelf) (n : String) (hn : U n) :
    shelf n = Function.update shelf x s n := by
  rw [Function.update_of_ne]
  rintro rfl
  exact hx hn

/-- A definition in a module puts its name on the shelf of the module. -/
theorem definedIn {module id : String} (h : Shelved U shelf m) (hmodule : U module)
    (hname : ¬ U (module ++ "." ++ id)) (content doc : Value) :
    Shelved U (Function.update shelf module ((shelf module).ensured.insert id))
      (m.definedIn module id content doc) := by
  have hlisted := (h.ensured hmodule).added hmodule id
  rw [Function.update_self, Function.update_idem] at hlisted
  have hbound := hlisted.setGlobal (v := content) fun hU => absurd hU hname
  exact (hbound.congr (update_of_not hname _)).described _ doc

def rootDefined (shelf : String → Shelf) (id : String) : String → Shelf := fun n =>
  if n = id then .other else if n ∈ rootNames then (shelf n).ensured.insert id else shelf n

/-- A definition in the root module puts its name on two shelves, and its content in the place of a
third. -/
theorem definedRoot {id : String} (h : Shelved U shelf m) (hroot : U "root") (hat : U "@")
    (hnames : ¬ U ("root." ++ id) ∧ ¬ U ("@." ++ id)) {content : Value}
    (hcontent : U id → content.hasItems = false) (doc : Value) :
    Shelved U (rootDefined shelf id) (m.definedRoot id content doc) := by
  have hlisted := (((h.ensured hroot).ensured hat).added hroot id).added hat id
  have hlong := hlisted.setGlobal (v := content) fun hU => absurd hU hnames.1
  have hshort := hlong.setGlobal (v := content) fun hU => absurd hU hnames.2
  have hown := (hshort.setGlobal hcontent).described ("root." ++ id) doc
  refine (hown.described ("@." ++ id) doc).congr fun n hn => ?_
  have hlongNe : n ≠ "root." ++ id := fun heq => hnames.1 (heq ▸ hn)
  have hshortNe : n ≠ "@." ++ id := fun heq => hnames.2 (heq ▸ hn)
  simp only [rootDefined, rootNames, Function.update_apply, hlongNe, hshortNe, if_false,
    List.mem_cons, List.not_mem_nil, or_false]
  grind

theorem forgotten (h : Shelved U shelf m) (x : String) :
    Shelved U (Function.update shelf x .missing) (m.forgotten x) := (h.unsetGlobal x).undescribed x

theorem forgotten_of_not (h : Shelved U shelf m) (hx : ¬ U x) : Shelved U shelf (m.forgotten x) :=
  (h.forgotten x).congr (update_of_not hx _)

/-- Removing the members of a module touches no shelf. -/
theorem emptied {module : String} (h : Shelved U shelf m)
    (hnames : ∀ id, ¬ U (module ++ "." ++ id)) (ids : List String) :
    Shelved U shelf (m.emptied module ids) := by
  rw [Machine.emptied]
  induction ids generalizing m with
  | nil => exact h
  | cons id ids ih => exact ih (h.forgotten_of_not (hnames id))

theorem undefinedRoot {id : String} (h : Shelved U shelf m)
    (hnames : ∀ x ∈ [id, "@." ++ id, "root." ++ id], ¬ U x) :
    Shelved U shelf (m.undefinedRoot id) := by
  simp only [List.forall_mem_cons, List.not_mem_nil, false_implies, implies_true, and_true]
    at hnames
  obtain ⟨hown, hshort, hlong⟩ := hnames
  have hunset := ((h.unsetGlobal ("root." ++ id)).congr (update_of_not hlong _)).unsetGlobal
    ("@." ++ id) |>.congr (update_of_not hshort _)
  exact (((hunset.unsetGlobal id).congr (update_of_not hown _)).undescribed _).undescribed _

end Shelved

end Machine

end ScriptLang
