import ScriptLang.Proofs.Run.Shelf

/-!
# Lists of members and the names of members

A module has a list of its members, and each member has a global. Calls that define and remove
members keep the two in step, with one exception: a member that is removed from the root module
loses its globals and stays on the list. Calls that take the name of a module for a member of the
root module are apart, for they take the place of the list, and so is the input, which a removal
turns into a list of its lines.

`InStep` says this of a machine: one lemma for each change that calls are made of shows that it is
kept, and `InStep.calls` is about any completed calls. `settled_startInterpreter` starts from a
fresh interpreter, whose modules are defined by calls as well.
-/

namespace ScriptLang

/-- A call that defines a member of a module, or removes one or the whole module. -/
inductive ModuleCall where
  | define (module id : String) (content doc : Value)
  | undefine (module : String) (id : Option String)

namespace ModuleCall

def module : ModuleCall → String
  | define module .. | undefine module _ => module

def names : ModuleCall → List String
  | define module id .. => [module, id]
  | undefine module id => module :: id.toList

def run : ModuleCall → Exec Unit
  | define module id content doc => Exec.define (.text module) (.text id) content doc
  | undefine module id => Exec.undefine (.text module) (id.elim .none .text)

/-- The call does not put anything that has items in the place of one of the modules `U`, and
removes none of them as a member of the root module. -/
def Spares (U : String → Prop) : ModuleCall → Prop
  | define module id content _ => module ∈ rootNames → U id → content.hasItems = false
  | undefine module id => module ∈ rootNames → ¬ U (id.getD "None")

/-- The members of the root module that have been removed and not defined again. -/
def withdraw (ids : List String) : ModuleCall → List String
  | define module id .. => if module ∈ rootNames then ids.filter (· ≠ id) else ids
  | undefine module id => if module ∈ rootNames then id.getD "None" :: ids else ids

/-- The members of the root module that have been defined. -/
def record (ids : List String) : ModuleCall → List String
  | define module id .. => if module ∈ rootNames then id :: ids else ids
  | undefine .. => ids

end ModuleCall

/-! ### Names of members -/

/-- The name of a module ends at the first dot. -/
theorem dotted_inj {n n' id id' : String} (hn : '.' ∉ n.toList) (hn' : '.' ∉ n'.toList) :
    n ++ "." ++ id = n' ++ "." ++ id' ↔ n = n' ∧ id = id' := by
  have htake (a b : List Char) (ha : '.' ∉ a) : (a ++ '.' :: b).takeWhile (· ≠ '.') = a := by
    rw [List.takeWhile_append_of_pos fun c hc => by grind]
    simp
  refine ⟨fun h => ?_, fun ⟨hn, hid⟩ => by rw [hn, hid]⟩
  have hlist : n.toList ++ '.' :: id.toList = n'.toList ++ '.' :: id'.toList := by
    simpa using congrArg String.toList h
  have hmodule := congrArg (List.takeWhile (· ≠ '.')) hlist
  rw [htake _ _ hn, htake _ _ hn'] at hmodule
  rw [hmodule, List.append_cancel_left_eq, List.cons.injEq] at hlist
  exact ⟨String.ext hmodule, String.ext hlist.2⟩

/-- A name without dots is not that of a member. -/
theorem ne_dotted {x : String} (hx : '.' ∉ x.toList) (n id : String) : n ++ "." ++ id ≠ x := by
  rintro rfl
  simp at hx

namespace Shelf

variable {s : Shelf} {id x : String}

theorem ensured_insert_eq_other_iff : s.ensured.insert id = other ↔ s = other := by
  cases s <;> simp [ensured, insert]

/-- A name that is added to a list is on it, with those that were there. -/
theorem mem_ids_ensured_insert (hs : s ≠ other) :
    x ∈ (s.ensured.insert id).ids ↔ x = id ∨ x ∈ s.ids := by
  cases s with
  | missing => simp [ensured, insert, ids]
  | list ids =>
    simp only [ensured, insert, Shelf.ids]
    split <;> grind
  | other => exact absurd rfl hs

end Shelf

namespace Machine

/-- The lists and the names of members are in step, but for the members `gone` of the root module,
which has `listed` on its list. -/
structure InStep (U : String → Prop) (gone listed : List String) (shelf : String → Shelf)
    (m : Machine) : Prop extends Shelved U shelf m where
  plain : ∀ n, U n → '.' ∉ n.toList
  bound_iff : ∀ n, U n → shelf n ≠ .other → ∀ id, (m.global? (n ++ "." ++ id)).isSome ↔
    id ∈ (shelf n).ids ∧ ¬ (n ∈ rootNames ∧ id ∈ gone)
  mem_ids_iff : ∀ n ∈ rootNames, U n → shelf n ≠ .other → ∀ id, id ∈ (shelf n).ids ↔ id ∈ listed

namespace InStep

variable {U U' : String → Prop} {gone listed : List String} {shelf : String → Shelf}
  {m m' : Machine} {module id : String}

theorem mono (h : InStep U gone listed shelf m) (hU : ∀ n, U' n → U n) :
    InStep U' gone listed shelf m :=
  { h.toShelved.mono hU with
    plain := fun n hn => h.plain n (hU n hn)
    bound_iff := fun n hn => h.bound_iff n (hU n hn)
    mem_ids_iff := fun n hroot hn => h.mem_ids_iff n hroot (hU n hn) }

/-- Only the scopes and the objects matter. -/
theorem congr (h : InStep U gone listed shelf m) (hscopes : m'.scopes = m.scopes)
    (hroot : m'.root = m.root) (hstore : m'.store = m.store) : InStep U gone listed shelf m' := by
  have hglobal (x : String) : m'.global? x = m.global? x := by rw [global?, global?, hscopes, hroot]
  refine { h with
    outermost := hscopes ▸ hroot ▸ h.outermost
    onShelf := fun n hn => (h.onShelf n hn).congr (hglobal n) fun r _ => by rw [hstore]
    apart := ?_
    bound_iff := ?_ }
  · simpa only [hglobal] using h.apart
  · simpa only [hglobal] using h.bound_iff

/-- None of the modules has the name of a member. -/
theorem not_dotted (h : InStep U gone listed shelf m) (n id : String) : ¬ U (n ++ "." ++ id) :=
  fun hU => ne_dotted (h.plain _ hU) n id rfl

/-- A change of one module other than the root module, and of the names of its members. -/
theorem change (h : InStep U gone listed shelf m) {s : Shelf}
    (hshelved : Shelved U (Function.update shelf module s) m') (hroot : module ∉ rootNames)
    (hothers : ∀ n x, U n → n ≠ module →
      ((m'.global? (n ++ "." ++ x)).isSome ↔ (m.global? (n ++ "." ++ x)).isSome))
    (hmembers : s ≠ .other → ∀ x, (m'.global? (module ++ "." ++ x)).isSome ↔ x ∈ s.ids) :
    InStep U gone listed (Function.update shelf module s) m' where
  toShelved := hshelved
  plain := h.plain
  bound_iff n hn hother x := by
    by_cases heq : n = module
    · subst heq
      rw [Function.update_self] at hother ⊢
      rw [hmembers hother x, and_iff_left fun hgone => hroot hgone.1]
    · rw [Function.update_of_ne heq] at hother ⊢
      rw [hothers n x hn heq, h.bound_iff n hn hother]
  mem_ids_iff n hn hU hother := by
    have hne : n ≠ module := fun heq => hroot (heq ▸ hn)
    rw [Function.update_of_ne hne] at hother ⊢
    exact h.mem_ids_iff n hn hU hother

/-- The members of a module other than the root module are those on its list. -/
theorem bound_iff_mem (h : InStep U gone listed shelf m) (hmodule : U module)
    (hroot : module ∉ rootNames) (hother : shelf module ≠ .other) (x : String) :
    (m.global? (module ++ "." ++ x)).isSome ↔ x ∈ (shelf module).ids := by
  rw [h.bound_iff module hmodule hother, and_iff_left fun hgone => hroot hgone.1]

/-- A definition in a module keeps its list and its members in step. -/
theorem definedIn (h : InStep U gone listed shelf m) (hmodule : U module)
    (hroot : module ∉ rootNames) (content doc : Value) :
    InStep U gone listed (Function.update shelf module ((shelf module).ensured.insert id))
      (m.definedIn module id content doc) := by
  have hbound (n x : String) (hn : U n) :
      ((m.definedIn module id content doc).global? (n ++ "." ++ x)).isSome ↔
        n = module ∧ x = id ∨ (m.global? (n ++ "." ++ x)).isSome := by
    rw [isSome_global?_definedIn h.outermost, dotted_inj (h.plain _ hn) (h.plain _ hmodule),
      or_iff_right (ne_dotted (h.plain _ hmodule) n x)]
  refine h.change (h.toShelved.definedIn hmodule (h.not_dotted _ _) content doc) hroot
    (fun n x hn hne => ?_) fun hother x => ?_
  · rw [hbound n x hn, or_iff_right fun heq => hne heq.1]
  · have hother : shelf module ≠ .other := mt Shelf.ensured_insert_eq_other_iff.2 hother
    rw [hbound module x hmodule, h.bound_iff_mem hmodule hroot hother,
      Shelf.mem_ids_ensured_insert hother, eq_self, true_and]

/-- The names that a call about a member of the root module changes, among those of members. -/
theorem dotted_mem_rootNames {n x : String} (hn : '.' ∉ n.toList) (hx : n ++ "." ++ x ≠ id) :
    n ++ "." ++ x ∈ [id, "@." ++ id, "root." ++ id] ↔ n ∈ rootNames ∧ x = id := by
  have hat : "@." ++ id = "@" ++ "." ++ id := rfl
  have hroot : "root." ++ id = "root" ++ "." ++ id := rfl
  simp only [List.mem_cons, List.not_mem_nil, or_false, hat, hroot, rootNames,
    dotted_inj hn (show '.' ∉ "@".toList by decide),
    dotted_inj hn (show '.' ∉ "root".toList by decide)]
  grind

/-- Where a list is left by a definition in the root module, there was no other thing before. -/
theorem rootDefined_ne_other {n : String} (h : Shelved.rootDefined shelf id n ≠ .other) :
    n ≠ id ∧ shelf n ≠ .other ∧ ∀ x, x ∈ (Shelved.rootDefined shelf id n).ids ↔
      n ∈ rootNames ∧ x = id ∨ x ∈ (shelf n).ids := by
  unfold Shelved.rootDefined at h ⊢
  by_cases hid : n = id
  · exact absurd (if_pos hid) h
  rw [if_neg hid] at h ⊢
  by_cases hroot : n ∈ rootNames
  · rw [if_pos hroot] at h ⊢
    have hother : shelf n ≠ .other := mt Shelf.ensured_insert_eq_other_iff.2 h
    refine ⟨hid, hother, fun x => ?_⟩
    rw [Shelf.mem_ids_ensured_insert hother, and_iff_right hroot]
  · rw [if_neg hroot] at h ⊢
    exact ⟨hid, h, fun x => by simp [hroot]⟩

/-- A definition in the root module keeps the lists in step, and the member is not gone any more. -/
theorem definedRoot (h : InStep U gone listed shelf m) (hroot : U "root") (hat : U "@")
    (hid : ∀ n x, U n → n ++ "." ++ x = id → shelf n = .other) {content : Value}
    (hcontent : U id → content.hasItems = false) (doc : Value) :
    InStep U (gone.filter (· ≠ id)) (id :: listed) (Shelved.rootDefined shelf id)
      (m.definedRoot id content doc) where
  toShelved := h.toShelved.definedRoot hroot hat ⟨h.not_dotted "root" id, h.not_dotted "@" id⟩
    hcontent doc
  plain := h.plain
  bound_iff n hn hshelf x := by
    obtain ⟨-, hother, hids⟩ := rootDefined_ne_other hshelf
    have hne : n ++ "." ++ x ≠ id := fun heq => hother (hid n x hn heq)
    have hnotRoot : n ++ "." ++ x ∉ ["@", "root"] := fun hmem =>
      h.not_dotted n x (by simp only [List.mem_cons, List.not_mem_nil, or_false] at hmem; grind)
    rw [isSome_global?_definedRoot h.outermost, dotted_mem_rootNames (h.plain n hn) hne, hids,
      h.bound_iff n hn hother]
    simp only [List.mem_filter, decide_eq_true_eq]
    grind
  mem_ids_iff n hn hU hshelf x := by
    obtain ⟨-, hother, hids⟩ := rootDefined_ne_other hshelf
    rw [hids, and_iff_right hn, h.mem_ids_iff n hn hU hother, List.mem_cons]

/-- A member that is removed from the root module stays on the list, as one that is gone. -/
theorem undefinedRoot (h : InStep U gone listed shelf m) (hid : ¬ U id) (hplain : '.' ∉ id.toList) :
    InStep U (id :: gone) listed shelf (m.undefinedRoot id) where
  toShelved := h.toShelved.undefinedRoot (by
    simp only [List.forall_mem_cons, List.not_mem_nil, false_implies, implies_true, and_true]
    exact ⟨hid, h.not_dotted "@" id, h.not_dotted "root" id⟩)
  plain := h.plain
  bound_iff n hn hshelf x := by
    have hne : n ++ "." ++ x ≠ id := ne_dotted hplain n x
    rw [isSome_global?_undefinedRoot h.outermost, dotted_mem_rootNames (h.plain n hn) hne,
      h.bound_iff n hn hshelf]
    grind
  mem_ids_iff := h.mem_ids_iff

/-- The list of a module without a member. -/
theorem shelved_unlisted (h : InStep U gone listed shelf m) (hmodule : U module) {ids : List String}
    (hs : shelf module = .list ids) (id : String) :
    Shelved U (Function.update shelf module (.list (ids.erase id)))
      (if id ∈ ids then m.relisted module (ids.erase id) else m) := by
  have hshelf := h.onShelf module hmodule
  rw [hs] at hshelf
  split
  · exact h.toShelved.newList module (hshelf.1.erase id)
  · next hid =>
    rw [List.erase_of_not_mem hid, ← hs, Function.update_eq_self]
    exact h.toShelved

theorem global?_unlisted (hm : m.scopes.Outermost m.root) (ids : List String) {y : String}
    (hy : y ≠ module) :
    (if id ∈ ids then m.relisted module (ids.erase id) else m).global? y = m.global? y := by
  split
  · rw [global?_relisted hm, if_neg (Ne.symm hy)]
  · rfl

/-- A member leaves the list of its module, and its name is forgotten. -/
theorem removed (h : InStep U gone listed shelf m) (hmodule : U module)
    (hroot : module ∉ rootNames) {ids : List String} (hs : shelf module = .list ids) :
    InStep U gone listed (Function.update shelf module (.list (ids.erase id)))
      ((if id ∈ ids then m.relisted module (ids.erase id) else m).forgotten
        (module ++ "." ++ id)) := by
  have hunlisted := h.shelved_unlisted hmodule hs id
  have hnodup : ids.Nodup := (hs ▸ h.onShelf module hmodule : m.OnShelf module (.list ids)).1
  have hbound (n x : String) (hn : U n) :
      (((if id ∈ ids then m.relisted module (ids.erase id) else m).forgotten
        (module ++ "." ++ id)).global? (n ++ "." ++ x)).isSome ↔
        ¬ (n = module ∧ x = id) ∧ (m.global? (n ++ "." ++ x)).isSome := by
    rw [isSome_global?_forgotten hunlisted.outermost, ne_eq,
      dotted_inj (h.plain _ hn) (h.plain _ hmodule),
      global?_unlisted h.outermost ids (ne_dotted (h.plain _ hmodule) n x)]
  refine h.change (hunlisted.forgotten_of_not (h.not_dotted module id)) hroot
    (fun n x hn hne => ?_) fun _ x => ?_
  · rw [hbound n x hn, and_iff_right fun heq => hne heq.1]
  · rw [hbound module x hmodule, h.bound_iff_mem hmodule hroot (by simp [hs]), hs]
    simp only [Shelf.ids, hnodup.mem_erase_iff, true_and, ne_eq]

/-- A module is forgotten with all its members. -/
theorem cleared (h : InStep U gone listed shelf m) (hmodule : U module)
    (hroot : module ∉ rootNames) {ids : List String} (hs : shelf module = .list ids) :
    InStep U gone listed (Function.update shelf module .missing)
      ((m.emptied module ids).forgotten module) := by
  have hemptied := h.toShelved.emptied (h.not_dotted module) ids
  have hbound (n x : String) (hn : U n) :
      (((m.emptied module ids).forgotten module).global? (n ++ "." ++ x)).isSome ↔
        ¬ (n = module ∧ x ∈ ids) ∧ (m.global? (n ++ "." ++ x)).isSome := by
    rw [isSome_global?_forgotten hemptied.outermost,
      and_iff_right (ne_dotted (h.plain _ hmodule) n x), isSome_global?_emptied h.outermost]
    simp only [ne_eq, dotted_inj (h.plain _ hn) (h.plain _ hmodule)]
    grind
  refine h.change (hemptied.forgotten module) hroot (fun n x hn hne => ?_) fun _ x => ?_
  · rw [hbound n x hn, and_iff_right fun heq => hne heq.1]
  · rw [hbound module x hmodule, h.bound_iff_mem hmodule hroot (by simp [hs]), hs]
    simp [Shelf.ids]

/-! ### Calls -/

theorem isRootModule_text (module : String) :
    Exec.isRootModule (.text module) = decide (module ∈ rootNames) := by
  simp only [Exec.isRootModule, rootNames, List.mem_cons, List.not_mem_nil, or_false,
    Bool.decide_or]
  rfl

/-- What is something else than a list stays so. -/
theorem rootDefined_other {n : String} (hn : shelf n = .other) :
    Shelved.rootDefined shelf id n = .other := by
  unfold Shelved.rootDefined
  rw [hn]
  split
  · rfl
  · split <;> rfl

/-- A completed definition. Its member is something else than a list from then on, if it is one of
the root module. -/
theorem define (h : InStep U gone listed shelf m) (hroot : U "root") (hat : U "@")
    (hmodule : U module) {content doc : Value}
    (hspares : (ModuleCall.define module id content doc).Spares U)
    (hid : module ∈ rootNames → ∀ n x, U n → n ++ "." ++ x = id → shelf n = .other)
    (hrun : (ModuleCall.define module id content doc).run.run m = (.ok (), m')) :
    ∃ shelf', InStep U ((ModuleCall.define module id content doc).withdraw gone)
        ((ModuleCall.define module id content doc).record listed) shelf' m' ∧
      ∀ n, (module ∈ rootNames ∧ n = id ∨ shelf n = .other) → shelf' n = .other := by
  have hisRoot := isRootModule_text module
  by_cases hmem : module ∈ rootNames
  · rw [decide_eq_true hmem] at hisRoot
    obtain rfl := Exec.run_defineRoot_eq_ok h.outermost hisRoot hrun
    refine ⟨Shelved.rootDefined shelf id, ?_, fun n hn => ?_⟩
    · simpa [ModuleCall.withdraw, ModuleCall.record, hmem] using
        h.definedRoot hroot hat (hid hmem) (hspares hmem) doc
    · obtain ⟨-, rfl⟩ | hn := hn
      · exact if_pos rfl
      · exact rootDefined_other hn
  · rw [decide_eq_false hmem] at hisRoot
    obtain rfl := Exec.run_define_eq_ok h.outermost hisRoot hrun
    refine ⟨Function.update shelf module ((shelf module).ensured.insert id), ?_, fun n hn => ?_⟩
    · simpa [ModuleCall.withdraw, ModuleCall.record, hmem] using
        h.definedIn hmodule hmem content doc
    · have hn : shelf n = .other := hn.resolve_left fun hroot => hmem hroot.1
      rw [Function.update_apply]
      split
      · next heq => rw [← heq, hn]; rfl
      · exact hn

/-- A completed removal. -/
theorem undefine (h : InStep U gone listed shelf m) (hmodule : U module) {id : Option String}
    (hplain : ∀ x ∈ id, '.' ∉ x.toList) (hspares : (ModuleCall.undefine module id).Spares U)
    (hrun : (ModuleCall.undefine module id).run.run m = (.ok (), m')) :
    ∃ shelf', InStep U ((ModuleCall.undefine module id).withdraw gone)
      ((ModuleCall.undefine module id).record listed) shelf' m' := by
  have hisRoot := isRootModule_text module
  by_cases hmem : module ∈ rootNames
  · rw [decide_eq_true hmem] at hisRoot
    have hdot : '.' ∉ (id.getD "None").toList := by
      cases id with
      | none => decide
      | some id => exact hplain id rfl
    obtain rfl := (Prod.mk.inj ((Exec.run_undefineRoot hisRoot id m).symm.trans hrun)).2
    exact ⟨shelf, by simpa [ModuleCall.withdraw, ModuleCall.record, hmem]
      using h.undefinedRoot (hspares hmem) hdot⟩
  · rw [decide_eq_false hmem] at hisRoot
    suffices ∃ shelf', InStep U gone listed shelf' m' by
      simpa [ModuleCall.withdraw, ModuleCall.record, hmem] using this
    have hshelf := h.onShelf module hmodule
    cases hs : shelf module with
    | missing =>
      rw [hs] at hshelf
      have hsame := Exec.run_undefine_missing h.outermost hisRoot hshelf id
      obtain rfl := (Prod.mk.inj (hsame.symm.trans hrun)).2
      exact ⟨shelf, h⟩
    | list ids =>
      rw [hs] at hshelf
      obtain ⟨-, r, hlist⟩ := hshelf
      by_cases hwhole : id = none ∨ id = some module
      · have hcleared := Exec.run_undefine_whole h.outermost hisRoot hlist hwhole
        obtain rfl := (Prod.mk.inj (hcleared.symm.trans hrun)).2
        exact ⟨_, h.cleared hmodule hmem hs⟩
      · obtain ⟨x, rfl⟩ := Option.ne_none_iff_exists'.1 fun hnone => hwhole (.inl hnone)
        have hx : x ≠ module := fun heq => hwhole (.inr (congrArg some heq))
        obtain rfl := Exec.run_undefine_member_eq_ok h.outermost hisRoot hlist hx hrun
        exact ⟨_, h.removed hmodule hmem hs⟩
    | other =>
      rw [hs] at hshelf
      obtain ⟨v, hv, hitems⟩ := hshelf
      exact absurd hrun (Exec.run_undefine_other h.outermost hisRoot hv hitems id)

/-- One call after the other. -/
theorem calls {calls : List ModuleCall} (h : InStep U gone listed shelf m) (hroot : U "root")
    (hat : U "@") (hmodules : ∀ c ∈ calls, U c.module)
    (hplain : ∀ c ∈ calls, ∀ x ∈ c.names, '.' ∉ x.toList) (hspares : ∀ c ∈ calls, c.Spares U)
    (hrun : (calls.forM ModuleCall.run).run m = (.ok (), m')) :
    ∃ shelf', InStep U (calls.foldl ModuleCall.withdraw gone)
      (calls.foldl ModuleCall.record listed) shelf' m' := by
  induction calls generalizing gone listed shelf m with
  | nil =>
    cases hrun
    exact ⟨shelf, h⟩
  | cons c calls ih =>
    rw [List.forall_mem_cons] at hmodules hplain hspares
    change (c.run >>= fun _ => calls.forM ModuleCall.run).run m = _ at hrun
    obtain ⟨_, m₁, hcall, hrun⟩ := Exec.run_bind_eq_ok.1 hrun
    obtain ⟨shelf₁, h₁⟩ : ∃ shelf', InStep U (c.withdraw gone) (c.record listed) shelf' m₁ := by
      cases c with
      | define module id content doc =>
        have hid : '.' ∉ id.toList := hplain.1 id (by simp [ModuleCall.names])
        obtain ⟨shelf₁, h₁, -⟩ := h.define hroot hat hmodules.1 hspares.1
          (fun _ n x _ heq => absurd heq (ne_dotted hid n x)) hcall
        exact ⟨shelf₁, h₁⟩
      | undefine module id =>
        have hid (x : String) (hx : x ∈ id) : '.' ∉ x.toList :=
          hplain.1 x (List.mem_cons_of_mem _ (Option.mem_toList.2 hx))
        exact h.undefine hmodules.1 hid hspares.1 hcall
    exact ih h₁ hmodules.2 hplain.2 hspares.2 hrun

end InStep

end Machine

/-! ### A fresh interpreter -/

/-- A name without dots that is not the input, which has lines as items. -/
def IsPlain (n : String) : Prop := '.' ∉ n.toList ∧ n ≠ "stdin"

instance (n : String) : Decidable (IsPlain n) := inferInstanceAs (Decidable (_ ∧ _))

namespace Machine

/-- The root module has `listed` on its list, and none of these names is one of a list. -/
def Settled (listed : List String) (m : Machine) : Prop :=
  ∃ shelf, InStep IsPlain [] listed shelf m ∧ ∀ n ∈ listed, shelf n = .other

theorem Settled.congr {listed : List String} {m m' : Machine} (h : m.Settled listed)
    (hscopes : m'.scopes = m.scopes) (hroot : m'.root = m.root) (hstore : m'.store = m.store) :
    m'.Settled listed := by
  obtain ⟨shelf, h, hlisted⟩ := h
  exact ⟨shelf, h.congr hscopes hroot hstore, hlisted⟩

end Machine

namespace Exec

open Machine

variable {listed : List String} {m m' : Machine} {module id : String}

def recorded (listed : List String) (d : String × String) : List String :=
  if d.1 ∈ rootNames then d.2 :: listed else listed

/-- A definition that gives no member to the lists of other modules: if there are dots in the name
of a member of the root module, then the part before the first of them is the name of a member. -/
def Fitting (listed : List String) (d : String × String) : Prop :=
  IsPlain d.1 ∧ (d.1 ∈ rootNames → '.' ∈ d.2.toList →
    String.ofList (d.2.toList.takeWhile (· ≠ '.')) ∈ listed)

instance (listed : List String) (d : String × String) : Decidable (Fitting listed d) :=
  inferInstanceAs (Decidable (_ ∧ _))

def FittingAll : List String → List (String × String) → Prop
  | _, [] => True
  | listed, d :: ds => Fitting listed d ∧ FittingAll (recorded listed d) ds

instance decidableFittingAll : (listed : List String) → (ds : List (String × String)) →
    Decidable (FittingAll listed ds)
  | _, [] => .isTrue trivial
  | _, _ :: ds => @instDecidableAnd _ _ _ (decidableFittingAll _ ds)

def Bare (d : Definition) : Prop :=
  d.module ∈ rootNames → IsPlain d.id → d.content.hasItems = false

instance (d : Definition) : Decidable (Bare d) := inferInstanceAs (Decidable (_ → _ → _))

/-- A definition that fits settles one more member. -/
theorem settled_define (hm : m.Settled listed) (hfits : Fitting listed (module, id))
    {content doc : Value} (hbare : Bare ⟨module, id, content, none⟩)
    (hrun : (define (.text module) (.text id) content doc).run m = (.ok (), m')) :
    m'.Settled (recorded listed (module, id)) := by
  obtain ⟨shelf, h, hlisted⟩ := hm
  have hid (hroot : module ∈ rootNames) (n x : String) (hn : IsPlain n)
      (heq : n ++ "." ++ x = id) : shelf n = .other := by
    have hfirst : String.ofList (id.toList.takeWhile (· ≠ '.')) = n := by
      subst heq
      rw [String.toList_append, String.toList_append, List.append_assoc,
        List.takeWhile_append_of_pos fun c hc => by grind [IsPlain]]
      simp
    refine hlisted n (hfirst ▸ hfits.2 hroot ?_)
    subst heq
    simp
  obtain ⟨shelf', h', hother⟩ := h.define (by decide) (by decide) hfits.1 hbare hid hrun
  refine ⟨shelf', ?_, fun n hn => hother n ?_⟩
  · simpa [ModuleCall.withdraw, ModuleCall.record, recorded] using h'
  · unfold recorded at hn
    split at hn
    · next hroot => exact (List.mem_cons.1 hn).imp (⟨hroot, ·⟩) (hlisted n)
    · exact .inr (hlisted n hn)

/-- By induction on the definitions. -/
theorem settled_defineAll {ds : List Definition} (hm : m.Settled listed)
    (hfits : FittingAll listed (names ds)) (hbare : ∀ d ∈ ds, Bare d)
    (hrun : (defineAll ds).run m = (.ok (), m')) :
    m'.Settled ((names ds).foldl recorded listed) := by
  induction ds generalizing listed m with
  | nil =>
    cases hrun
    exact hm
  | cons d ds ih =>
    rw [List.forall_mem_cons] at hbare
    rw [defineAll_cons] at hrun
    obtain ⟨_, m₁, hdefine, hrun⟩ := run_bind_eq_ok.1 hrun
    exact ih (settled_define hm hfits.1 hbare.1 hdefine) hfits.2 hbare.2 hrun

def initial (options : Table Value) (optionsDict : Value) : List Definition :=
  Definition.core ++ (Definition.extra options optionsDict ++ (Definition.environment ++
    (Definition.searchPaths ++ (Definition.imports ++ Definition.docs))))

def initialMembers : List String := (names (initial [] .none)).foldl recorded []

theorem bare_product (options : Table Value) (optionsDict : Value) :
    ∀ d ∈ Definition.product options optionsDict, Bare d := by
  have hmodule : ∀ d ∈ Definition.product options optionsDict, d.module = "ypsh" := by
    simp [Definition.product]
  intro d hd hroot
  rw [hmodule d hd] at hroot
  exact absurd hroot (by decide)

theorem bare_extra (options : Table Value) (optionsDict : Value) :
    ∀ d ∈ Definition.extra options optionsDict, Bare d := by
  simp only [Definition.extra, List.forall_mem_append]
  exact ⟨⟨⟨by decide, by decide⟩, bare_product options optionsDict⟩, by decide⟩

/-- Search paths have no part in the members. -/
theorem settled_addSearchPaths (hm : m.Settled listed) {paths : List String}
    (hrun : (addSearchPaths paths).run m = (.ok (), m')) : m'.Settled listed := by
  induction paths generalizing m with
  | nil =>
    cases hrun
    exact hm
  | cons p paths ih =>
    obtain ⟨world, hstep, -⟩ := run_addSearchPath p m
    rw [addSearchPaths_cons, run_bind, hstep] at hrun
    have hm₁ : ({ m with world } : Machine).Settled listed := hm.congr rfl rfl rfl
    exact ih hm₁ hrun

theorem settled_prelude (hm : m.Settled []) (hrun : prelude.run m = (.ok (), m')) :
    m'.Settled ((names (Definition.core ++ (Definition.extra [] .none ++
      Definition.environment))).foldl recorded []) := by
  obtain ⟨_, m₁, hcore, hrun⟩ := run_bind_eq_ok.1 hrun
  obtain ⟨_, m₂, hextra, hrun⟩ := run_bind_eq_ok.1 hrun
  obtain ⟨_, m₃, henv, hrun⟩ := run_bind_eq_ok.1 hrun
  rw [enableExtra, run_bind, run_get] at hextra
  have hm₁ := settled_defineAll hm (by decide) (by decide) hcore
  have hm₂ := settled_defineAll hm₁ (by rw [names_extra]; decide) (bare_extra _ _) hextra
  rw [names_extra] at hm₂
  have hm₃ := settled_defineAll hm₂ (by decide) (by decide) henv
  cases hrun
  simp only [names, List.map_append, List.foldl_append] at hm₃ ⊢
  exact hm₃.congr rfl rfl rfl

/-- The members of the root module of a fresh interpreter. -/
theorem settled_enable (hm : m.Settled []) (hrun : (enable .default).run m = (.ok (), m')) :
    m'.Settled initialMembers := by
  rw [enable_default] at hrun
  obtain ⟨_, m₁, hprelude, hrun⟩ := run_bind_eq_ok.1 hrun
  obtain ⟨_, m₂, hsearch, hrun⟩ := run_bind_eq_ok.1 hrun
  obtain ⟨paths, m₃, hpaths, hrun⟩ := run_bind_eq_ok.1 hrun
  obtain ⟨_, m₄, hadd, hrun⟩ := run_bind_eq_ok.1 hrun
  obtain ⟨_, m₅, himports, hdocs⟩ := run_bind_eq_ok.1 hrun
  have hm₂ := settled_defineAll (settled_prelude hm hprelude) (by decide) (by decide) hsearch
  have hm₃ : m₃ = m₂ := (Prod.mk.inj hpaths).2.symm
  subst hm₃
  have hm₄ := settled_addSearchPaths hm₂ hadd
  have hm₅ := settled_defineAll hm₄ (by decide) (by decide) himports
  have hm₆ := settled_defineAll hm₅ (by decide) (by decide) hdocs
  simpa only [initialMembers, initial, names, List.map_append, List.foldl_append] using hm₆

/-- Without globals, all lists are in step. -/
theorem settled_new (m : Machine) :
    ({ m with scopes := (m.scopes.new none).2, root := m.scopes.size } : Machine).Settled [] := by
  have hempty (x : String) : ({ m with
      scopes := (m.scopes.new none).2, root := m.scopes.size } : Machine).global? x = none := by
    simp [global?, Scopes.scope_new, Table.get?]
  refine ⟨fun _ => .missing, ?_, fun _ hn => absurd hn List.not_mem_nil⟩
  refine { outermost := ⟨by simp, ?_⟩, onShelf := fun n _ => hempty n, apart := ?_,
           plain := fun n hn => hn.1, bound_iff := ?_, mem_ids_iff := ?_ }
  · simp [Scopes.scope_new]
  · intro n n' r _ _ hr
    cases (hempty n).symm.trans hr
  · intro n _ _ id
    rw [hempty]
    simp [Shelf.ids]
  · simp [Shelf.ids]

/-- A fresh interpreter has all its lists in step. -/
theorem settled_startInterpreter (hrun : startInterpreter.run m = (.ok (), m')) :
    m'.Settled initialMembers := by
  obtain ⟨_, m₁, hrestart, hrun⟩ := run_bind_eq_ok.1 hrun
  obtain ⟨_, _, hnew, hrestart⟩ := run_bind_eq_ok.1 hrestart
  cases (run_newScope none m).symm.trans hnew
  obtain ⟨_, m₂, hset, henable⟩ := run_bind_eq_ok.1 hrestart
  have hm₂ : m₂.Settled [] := (Prod.mk.inj hset).2 ▸ settled_new m
  have hm₁ := settled_enable hm₂ henable
  have hcurrent : { m₁ with current := m₁.root } = m' := (Prod.mk.inj hrun).2
  rw [← hcurrent]
  exact hm₁.congr rfl rfl rfl

/-- After any completed calls, the name of a member that is on a list is bound, and the other way
round, unless it is a member of the root module that has been defined and then removed: this one
stays on the list. -/
theorem listed_iff_bound_iff {m₀ : Machine} (hstart : startInterpreter.run m₀ = (.ok (), m))
    {calls : List ModuleCall} (hplain : ∀ c ∈ calls, ∀ x ∈ c.names, '.' ∉ x.toList)
    (hinput : "stdin" ∉ calls.map ModuleCall.module)
    (hspares : ∀ c ∈ calls, c.Spares (· ∈ rootNames ++ calls.map ModuleCall.module))
    (hrun : (calls.forM ModuleCall.run).run m = (.ok (), m')) {n : String}
    (hn : n ∈ rootNames ++ calls.map ModuleCall.module) {r : Ref} {items : Array Value}
    (hlist : m'.list? n = some (r, items)) (id : String) :
    ((.text id ∈ items ↔ (m'.global? (n ++ "." ++ id)).isSome) ↔
      ¬ (n ∈ rootNames ∧ id ∈ calls.foldl ModuleCall.withdraw [] ∧
        id ∈ calls.foldl ModuleCall.record initialMembers)) ∧
    ((m'.global? (n ++ "." ++ id)).isSome → .text id ∈ items) := by
  obtain ⟨shelf, hm, -⟩ := settled_startInterpreter hstart
  have hused (x : String) (hx : x ∈ rootNames ++ calls.map ModuleCall.module) : IsPlain x := by
    obtain hx | hx := List.mem_append.1 hx
    · exact (by decide : ∀ x ∈ rootNames, IsPlain x) x hx
    · obtain ⟨c, hc, rfl⟩ := List.mem_map.1 hx
      refine ⟨hplain c hc c.module ?_, fun heq => hinput (heq ▸ hx)⟩
      cases c <;> exact List.mem_cons_self
  obtain ⟨shelf', hm'⟩ := (hm.mono hused).calls (by simp [rootNames]) (by simp [rootNames])
    (fun c hc => List.mem_append_right _ (List.mem_map_of_mem hc)) hplain hspares hrun
  obtain ⟨ids, hs, -, rfl⟩ := (hm'.onShelf n hn).eq_list hlist
  have hother : shelf' n ≠ .other := by simp [hs]
  have hmem : .text id ∈ (ids.map Value.text).toArray ↔ id ∈ (shelf' n).ids := by
    simp [hs, Shelf.ids]
  have hbound := hm'.bound_iff n hn hother id
  have hlisted (hroot : n ∈ rootNames) := hm'.mem_ids_iff n hroot hn hother id
  rw [hmem, hbound]
  grind

/-- A member of the root module that is removed stays on the list without a value. -/
theorem listed_iff_bound_iff_withdrawn : ∃ m m' r items,
    startInterpreter.run {} = (.ok (), m) ∧
    ([ModuleCall.define "@" "x" (.int 1) .none, .undefine "@" (some "x")].forM
      ModuleCall.run).run m = (.ok (), m') ∧
    m'.list? "root" = some (r, items) ∧ .text "x" ∈ items ∧ m'.global? "root.x" = none := by
  obtain ⟨start, -, -, _, m, hstart, hm⟩ := furnished_startInterpreter {}
  obtain ⟨_, m₁, hdefine, hm₁⟩ := furnished_define hm (by decide : Fits _ _ "@" "x") (.int 1) .none
  have hat : isRootModule (.text "@") = true := by decide
  have hundefine : (undefine (.text "@") (.text "x")).run m₁ = (.ok (), m₁.undefinedRoot "x") :=
    run_undefineRoot hat (some "x") m₁
  have hbound : (m₁.global? "root").isSome := by
    rw [run_defineRoot_eq_ok hm.globalsOpen.outermost hat hdefine,
      isSome_global?_definedRoot hm.globalsOpen.outermost]
    simp
  obtain ⟨r, items, hroot, hitems⟩ : m₁.IsList "root" :=
    (hm₁.lists "root" (by decide)).resolve_left fun hnone => by simp [hnone] at hbound
  have hlist : (m₁.undefinedRoot "x").list? "root" = some (r, items) := by
    refine list?_eq_some_iff.2 ⟨?_, hitems⟩
    rw [global?_undefinedRoot hm₁.globalsOpen.outermost, if_neg (by decide), hroot]
  have hrun : ([ModuleCall.define "@" "x" (.int 1) .none, .undefine "@" (some "x")].forM
      ModuleCall.run).run m = (.ok (), m₁.undefinedRoot "x") := by
    change (define (.text "@") (.text "x") (.int 1) .none >>= _).run m = _
    rw [run_bind, hdefine]
    change (undefine (.text "@") (.text "x") >>= _).run m₁ = _
    rw [run_bind, hundefine]
    rfl
  obtain ⟨hiff, himp⟩ := listed_iff_bound_iff hstart (by decide) (by decide)
    (by simp [ModuleCall.Spares, Value.hasItems, rootNames, ModuleCall.module]) hrun
    (by decide : "root" ∈ _) hlist "x"
  have hdiffer : ¬ (.text "x" ∈ items ↔ _) := mt hiff.1 (not_not_intro (by decide))
  have hlisted : .text "x" ∈ items :=
    by_contra fun hnot => hdiffer (iff_of_false hnot (mt himp hnot))
  exact ⟨m, _, r, items, hstart, hrun, hlist, hlisted,
    Option.not_isSome_iff_eq_none.1 fun hsome => hdiffer (iff_of_true hlisted hsome)⟩

end Exec

end ScriptLang
