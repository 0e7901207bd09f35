import ScriptLang.Proofs.Run.Undefine

/-!
# What becomes of new names

A library runs in the globals. Then the names that are new are sorted out: those that are wanted
become members of a module, and the others are dropped. All of this is decided by names. So a global
that was there before stays where it is, with the value that the library has given it.
-/

namespace ScriptLang

namespace Machine

variable {A : String} {k : String} {ks : List String} {m m₁ m' : Machine}

/-! ### Moving globals -/

/-- The globals `ks` have become members of the module `A`, and no other global has changed but the
module itself. -/
structure Moved (A : String) (ks : List String) (m m' : Machine) : Prop where
  root : m'.root = m.root
  outermost : m'.scopes.Outermost m'.root
  gone : ∀ k ∈ ks, m'.global? k = none
  moved : ∀ k ∈ ks, m'.global? (A ++ "." ++ k) = m.global? k
  others : ∀ x ∉ ks, x ≠ A → (∀ k ∈ ks, x ≠ A ++ "." ++ k) → m'.global? x = m.global? x

theorem length_dotted (A k : String) : (A ++ "." ++ k).length = A.length + 1 + k.length := by
  rw [String.length_append, String.length_append]
  rfl

theorem dotted_ne_module (A k : String) : A ++ "." ++ k ≠ A := by
  intro h
  have hlength := congrArg String.length h
  rw [length_dotted] at hlength
  omega

theorem dotted_ne_member (A k : String) : A ++ "." ++ k ≠ k := by
  intro h
  have hlength := congrArg String.length h
  rw [length_dotted] at hlength
  omega

theorem dotted_right_inj {k' : String} : A ++ "." ++ k = A ++ "." ++ k' ↔ k = k' := by
  refine ⟨fun h => String.ext ?_, fun h => by rw [h]⟩
  simpa using congrArg String.toList h

theorem moved_nil (hm : m.scopes.Outermost m.root) : Moved A [] m m :=
  ⟨rfl, hm, List.forall_mem_nil _, List.forall_mem_nil _, fun _ _ _ _ => rfl⟩

/-- Moving a global into a module makes it a member and unbinds it. -/
theorem moved_definedIn (hm : m.scopes.Outermost m.root) (hk : k ≠ A) {v : Value}
    (hv : m.global? k = some v) (doc : Value) :
    Moved A [k] m ((m.definedIn A k v doc).unsetGlobal k) := by
  have houter := outermost_definedIn hm A k v doc
  have hglobal (x : String) (hx : x ≠ A) : ((m.definedIn A k v doc).unsetGlobal k).global? x =
      if k = x then none else if A ++ "." ++ k = x then some v else m.global? x := by
    rw [global?_unsetGlobal houter, global?_definedIn hm, global?_ensured hm,
      if_neg fun h : A = x ∧ _ => hx h.1.symm]
  refine ⟨?_, outermost_unsetGlobal houter k, ?_, ?_, fun x hx hA hnames => ?_⟩
  · rw [root_unsetGlobal, root_definedIn]
  · rw [List.forall_mem_singleton, hglobal k hk, if_pos rfl]
  · rw [List.forall_mem_singleton, hglobal _ (dotted_ne_module A k),
      if_neg (dotted_ne_member A k).symm, if_pos rfl, hv]
  · rw [List.mem_singleton] at hx
    rw [List.forall_mem_singleton] at hnames
    rw [hglobal x hA, if_neg (Ne.symm hx), if_neg (Ne.symm hnames)]

/-- One global after the other. -/
theorem Moved.cons (h : Moved A [k] m m₁) (h' : Moved A ks m₁ m') (hk : k ∉ ks)
    (hmodule : ∀ x ∈ k :: ks, x ≠ A)
    (hnames : ∀ x ∈ k :: ks, ∀ y ∈ k :: ks, x ≠ A ++ "." ++ y) : Moved A (k :: ks) m m' := by
  -- the others wait with their values while the first one is moved
  have hkept (x : String) (hx : x ∈ ks) : m₁.global? x = m.global? x := by
    have hmem := List.mem_cons_of_mem k hx
    refine h.others x (fun hin => hk ?_) (hmodule x hmem) ?_
    · rwa [← List.mem_singleton.1 hin]
    · rw [List.forall_mem_singleton]
      exact hnames x hmem k List.mem_cons_self
  refine ⟨h'.root.trans h.root, h'.outermost, ?_, ?_, fun x hx hA hdotted => ?_⟩
  · rw [List.forall_mem_cons]
    refine ⟨?_, h'.gone⟩
    rw [h'.others k hk (hmodule k List.mem_cons_self) fun y hy =>
      hnames k List.mem_cons_self y (List.mem_cons_of_mem k hy)]
    exact h.gone k List.mem_cons_self
  · rw [List.forall_mem_cons]
    refine ⟨?_, fun x hx => (h'.moved x hx).trans (hkept x hx)⟩
    rw [h'.others _ _ (dotted_ne_module A k) fun y hy heq => hk (dotted_right_inj.1 heq ▸ hy)]
    · exact h.moved k List.mem_cons_self
    · exact fun hin => hnames _ (List.mem_cons_of_mem k hin) k List.mem_cons_self rfl
  · rw [List.mem_cons, not_or] at hx
    rw [List.forall_mem_cons] at hdotted
    rw [h'.others x hx.2 hA hdotted.2]
    refine h.others x (fun hin => hx.1 (List.mem_singleton.1 hin)) hA ?_
    rw [List.forall_mem_singleton]
    exact hdotted.1

/-! ### Dropping globals -/

def dropped (m : Machine) (ks : List String) : Machine := ks.foldl unsetGlobal m

/-- Dropping globals unbinds these and no others. -/
theorem global?_dropped (hm : m.scopes.Outermost m.root) (ks : List String) (x : String) :
    (m.dropped ks).global? x = if x ∈ ks then none else m.global? x := by
  rw [dropped]
  induction ks generalizing m with
  | nil => rfl
  | cons k ks ih =>
    rw [List.foldl_cons, ih (outermost_unsetGlobal hm k), global?_unsetGlobal hm]
    simp only [List.mem_cons, eq_comm (a := k)]
    grind

/-! ### What is new, and what is wanted of it -/

/-- What becomes of the globals if those that are `fresh` are sorted out: they are gone, and those
of them that are `wanted` are members of the module `A`. All others are as they were, but for the
module. -/
structure Imported (A : String) (fresh wanted : String → Prop) (m m' : Machine) : Prop where
  gone : ∀ n, fresh n → m'.global? n = none
  moved : ∀ n, fresh n → wanted n → m'.global? (A ++ "." ++ n) = m.global? n
  others : ∀ x, ¬ fresh x → x ≠ A → (∀ n, fresh n → wanted n → x ≠ A ++ "." ++ n) →
    m'.global? x = m.global? x

theorem Imported.congr {fresh fresh' wanted wanted' : String → Prop}
    (h : Imported A fresh wanted m m') (hfresh : ∀ n, fresh n ↔ fresh' n)
    (hwanted : ∀ n, wanted n ↔ wanted' n) : Imported A fresh' wanted' m m' := by
  obtain rfl : fresh = fresh' := funext fun n => propext (hfresh n)
  obtain rfl : wanted = wanted' := funext fun n => propext (hwanted n)
  exact h

/-- First the wanted names are moved, and then the others are dropped. -/
theorem Moved.imported {fresh : List String} {isWanted : String → Bool}
    (h : Moved A (fresh.filter isWanted) m m₁) (hnames : ∀ n ∈ fresh, ∀ k, n ≠ A ++ "." ++ k) :
    Imported A (· ∈ fresh) (isWanted · = true) m
      (m₁.dropped (fresh.filter fun n => !isWanted n)) := by
  have hglobal := global?_dropped h.outermost (fresh.filter fun n => !isWanted n)
  refine ⟨fun n hn => ?_, fun n hn hwanted => ?_, fun x hx hA hdotted => ?_⟩
  · rw [hglobal]
    split
    · rfl
    · next hkept =>
      exact h.gone n (List.mem_filter.2 ⟨hn, by simpa [hn] using hkept⟩)
  · rw [hglobal, if_neg fun hdrop => hnames _ (List.mem_of_mem_filter hdrop) n rfl]
    exact h.moved n (List.mem_filter.2 ⟨hn, hwanted⟩)
  · rw [hglobal, if_neg fun hdrop => hx (List.mem_of_mem_filter hdrop)]
    refine h.others x (fun hkeep => hx (List.mem_of_mem_filter hkeep)) hA fun k hk => ?_
    exact hdotted k (List.mem_of_mem_filter hk) (List.mem_filter.1 hk).2

end Machine

namespace Exec

open Machine

variable {α β : Type} {A k : String} {ks : List String} {m m₁ m' : Machine}

/-! ### Definitions do not raise errors -/

def NeverRaises (x : Exec α) : Prop := ∀ m error, (x.run m).1 ≠ .error (.raised error)

namespace NeverRaises

theorem pure (a : α) : NeverRaises (pure a : Exec α) := fun _ _ h => nomatch h

theorem get : NeverRaises (get : Exec Machine) := fun _ _ h => nomatch h

theorem modifyScopes (f : Scopes Value → Scopes Value) : NeverRaises (modifyScopes f) :=
  fun _ _ h => nomatch h

theorem bind {x : Exec α} {f : α → Exec β} (hx : NeverRaises x) (hf : ∀ a, NeverRaises (f a)) :
    NeverRaises (x >>= f) := by
  intro m error
  have hfirst := hx m error
  rw [run_bind]
  revert hfirst
  rcases x.run m with ⟨s | a, m₁⟩ <;> intro hfirst
  · exact fun h => hfirst (by cases h; rfl)
  · exact hf a m₁ error

/-- A result on the host is no error. -/
theorem host {x : HostExec α} (hx : ∀ host, ∃ a, (x.run host).1 = .ok a) :
    NeverRaises (liftM x : Exec α) := by
  intro m error h
  obtain ⟨a, ha⟩ := hx m.toHost
  rw [run_host, ha] at h
  cases h

theorem report (n : Notice) : NeverRaises (liftM (report n) : Exec Unit) := by
  intro m error h
  rw [run_host] at h
  have hrun : ((Exec.report n).run m.toHost).1 = .ok () ∨
      ∃ line, ((Exec.report n).run m.toHost).1 = .error (.reported line) := by
    change ((if !m.isQuiet then throw _ else Pure.pure _ : HostExec Unit).run m.toHost).1 = _ ∨
      ∃ line, ((if !m.isQuiet then throw _ else Pure.pure _ : HostExec Unit).run m.toHost).1 = _
    split
    · exact .inr ⟨_, rfl⟩
    · exact .inl rfl
  rcases hrun with hrun | ⟨line, hrun⟩ <;> rw [hrun] at h <;> cases h

theorem text (s : String) : NeverRaises (liftM (Exec.text (.text s)) : Exec String) := by
  intro m error h
  rw [run_text_text] at h
  cases h

theorem setDoc (key : String) (doc : Value) :
    NeverRaises (liftM (setDoc (.text key) doc) : Exec Unit) := .host fun _ => ⟨(), rfl⟩

theorem assignName (e : ScopeId) (x : String) (v : Value) : NeverRaises (assignName e x v) := by
  refine .bind .get fun m => ?_
  dsimp only
  split
  · exact .bind (.report _) fun _ => .modifyScopes _
  · exact .modifyScopes _

theorem lookup (e : ScopeId) (x : String) : NeverRaises (lookup e x) := by
  refine .bind .get fun m => ?_
  split
  · exact .pure _
  · exact .bind (.report _) fun _ => .pure _

theorem ensureModule (x : String) : NeverRaises (ensureModule x) := by
  refine .bind .get fun m => ?_
  split
  · exact .bind (.host fun _ => ⟨_, rfl⟩) fun _ => .assignName _ _ _
  · exact .pure _

theorem addMember (x : String) (id : Value) : NeverRaises (addMember x id) := by
  refine .bind .get fun m => .bind (.lookup _ _) fun v => .bind .get fun m₁ => ?_
  dsimp only
  split
  · split
    · exact .bind (.host fun _ => ⟨(), rfl⟩) fun _ => .assignName _ _ _
    · exact .pure _
  · exact .report _

/-- A definition in a module may end the program, but it raises no error. -/
theorem define (hA : isRootModule (.text A) = false) (k : String) (content doc : Value) :
    NeverRaises (define (.text A) (.text k) content doc) := by
  refine .bind .get fun m => ?_
  simp only [hA]
  change NeverRaises (Exec.ensureModule A >>= _)
  exact .bind (.ensureModule A) fun _ => .bind (.addMember _ _) fun _ => .bind (.text k) fun name =>
    .bind (.assignName _ _ _) fun _ => .setDoc _ _

end NeverRaises

/-- Moving a global into a module raises no error. -/
theorem neverRaises_moveInto (hA : isRootModule (.text A) = false) (k : String) :
    NeverRaises (moveInto (.text A) k) := by
  have hdoc (front : String) : NeverRaises (do
      return (← (liftM (doc? (.text (front ++ k))) : Exec (Option Value))).getD .none) :=
    .bind (.host fun _ => ⟨_, rfl⟩) fun _ => .pure _
  refine .bind .get fun m => .bind (.lookup _ _) fun v => ?_
  refine .bind (hdoc "root.") fun own => .bind (.host fun _ => ⟨_, rfl⟩) fun isTrue => ?_
  split
  · exact .define hA k v _
  · exact .bind (hdoc "@.") fun doc => .define hA k v _

/-- Without errors, nothing is put right. -/
theorem run_orElseOnError_eq_ok {x : Exec α} (hx : NeverRaises x) {a b : α}
    (hrun : (orElseOnError x a).run m = (.ok b, m')) : x.run m = (.ok b, m') := by
  have hraised := hx m
  rw [orElseOnError, run_tryCatch] at hrun
  rcases h : x.run m with ⟨s | c, m₁⟩ <;> rw [h] at hrun hraised
  · cases s with
    | raised error => exact absurd rfl (hraised error)
    | _ => cases hrun
  · exact hrun

/-! ### Sorting out the new names -/

theorem run_doc? (key : String) (m : Machine) :
    (liftM (doc? (.text key)) : Exec (Option Value)).run m =
      (.ok (m.store.lookup m.docs (.text key)), m) :=
  run_host_of_ok rfl

theorem run_truth (v : Value) (m : Machine) :
    (liftM (truth v) : Exec Bool).run m = (.ok (m.store.truth v), m) :=
  run_host_of_ok rfl

/-- Moving a global into a module defines it there. -/
theorem run_moveInto_eq_ok (hm : m.scopes.Outermost m.root) (hA : isRootModule (.text A) = false)
    {v : Value} (hv : m.global? k = some v)
    (hrun : (moveInto (.text A) k).run m = (.ok (), m')) :
    ∃ doc, m' = m.definedIn A k v doc := by
  have hlookup : (lookup m.root k).run m = (.ok v, m) := by
    rw [lookup, run_bind, run_get]
    dsimp only
    rw [hm.get?, ← global?, hv]
    rfl
  rw [moveInto, run_bind, run_get] at hrun
  dsimp only at hrun
  rw [run_bind, hlookup] at hrun
  simp only [bind_assoc, run_bind, run_doc?, run_truth, pure_bind] at hrun
  split at hrun
  · exact ⟨_, run_define_eq_ok hm hA hrun⟩
  · simp only [run_bind, run_doc?] at hrun
    exact ⟨_, run_define_eq_ok hm hA hrun⟩

/-- One round of the moving. -/
theorem run_moveOut_eq_ok (hm : m.scopes.Outermost m.root) (hA : isRootModule (.text A) = false)
    (hk : k ≠ A) (hbound : (m.global? k).isSome)
    (hrun : (orElseOnError (moveInto (.text A) k) ()).run m = (.ok (), m₁)) :
    Moved A [k] m (m₁.unsetGlobal k) := by
  obtain ⟨v, hv⟩ := Option.isSome_iff_exists.1 hbound
  obtain ⟨doc, rfl⟩ := run_moveInto_eq_ok hm hA hv
    (run_orElseOnError_eq_ok (neverRaises_moveInto hA k) hrun)
  exact moved_definedIn hm hk hv doc

/-- By induction on the names: each of them is moved from where the others have been moved. -/
theorem run_moveAll_eq_ok (hm : m.scopes.Outermost m.root) (hA : isRootModule (.text A) = false)
    (hnodup : ks.Nodup) (hmodule : ∀ k ∈ ks, k ≠ A) (hnames : ∀ k ∈ ks, ∀ y, k ≠ A ++ "." ++ y)
    (hbound : ∀ k ∈ ks, (m.global? k).isSome) {root : ScopeId} (hroot : m.root = root)
    (hrun : (forIn ks PUnit.unit fun k _ => do
      orElseOnError (moveInto (.text A) k) ()
      modifyScopes fun ss => ss.unset root k
      pure (.yield PUnit.unit) : Exec PUnit).run m = (.ok (), m')) : Moved A ks m m' := by
  induction ks generalizing m with
  | nil =>
    cases hrun
    exact moved_nil hm
  | cons k ks ih =>
    rw [List.nodup_cons] at hnodup
    have hfirst := List.forall_mem_cons.1 hmodule
    have hrest := List.forall_mem_cons.1 hbound
    simp only [List.forIn_cons, bind_assoc, pure_bind] at hrun
    -- a failure of the move would be passed over, with the global lost; but it does not fail
    obtain ⟨_, m₁, hmove, hrun⟩ := run_bind_eq_ok.1 hrun
    have hmoved := run_moveOut_eq_ok hm hA hfirst.1 hrest.1 hmove
    have hroot₁ : m₁.root = root := hmoved.root.trans hroot
    obtain ⟨_, m₂, hunset, hrun⟩ := run_bind_eq_ok.1 hrun
    rw [← hroot₁] at hunset
    obtain rfl : m₁.unsetGlobal k = m₂ := (Prod.mk.inj hunset).2
    have hstill (x : String) (hx : x ∈ ks) : ((m₁.unsetGlobal k).global? x).isSome := by
      have hne : x ∉ [k] := fun hin => hnodup.1 (List.mem_singleton.1 hin ▸ hx)
      rw [hmoved.others x hne (hfirst.2 x hx) fun y _ => hnames x (List.mem_cons_of_mem k hx) y]
      exact hrest.2 x hx
    have hothers := ih hmoved.outermost hnodup.2 hfirst.2 (List.forall_mem_cons.1 hnames).2 hstill
      hroot₁ hrun
    exact hmoved.cons hothers hnodup.1 hmodule fun x hx y _ => hnames x hx y

/-- By induction on the names: each of them is unbound. -/
theorem run_dropAll {root : ScopeId} (hroot : m.root = root) (ks : List String) :
    (forIn ks PUnit.unit fun k _ => do
      modifyScopes fun ss => ss.unset root k
      pure (.yield PUnit.unit) : Exec PUnit).run m = (.ok (), m.dropped ks) := by
  induction ks generalizing m with
  | nil => rfl
  | cons k ks ih =>
    simp only [List.forIn_cons, bind_assoc, pure_bind]
    rw [run_bind, run_modifyScopes]
    subst hroot
    exact ih (m := m.unsetGlobal k) rfl

def Wanted (only : Option (List Value)) (n : String) : Prop :=
  ∀ names, only = some names → .text n ∈ names

/-- With an alias, the wanted names are moved and the others are dropped. -/
theorem run_sortOut_eq_ok {fresh : List String} {isWanted : String → Bool}
    (hm : m.scopes.Outermost m.root) (hnodup : fresh.Nodup) (hempty : A ≠ "")
    (hA : isRootModule (.text A) = false)
    (hapart : ∀ n ∈ fresh, (m.global? n).isSome ∧ n ≠ A ∧ ∀ k, n ≠ A ++ "." ++ k)
    (hrun : (do
      if ← truth (.text A) then
        for n in fresh.filter isWanted do
          orElseOnError (moveInto (.text A) n) ()
          modifyScopes fun ss => ss.unset m.root n
      for n in fresh.filter fun n => !isWanted n do
        modifyScopes fun ss => ss.unset m.root n : Exec Unit).run m = (.ok (), m')) :
    Imported A (· ∈ fresh) (isWanted · = true) m m' := by
  have htruth : m.store.truth (.text A) = true := by simpa [Store.truth] using hempty
  rw [run_bind, run_truth, htruth] at hrun
  dsimp only at hrun
  rw [if_pos rfl] at hrun
  obtain ⟨_, m₁, hmove, hrun⟩ := run_bind_eq_ok.1 hrun
  have hkeep (n : String) (hn : n ∈ fresh.filter isWanted) := hapart n (List.mem_of_mem_filter hn)
  have hmoved := run_moveAll_eq_ok hm hA (hnodup.filter _) (fun n hn => (hkeep n hn).2.1)
    (fun n hn => (hkeep n hn).2.2) (fun n hn => (hkeep n hn).1) rfl hmove
  rw [run_bind, run_dropAll hmoved.root] at hrun
  obtain rfl := (Prod.mk.inj hrun).2
  exact hmoved.imported fun n hn => (hapart n hn).2.2

/-- Whatever the names that are wanted, all new names are gone in the end. -/
theorem run_settleNames_eq_ok {before : List String} {r : Request}
    (hm : m.scopes.Outermost m.root) (hdistinct : m.globalNames.Nodup)
    (hmodule : r.module = .text A) (hempty : A ≠ "") (hA : isRootModule (.text A) = false)
    (hapart : ∀ n ∉ before, (m.global? n).isSome → n ≠ A ∧ ∀ k, n ≠ A ++ "." ++ k)
    (hrun : (settleNames before r).run m = (.ok (), m')) :
    Imported A (fun n => n ∉ before ∧ (m.global? n).isSome) (Wanted r.only) m m' := by
  have hnames : globalNames.run m = (.ok m.globalNames, m) := rfl
  rw [settleNames, run_bind, run_get] at hrun
  dsimp only at hrun
  rw [run_bind, hnames] at hrun
  dsimp only at hrun
  rw [run_bind, run_get, hmodule] at hrun
  dsimp only at hrun
  have hfresh (n : String) : n ∈ m.globalNames.filter (fun n => !before.contains n) ↔
      n ∉ before ∧ (m.global? n).isSome := by
    have hbound : n ∈ m.globalNames ↔ (m.global? n).isSome := Table.has_iff_mem_names.symm
    rw [List.mem_filter, hbound, and_comm]
    simp
  have hall (n : String) (hn : n ∈ m.globalNames.filter fun n => !before.contains n) :
      (m.global? n).isSome ∧ n ≠ A ∧ ∀ k, n ≠ A ++ "." ++ k := by
    obtain ⟨hnew, hbound⟩ := (hfresh n).1 hn
    exact ⟨hbound, hapart n hnew hbound⟩
  have hnodup := hdistinct.filter fun n => !before.contains n
  cases honly : r.only with
  | none =>
    rw [honly] at hrun
    dsimp only [Option.getD_none, List.find?_nil] at hrun
    rw [ite_self] at hrun
    exact (run_sortOut_eq_ok hm hnodup hempty hA hall hrun).congr hfresh fun n => by simp [Wanted]
  | some names =>
    rw [honly] at hrun
    dsimp only at hrun
    have hwanted (n : String) :
        (names.any fun v => m.store.equalItem v (.text n)) = true ↔ Wanted (some names) n := by
      rw [Store.any_equalItem_iff]
      simp [Wanted]
    split at hrun
    · split at hrun
      -- a wanted value that cannot be a key ends the import
      · obtain ⟨_, m₁, hfail, -⟩ := run_bind_eq_ok.1 hrun
        cases hfail
      · exact (run_sortOut_eq_ok hm hnodup hempty hA hall hrun).congr hfresh hwanted
    · exact (run_sortOut_eq_ok hm hnodup hempty hA hall hrun).congr hfresh hwanted

end Exec

end ScriptLang
