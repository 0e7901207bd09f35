import ScriptLang.Proofs.Run.Notices
import ScriptLang.Proofs.Scope.Basic
import ScriptLang.Run.Attribute
import ScriptLang.Run.Item

/-!
# Other numbers for objects

A value knows an object only by its number. `rename` replaces the numbers in values and objects, and
one store is a renaming of another if each object of the first stands in the second under its new
number, renamed. All that is asked about values then has the same answer in both: how they compare,
what they show, what stands under a key.
-/

namespace ScriptLang

/-! ### Renaming -/

def Value.rename (ρ : Ref → Ref) : Value → Value
  | .ref r => .ref (ρ r)
  | .method receiver name => .method (receiver.rename ρ) name
  | v => v

namespace Internal

/-- Statements hold no objects, so that new numbers leave them alone. -/
theorem rename_ofNode (ρ : Ref → Ref) (place : List Nat) (n : Node) :
    (ofNode place n).rename ρ = ofNode place n := by
  cases n <;> rfl

/-- What is read off the body of a function holds no references. -/
theorem rename_ofNodes (ρ : Ref → Ref) (place : List Nat) (ns : List Node) :
    (ofNodes place ns).map (Value.rename ρ) = ofNodes place ns := by
  simp [ofNodes, rename_ofNode]

theorem rename_part? (ρ : Ref → Ref) (part : Internal) (name : String) :
    (part.part? name).map (Value.rename ρ) = part.part? name := by
  unfold part?
  split <;> simp [rename_ofNode, Value.rename]

end Internal

def Table.rename (ρ : Ref → Ref) (t : Table Value) : Table Value :=
  t.map fun b => (b.1, b.2.rename ρ)

def renameEntries (ρ : Ref → Ref) (entries : List (Value × Value)) : List (Value × Value) :=
  entries.map fun e => (e.1.rename ρ, e.2.rename ρ)

def Fault.rename (ρ : Ref → Ref) (f : Fault) : Fault where
  location := f.location.rename ρ
  level := f.level.rename ρ
  number := f.number.rename ρ
  name := f.name.rename ρ
  texts := f.texts.rename ρ
  args := f.args.map (Value.rename ρ)

def Obj.rename (ρ : Ref → Ref) : Obj → Obj
  | .list items => .list (items.map (Value.rename ρ))
  | .tuple items => .tuple (items.map (Value.rename ρ))
  | .dict entries => .dict (renameEntries ρ entries)
  | .bytes data => .bytes data
  | .view kind d => .view kind (ρ d)
  | .func declaration code fields => .func (ρ declaration) code (fields.rename ρ)
  | .record kind fields => .record kind (fields.rename ρ)
  | .inst cls props => .inst (ρ cls) (ρ props)
  | .bound receiver function => .bound (receiver.rename ρ) (function.rename ρ)
  | .fault f fields => .fault (f.rename ρ) (fields.rename ρ)
  | .failure f fields => .failure f (fields.rename ρ)

/-! ### The numbers in use -/

def Value.refs : Value → List Ref
  | .ref r => [r]
  | .method receiver _ => receiver.refs
  | _ => []

def Table.refs (t : Table Value) : List Ref := t.flatMap fun b => b.2.refs

def Fault.refs (f : Fault) : List Ref :=
  (f.location :: f.level :: f.number :: f.name :: f.texts :: f.args).flatMap Value.refs

def Obj.refs : Obj → List Ref
  | .list items => items.toList.flatMap Value.refs
  | .tuple items => items.flatMap Value.refs
  | .dict entries => entries.flatMap fun e => e.1.refs ++ e.2.refs
  | .bytes _ => []
  | .view _ d => [d]
  | .func declaration _ fields => declaration :: fields.refs
  | .record _ fields => fields.refs
  | .inst cls props => [cls, props]
  | .bound receiver function => receiver.refs ++ function.refs
  | .fault f fields => f.refs ++ fields.refs
  | .failure _ fields => fields.refs

variable {ρ : Ref → Ref}

/-- New numbers that keep those in use keep the value. -/
theorem Value.rename_eq_self {v : Value} (h : ∀ r ∈ v.refs, ρ r = r) : v.rename ρ = v := by
  induction v with
  | ref r => exact congrArg Value.ref (h r List.mem_cons_self)
  | method receiver name ih => rw [rename, ih h]
  | _ => rfl

theorem map_rename_eq_self {vs : List Value} (h : ∀ r ∈ vs.flatMap Value.refs, ρ r = r) :
    vs.map (Value.rename ρ) = vs := by
  refine (List.map_congr_left fun v hv => ?_).trans (List.map_id vs)
  exact Value.rename_eq_self fun r hr => h r (List.mem_flatMap.2 ⟨v, hv, hr⟩)

theorem Table.rename_eq_self {t : Table Value} (h : ∀ r ∈ t.refs, ρ r = r) : t.rename ρ = t := by
  refine (List.map_congr_left fun b hb => ?_).trans (List.map_id t)
  rw [Value.rename_eq_self fun r hr => h r (List.mem_flatMap.2 ⟨b, hb, hr⟩), id]

theorem Fault.rename_eq_self {f : Fault} (h : ∀ r ∈ f.refs, ρ r = r) : f.rename ρ = f := by
  have hparts := map_rename_eq_self h
  simp only [List.map_cons, List.cons.injEq] at hparts
  obtain ⟨hlocation, hlevel, hnumber, hname, htexts, hargs⟩ := hparts
  rw [rename, hlocation, hlevel, hnumber, hname, htexts, hargs]

/-- Objects in which only numbers that stay are used stay the same. -/
theorem Obj.rename_eq_self {o : Obj} (h : ∀ r ∈ o.refs, ρ r = r) : o.rename ρ = o := by
  cases o with
  | list items =>
    have hitems := map_rename_eq_self h
    rw [← Array.toList_map] at hitems
    rw [rename, Array.toList_inj.1 hitems]
  | tuple items => rw [rename, map_rename_eq_self h]
  | dict entries =>
    have hentries : renameEntries ρ entries = entries := by
      refine (List.map_congr_left fun e he => ?_).trans (List.map_id entries)
      have hrefs (r : Ref) (hr : r ∈ e.1.refs ++ e.2.refs) : ρ r = r :=
        h r (List.mem_flatMap.2 ⟨e, he, hr⟩)
      rw [Value.rename_eq_self fun r hr => hrefs r (List.mem_append_left _ hr),
        Value.rename_eq_self fun r hr => hrefs r (List.mem_append_right _ hr), id]
    rw [rename, hentries]
  | bytes data => rfl
  | view kind d => rw [rename, h d List.mem_cons_self]
  | func declaration code fields =>
    rw [rename, h declaration List.mem_cons_self,
      Table.rename_eq_self fun r hr => h r (List.mem_cons_of_mem _ hr)]
  | record kind fields => rw [rename, Table.rename_eq_self h]
  | inst cls props =>
    rw [rename, h cls List.mem_cons_self, h props (List.mem_cons_of_mem _ List.mem_cons_self)]
  | bound receiver function =>
    rw [rename, Value.rename_eq_self fun r hr => h r (List.mem_append_left _ hr),
      Value.rename_eq_self fun r hr => h r (List.mem_append_right _ hr)]
  | fault f fields =>
    rw [rename, Fault.rename_eq_self fun r hr => h r (List.mem_append_left _ hr),
      Table.rename_eq_self fun r hr => h r (List.mem_append_right _ hr)]
  | failure f fields => rw [rename, Table.rename_eq_self h]

theorem getD_renameEntries (entries : Option (List (Value × Value))) :
    (entries.map (renameEntries ρ)).getD [] = renameEntries ρ (entries.getD []) := by
  cases entries <;> rfl

/-- Entries whose keys are shown as texts. -/
theorem mapM_tag_rename {f f' : Value → Except Failure String}
    (hf : ∀ v, f' (v.rename ρ) = f v) (entries : List (Value × Value)) :
    (renameEntries ρ entries).mapM (fun e => (do
      let tag ← f' e.1
      .ok (tag, e.2) : Except Failure (String × Value))) =
    Table.rename ρ <$> entries.mapM (fun e => (do
      let tag ← f e.1
      .ok (tag, e.2) : Except Failure (String × Value))) := by
  induction entries with
  | nil => rfl
  | cons e entries ih =>
    rw [renameEntries, List.map_cons, List.mapM_cons, List.mapM_cons, ← renameEntries, ih, hf]
    cases f e.1 with
    | error f => rfl
    | ok tag =>
      cases entries.mapM (fun e => (do
        let tag ← f e.1
        .ok (tag, e.2) : Except Failure (String × Value))) <;> rfl

/-- Each object of the first store stands in the second one under its new number. -/
structure Store.Renames (ρ : Ref → Ref) (st st' : Store) : Prop where
  injective : ∀ {r s}, ρ r = ρ s → r = s
  obj : ∀ r, st'[ρ r]? = st[r]?.map (Obj.rename ρ)

@[simp] theorem Table.get?_rename (t : Table Value) (name : String) :
    (t.rename ρ).get? name = (t.get? name).map (Value.rename ρ) := Table.get?_map ..

@[simp] theorem Table.set_rename (t : Table Value) (name : String) (v : Value) :
    (t.rename ρ).set name (v.rename ρ) = (t.set name v).rename ρ := Table.set_map ..

@[simp] theorem Value.int?_rename (v : Value) : (v.rename ρ).int? = v.int? := by
  cases v <;> rfl

theorem beq_rename (hρ : ∀ {r s}, ρ r = ρ s → r = s) (r s : Ref) : (ρ r == ρ s) = (r == s) := by
  rw [Bool.eq_iff_iff, beq_iff_eq, beq_iff_eq]
  exact ⟨hρ, congrArg ρ⟩

/-- Two values are the same thing under new numbers exactly if they were before. -/
theorem Value.same_rename (hρ : ∀ {r s}, ρ r = ρ s → r = s) (v w : Value) :
    Value.same (v.rename ρ) (w.rename ρ) = Value.same v w := by
  induction v generalizing w with
  | method a n ih => cases w <;> simp [rename, same, ih]
  | ref r =>
    cases w with
    | ref s => exact beq_rename hρ r s
    | _ => rfl
  | _ => cases w <;> rfl

namespace Store

theorem itemsStanding_map {f : Value → Value} {eq eq' : Value → Value → Bool}
    {order order' : Value → Value → Standing} (heq : ∀ v w, eq' (f v) (f w) = eq v w)
    (horder : ∀ v w, order' (f v) (f w) = order v w) (vs ws : List Value) :
    itemsStanding eq' order' (vs.map f) (ws.map f) = itemsStanding eq order vs ws := by
  induction vs generalizing ws with
  | nil => cases ws <;> rfl
  | cons v vs ih => cases ws <;> simp [itemsStanding, heq, horder, ih]

namespace Renames

variable {st st' : Store} (h : Renames ρ st st')
include h

/-! ### Objects of values -/

theorem ofValue? (v : Value) : st'.ofValue? (v.rename ρ) = (st.ofValue? v).map (Obj.rename ρ) := by
  cases v with
  | ref r => exact h.obj r
  | _ => rfl

theorem list? (v : Value) :
    st'.list? (v.rename ρ) = (st.list? v).map (Array.map (Value.rename ρ)) := by
  rw [Store.list?, h.ofValue? v, Store.list?]
  rcases st.ofValue? v with _ | o
  · rfl
  · cases o <;> rfl

theorem dict? (v : Value) : st'.dict? (v.rename ρ) = (st.dict? v).map (renameEntries ρ) := by
  rw [Store.dict?, h.ofValue? v, Store.dict?]
  rcases st.ofValue? v with _ | o
  · rfl
  · cases o <;> rfl

theorem typeName (v : Value) : st'.typeName (v.rename ρ) = st.typeName v := by
  cases v with
  | ref r =>
    simp only [Value.rename, Store.typeName, h.obj r]
    rcases st[r]? with _ | o
    · rfl
    · cases o with
      | view kind d => cases kind <;> rfl
      | record kind fields => cases kind <;> rfl
      | _ => rfl
  | internal part => cases part <;> rfl
  | _ => rfl

theorem truth (v : Value) : st'.truth (v.rename ρ) = st.truth v := by
  cases v with
  | ref r =>
    simp only [Value.rename, Store.truth, h.obj r]
    rcases st[r]? with _ | o
    · rfl
    · cases o with
      | list items => simp only [Obj.rename, Option.map_some, Array.isEmpty, Array.size_map]
      | tuple items => simp [Obj.rename]
      | dict entries => simp [Obj.rename, renameEntries]
      | view kind d =>
        simp only [Option.map_some, Obj.rename, h.obj d]
        rcases st[d]? with _ | o
        · rfl
        · cases o <;> simp [Obj.rename, renameEntries]
      | _ => rfl
  | internal part => cases part <;> rfl
  | _ => rfl

theorem isHashable (v : Value) : st'.isHashable (v.rename ρ) = st.isHashable v := by
  rw [Store.isHashable, h.ofValue? v, Store.isHashable]
  rcases st.ofValue? v with _ | o
  · rfl
  · cases o <;> rfl

theorem isCallable (v : Value) : st'.isCallable (v.rename ρ) = st.isCallable v := by
  cases v with
  | ref r =>
    simp only [Value.rename, Store.isCallable, h.obj r]
    rcases st[r]? with _ | o
    · rfl
    · cases o with
      | record kind fields => cases kind <;> rfl
      | _ => rfl
  | _ => rfl

theorem hasFurther (v : Value) (name : String) :
    st'.hasFurther (v.rename ρ) name = st.hasFurther v name := by
  unfold Store.hasFurther
  congr 1
  cases v with
  | ref r =>
    simp only [Value.rename, h.obj r]
    rcases st[r]? with _ | o
    · rfl
    · cases o with
      | record kind fields => cases kind <;> rfl
      | _ => rfl
  | internal part => cases part <;> rfl
  | _ => rfl

/-! ### Comparing -/

/-- By induction on the depth: equality does not depend on the numbers of objects. -/
theorem equalWithin (fuel : Nat) (v w : Value) :
    st'.equalWithin fuel (v.rename ρ) (w.rename ρ) = st.equalWithin fuel v w := by
  induction fuel generalizing v w with
  | zero => rfl
  | succ fuel ih =>
    have hitem (a b : Value) : (Value.same (a.rename ρ) (b.rename ρ) ||
        st'.equalWithin fuel (a.rename ρ) (b.rename ρ)) =
        (Value.same a b || st.equalWithin fuel a b) := by
      rw [Value.same_rename h.injective, ih]
    cases v with
    | ref r =>
      cases w with
      | ref s =>
        simp only [Value.rename, Store.equalWithin, numbersEqual?, Value.int?, Option.bind_none,
          beq_rename h.injective, h.obj]
        split
        · rfl
        rcases st[r]? with _ | o
        · rfl
        rcases st[s]? with _ | o'
        · cases o with
          | view kind d => cases kind <;> rfl
          | _ => rfl
        cases o with
        | list a =>
          cases o' with
          | list b =>
            simp only [Option.map_some, Obj.rename, Array.size_map, Array.toList_map,
              List.zip_map, List.all_map, Function.comp_def, Prod.map, hitem]
          | _ => rfl
        | tuple a =>
          cases o' with
          | tuple b =>
            simp only [Option.map_some, Obj.rename, List.length_map, List.zip_map, List.all_map,
              Function.comp_def, Prod.map, hitem]
          | _ => rfl
        | dict a =>
          cases o' with
          | dict b =>
            simp only [Option.map_some, Obj.rename, renameEntries, List.length_map, List.all_map,
              List.find?_map, Function.comp_def, hitem]
            congr 2
            funext e
            cases b.find? fun x => _ <;> simp [hitem]
          | _ => rfl
        | view kind d =>
          cases o' with
          | view kind' d' =>
            cases kind <;> cases kind' <;> try rfl
            simp only [Option.map_some, Obj.rename, h.obj]
            rcases st[d]? with _ | x
            · rfl
            rcases st[d']? with _ | y
            · cases x <;> rfl
            cases x with
            | dict a =>
              cases y with
              | dict b =>
                simp only [Option.map_some, Obj.rename, renameEntries, List.length_map,
                  List.all_map, List.any_map, Function.comp_def, hitem]
              | _ => rfl
            | _ => cases y <;> rfl
          | _ => cases kind <;> rfl
        | bytes a => cases o' <;> rfl
        | _ => cases o' <;> rfl
      | _ => rfl
    | method a n =>
      cases w with
      | method b k => exact Value.same_rename h.injective (.method a n) (.method b k)
      | _ => rfl
    | _ => cases w <;> rfl

theorem equal (v w : Value) : st'.equal (v.rename ρ) (w.rename ρ) = st.equal v w :=
  h.equalWithin _ v w

theorem equalItem (v w : Value) : st'.equalItem (v.rename ρ) (w.rename ρ) = st.equalItem v w := by
  rw [Store.equalItem, Value.same_rename h.injective, h.equal, Store.equalItem]

/-- By induction on the depth: the standing of two values does not depend on the numbers of
objects. -/
theorem standingWithin (fuel : Nat) (v w : Value) :
    st'.standingWithin fuel (v.rename ρ) (w.rename ρ) = st.standingWithin fuel v w := by
  induction fuel generalizing v w with
  | zero => simp only [Store.standingWithin, h.typeName]
  | succ fuel ih =>
    have hunordered : Standing.unordered (st'.typeName (v.rename ρ)) (st'.typeName (w.rename ρ)) =
        .unordered (st.typeName v) (st.typeName w) := by rw [h.typeName, h.typeName]
    cases v with
    | ref r =>
      cases w with
      | ref s =>
        simp only [Value.rename, Store.standingWithin, numberStanding?, Value.int?,
          Option.bind_none, h.obj] at hunordered ⊢
        rcases st[r]? with _ | o
        · exact hunordered
        rcases st[s]? with _ | o'
        · cases o <;> exact hunordered
        cases o with
        | list a =>
          cases o' with
          | list b =>
            simp only [Option.map_some, Obj.rename, Array.toList_map]
            exact itemsStanding_map h.equalItem ih _ _
          | _ => exact hunordered
        | tuple a =>
          cases o' with
          | tuple b => exact itemsStanding_map h.equalItem ih a b
          | _ => exact hunordered
        | bytes a =>
          cases o' with
          | bytes b =>
            have hbytes (data : Array Nat) : (data.toList.map fun (n : Nat) => Value.int n) =
                (data.toList.map fun (n : Nat) => Value.int n).map (Value.rename ρ) := by
              rw [List.map_map]
              rfl
            simp only [Option.map_some, Obj.rename]
            rw [hbytes a, hbytes b, itemsStanding_map h.equalItem ih, ← hbytes a, ← hbytes b]
          | _ => exact hunordered
        | _ => cases o' <;> exact hunordered
      | _ => exact hunordered
    | _ => cases w <;> first | rfl | exact hunordered

theorem ordered (op : String) (v w : Value) :
    st'.ordered op (v.rename ρ) (w.rename ρ) = st.ordered op v w := by
  rw [Store.ordered, Store.ordered, Store.standing, h.standingWithin, Store.standing]

/-! ### Dictionaries -/

/-- What is found under a key has its new number. -/
theorem lookup (entries : List (Value × Value)) (key : Value) :
    st'.lookup (renameEntries ρ entries) (key.rename ρ) =
      (st.lookup entries key).map (Value.rename ρ) := by
  simp only [Store.lookup, renameEntries, List.find?_map, Function.comp_def, h.equalItem,
    Option.map_map]

/-- An entry is inserted in the same place. -/
theorem insert (entries : List (Value × Value)) (key value : Value) :
    st'.insert (renameEntries ρ entries) (key.rename ρ) (value.rename ρ) =
      renameEntries ρ (st.insert entries key value) := by
  induction entries with
  | nil => rfl
  | cons e entries ih =>
    have hcons : renameEntries ρ (e :: entries) =
        (e.1.rename ρ, e.2.rename ρ) :: renameEntries ρ entries := rfl
    rw [hcons, Store.insert, Store.insert, h.equalItem]
    split
    · rfl
    · rw [ih]
      rfl

/-! ### Texts -/

/-- By induction on the depth: quoted texts do not depend on the numbers of objects. -/
theorem quotedWithin (reader : Option String) (fuel : Nat) (seen : List Ref) (v : Value) :
    st'.quotedWithin reader fuel (seen.map ρ) (v.rename ρ) =
      st.quotedWithin reader fuel seen v := by
  induction fuel generalizing seen v with
  | zero => rfl
  | succ fuel ih =>
    have hseen (r : Ref) : (seen.map ρ).contains (ρ r) = seen.contains r := by
      rw [Bool.eq_iff_iff, List.contains_iff_mem, List.contains_iff_mem, List.mem_map]
      exact ⟨fun ⟨s, hs, heq⟩ => h.injective heq ▸ hs, fun hr => ⟨r, hr, rfl⟩⟩
    rw [Store.quotedWithin.eq_def, Store.quotedWithin.eq_def st]
    cases v with
    | ref r =>
      have ih' (v : Value) := ih (r :: seen) v
      simp only [List.map_cons] at ih'
      have htype := h.typeName (.ref r)
      simp only [Value.rename] at htype
      simp only [Value.rename, h.obj, htype]
      rcases hr : st[r]? with _ | o
      · rfl
      cases o with
      | list items =>
        simp only [Option.map_some, Obj.rename, hseen, Array.toList_map, List.mapM_map,
          Function.comp_def, ih']
      | tuple items =>
        simp only [Option.map_some, Obj.rename, hseen, List.mapM_map, Function.comp_def, ih']
      | dict entries =>
        simp only [Option.map_some, Obj.rename, renameEntries, hseen, List.mapM_map,
          Function.comp_def, ih']
      | view kind d =>
        have hd := h.dict? (.ref d)
        simp only [Value.rename] at hd
        simp only [Option.map_some, Obj.rename, hseen, hd]
        rcases st.dict? (.ref d) with _ | entries
        · rfl
        simp only [Option.map_some, Option.getD_some, renameEntries, List.mapM_map,
          Function.comp_def, ih']
      | fault f fields =>
        simp only [Option.map_some, Obj.rename, Fault.rename, List.mapM_map, Function.comp_def, ih']
      | _ => rfl
    | range a b c =>
      have hint (i : Int) := ih seen (.int i)
      simp only [Value.rename] at hint
      simp only [Value.rename, hint]
    | internal part => cases part <;> rfl
    | _ => simp only [Value.rename]

/-- By induction on the depth, for values and for errors, whose texts are written of each other. -/
theorem within (reader : Option String) (fuel : Nat) :
    (∀ v, st'.textWithin reader fuel (v.rename ρ) = st.textWithin reader fuel v) ∧
    (∀ f, st'.faultTextWithin reader fuel (f.rename ρ) = st.faultTextWithin reader fuel f) ∧
    ∀ f, st'.faultWithin reader fuel (f.rename ρ) = st.faultWithin reader fuel f := by
  induction fuel with
  | zero => exact ⟨fun _ => rfl, fun _ => rfl, fun _ => rfl⟩
  | succ fuel ih =>
    obtain ⟨htext, hfaultText, hfault⟩ := ih
    refine ⟨fun v => ?_, fun f => ?_, fun f => ?_⟩
    · have hquoted := h.quotedWithin reader (fuel + 1) [] v
      rw [List.map_nil] at hquoted
      cases v with
      | ref r =>
        simp only [Value.rename] at hquoted
        simp only [Value.rename, Store.textWithin, h.obj, hquoted]
        rcases st[r]? with _ | o
        · rfl
        cases o with
        | fault f fields => exact hfault f
        | _ => rfl
      | text s => rfl
      | moment m => rfl
      | _ => simpa only [Value.rename, Store.textWithin] using hquoted
    · simp only [Store.faultTextWithin]
      rw [Fault.rename, h.dict?, getD_renameEntries, mapM_tag_rename htext]
      generalize List.mapM (fun e => (do
        let k ← st.textWithin reader fuel e.1
        .ok (k, e.2) : Except Failure (String × Value))) ((st.dict? f.texts).getD []) = tagged
      cases tagged with
      | error e => simp only [Functor.map, Except.map, bind, Except.bind]
      | ok tagged =>
        simp only [Functor.map, Except.map, bind, Except.bind, Table.rename, pickText_map]
        cases pickText reader tagged with
        | none => rfl
        | some v => simp only [Option.map, htext]
    · have hf := hfaultText f
      simp only [Store.faultWithin, hf]
      simp only [Fault.rename, htext]

theorem quoted (reader : Option String) (v : Value) :
    st'.quoted reader (v.rename ρ) = st.quoted reader v := by
  have hquoted := h.quotedWithin reader depthBound [] v
  rwa [List.map_nil] at hquoted

theorem text (reader : Option String) (v : Value) :
    st'.text reader (v.rename ρ) = st.text reader v := (h.within reader _).1 v

theorem faultLine (reader : Option String) (f : Fault) :
    st'.faultLine reader (f.rename ρ) = st.faultLine reader f := (h.within reader _).2.2 f

theorem faultText (reader : Option String) (f : Fault) :
    st'.faultText reader (f.rename ρ) = Value.rename ρ <$> st.faultText reader f := by
  rw [Store.faultText, Fault.rename, h.dict?, getD_renameEntries, mapM_tag_rename (h.text reader),
    Store.faultText]
  cases List.mapM (fun e => (do
    let k ← st.text reader e.1
    .ok (k, e.2) : Except Failure (String × Value))) ((st.dict? f.texts).getD []) with
  | error e => rfl
  | ok tagged =>
    change Except.ok ((pickText reader (Table.rename ρ tagged)).getD (.text "No Description")) =
      .ok (((pickText reader tagged).getD (.text "No Description")).rename ρ)
    rw [Table.rename, pickText_map]
    cases pickText reader tagged <;> rfl

/-! ### Items -/

theorem faultItem (reader : Option String) (f : Fault) (key : Value) :
    st'.faultItem reader (f.rename ρ) (key.rename ρ) =
      Value.rename ρ <$> st.faultItem reader f key := by
  have hother : (do
      let shown ← st'.quoted reader (key.rename ρ)
      .error (.keyMissing shown) : Except Failure Value) = Value.rename ρ <$> (do
      let shown ← st.quoted reader key
      .error (.keyMissing shown)) := by
    rw [h.quoted]
    cases st.quoted reader key <;> rfl
  cases key with
  | text s =>
    simp only [Value.rename] at hother ⊢
    unfold Store.faultItem
    split
    · rw [h.faultLine]
      cases st.faultLine reader f <;> rfl
    · rfl
    · rfl
    · rfl
    · rfl
    · rfl
    · exact h.faultText reader f
    · simp_all
  | _ => exact hother

/-- An item of a collection is the same up to new numbers. -/
theorem item? (reader : Option String) (v key : Value) :
    st'.item? reader (v.rename ρ) (key.rename ρ) =
      (st.item? reader v key).map (Value.rename ρ) := by
  cases v with
  | ref r =>
    simp only [Value.rename, Store.item?, h.obj, Value.int?_rename, h.isHashable]
    rcases st[r]? with _ | o
    · rfl
    cases o with
    | list items =>
      simp only [Option.map_some, Obj.rename, Array.size_map]
      rcases key.int?.bind (place? items.size) with _ | i
      · rfl
      · exact Array.getElem?_map
    | tuple items =>
      simp only [Option.map_some, Obj.rename, List.length_map]
      rcases key.int?.bind (place? items.length) with _ | i
      · rfl
      · exact List.getElem?_map
    | bytes data =>
      simp only [Option.map_some, Obj.rename]
      rcases key.int?.bind (place? data.size) with _ | i
      · rfl
      · rcases hi : data[i]? with _ | n <;> simp [hi, Value.rename]
    | dict entries =>
      simp only [Option.map_some, Obj.rename, h.lookup]
      split <;> rfl
    | fault f fields =>
      simp only [Option.map_some, Obj.rename, h.faultItem]
      cases st.faultItem reader f key <;> rfl
    | _ => rfl
  | text s =>
    simp only [Value.rename, Store.item?, Value.int?_rename]
    rcases key.int?.bind (place? s.length) with _ | i
    · rfl
    · rcases hi : s.toList[i]? with _ | c <;> simp [hi, Value.rename]
  | range a b c =>
    simp only [Value.rename, Store.item?, Value.int?_rename]
    rcases key.int?.bind (place? (rangeLength a b c)) with _ | i <;> rfl
  | internal part =>
    cases part with
    | nodes place ns =>
      simp only [Value.rename, Store.item?, Value.int?_rename]
      rcases key.int?.bind (place? ns.length) with _ | i
      · rfl
      · simp only [Option.bind_some]
        rw [← List.getElem?_map, Internal.rename_ofNodes]
    | _ => rfl
  | _ => rfl

/-! ### Changing objects -/

/-- A new object of the first store is a new one of the second. -/
theorem push (hsize : ρ st.size = st'.size) (o : Obj) :
    Renames ρ (st.push o) (st'.push (o.rename ρ)) := by
  refine ⟨h.injective, fun r => ?_⟩
  by_cases hr : r = st.size
  · rw [hr, hsize, Array.getElem?_push_size, Array.getElem?_push_size]
    rfl
  · have hne : ρ r ≠ st'.size := fun heq => hr (h.injective (heq.trans hsize.symm))
    rw [Array.getElem?_push, if_neg hne, Array.getElem?_push, if_neg hr, h.obj]

/-- An object that is replaced has the new number of its counterpart. -/
theorem setIfInBounds (r : Ref) (o : Obj) :
    Renames ρ (st.setIfInBounds r o) (st'.setIfInBounds (ρ r) (o.rename ρ)) := by
  refine ⟨h.injective, fun s => ?_⟩
  have hsize : ρ r < st'.size ↔ r < st.size := by
    have hr := congrArg Option.isSome (h.obj r)
    rw [Option.isSome_map, Bool.eq_iff_iff] at hr
    simpa using hr
  by_cases hs : r = s
  · subst hs
    simp only [Array.getElem?_setIfInBounds, if_true, hsize]
    split <;> rfl
  · have hne : ρ r ≠ ρ s := fun heq => hs (h.injective heq)
    rw [Array.getElem?_setIfInBounds_ne hne, Array.getElem?_setIfInBounds_ne hs, h.obj]

/-- What is put under a key changes one object, and the same one in both stores. -/
theorem putItem? (v key value : Value) :
    (st.putItem? v key value = none ∧
      st'.putItem? (v.rename ρ) (key.rename ρ) (value.rename ρ) = none) ∨
    ∃ r o, st.putItem? v key value = some (st.setIfInBounds r o) ∧
      st'.putItem? (v.rename ρ) (key.rename ρ) (value.rename ρ) =
        some (st'.setIfInBounds (ρ r) (o.rename ρ)) := by
  cases v with
  | ref r =>
    simp only [Value.rename, Store.putItem?, h.obj, Value.int?_rename, h.isHashable]
    rcases st[r]? with _ | o
    · exact .inl ⟨rfl, rfl⟩
    cases o with
    | list items =>
      simp only [Option.map_some, Obj.rename, Array.size_map]
      rcases key.int?.bind (place? items.size) with _ | i
      · exact .inl ⟨rfl, rfl⟩
      · exact .inr ⟨r, .list (items.setIfInBounds i value), rfl, by simp⟩
    | bytes data =>
      simp only [Option.map_some, Obj.rename]
      rcases key.int?.bind (place? data.size) with _ | i
      · exact .inl ⟨rfl, rfl⟩
      rcases value.int? with _ | n
      · exact .inl ⟨rfl, rfl⟩
      simp only [Option.bind_eq_bind, Option.bind_some]
      split
      · exact .inr ⟨r, .bytes (data.setIfInBounds i n.toNat), rfl, rfl⟩
      · exact .inl ⟨rfl, rfl⟩
    | dict entries =>
      simp only [Option.map_some, Obj.rename, h.insert]
      split
      · exact .inr ⟨r, .dict (st.insert entries key value), rfl, rfl⟩
      · exact .inl ⟨rfl, rfl⟩
    | _ => exact .inl ⟨rfl, rfl⟩
  | _ => exact .inl ⟨rfl, rfl⟩

end Renames

end Store

end ScriptLang
