import ScriptLang.Proofs.Run.Mirror

/-!
# What evaluation asks of the host

The operations on values that the evaluation of expressions uses do the same on hosts of which one
is a renaming of the other. They make new objects and change none.
-/

namespace ScriptLang

variable {α β : Type}

abbrev Value.Renamed (ρ : Ref → Ref) (v v' : Value) : Prop := v' = v.rename ρ

def Value.isText : Value → Bool
  | .text _ => true
  | _ => false

theorem Value.isText_rename (ρ : Ref → Ref) (v : Value) : (v.rename ρ).isText = v.isText := by
  cases v <;> rfl

namespace Exec

variable {ρ : Ref → Ref} {R : α → β → Prop}

/-! ### Objects -/

/-- A new object gets the new number of its counterpart. -/
theorem alike_alloc (o : Obj) :
    HostAlike ρ (fun r r' => r' = ρ r) (alloc o) (alloc (o.rename ρ)) := fun _ _ _ hh =>
  ⟨⟨⟨#[o], Array.push_eq_append⟩, fun _ => rfl, rfl⟩, hh.push o, .ok (hh.fresh 0).symm⟩

theorem alike_allocValue (o : Obj) :
    HostAlike ρ (Value.Renamed ρ) (allocValue o) (allocValue (o.rename ρ)) :=
  (alike_alloc o).map fun _ _ h => congrArg Value.ref h

theorem alike_newList (items : List Value) :
    HostAlike ρ (Value.Renamed ρ) (newList items) (newList (items.map (Value.rename ρ))) := by
  have h : HostAlike ρ _ _ _ := alike_allocValue (.list items.toArray)
  rwa [Obj.rename, List.map_toArray] at h

theorem alike_newTuple (items : List Value) :
    HostAlike ρ (Value.Renamed ρ) (newTuple items) (newTuple (items.map (Value.rename ρ))) :=
  alike_allocValue (.tuple items)

theorem alike_dictOfTable (t : Table Value) :
    HostAlike ρ (fun r r' => r' = ρ r) (dictOfTable t) (dictOfTable (t.rename ρ)) := by
  have h : HostAlike ρ _ _ _ := alike_alloc (.dict (t.map fun e => (.text e.1, e.2)))
  rw [Obj.rename, renameEntries, List.map_map] at h
  rw [dictOfTable, dictOfTable, Table.rename, List.map_map]
  exact h

theorem alike_obj? (r : Ref) :
    HostAlike ρ (fun o o' => o' = o.map (Obj.rename ρ)) (obj? r) (obj? (ρ r)) :=
  Mirrors.read fun _ _ _ hh => .pure (hh.store.obj r)

theorem alike_objOf? (v : Value) :
    HostAlike ρ (fun o o' => o' = o.map (Obj.rename ρ)) (objOf? v) (objOf? (v.rename ρ)) :=
  Mirrors.read fun _ _ _ hh => .pure (hh.store.ofValue? v)

theorem alike_typeName (v : Value) : HostAlike ρ Eq (typeName v) (typeName (v.rename ρ)) :=
  Mirrors.read fun _ _ _ hh => .pure (hh.store.typeName v).symm

theorem alike_truth (v : Value) : HostAlike ρ Eq (truth v) (truth (v.rename ρ)) :=
  Mirrors.read fun _ _ _ hh => .pure (hh.store.truth v).symm

theorem alike_equal (v w : Value) : HostAlike ρ Eq (equal v w) (equal (v.rename ρ) (w.rename ρ)) :=
  Mirrors.read fun _ _ _ hh => .pure (hh.store.equal v w).symm

/-! ### Failures and notices -/

theorem alike_fail (f : Failure) : HostAlike ρ R (fail f) (fail f) := by
  refine .bind (alike_allocValue (.failure f [])) fun v v' hv => ?_
  cases hv
  exact .throw (Halt.raised v)

theorem alike_ofExcept {f : α → β} {e : Except Failure α} {e' : Except Failure β}
    (h : e' = f <$> e) : HostAlike ρ (fun a b => b = f a) (ofExcept e) (ofExcept e') := by
  subst h
  cases e with
  | error failure => exact alike_fail failure
  | ok a => exact .pure rfl

/-- The text of a value does not depend on the numbers of objects. -/
theorem alike_text (v : Value) : HostAlike ρ Eq (text v) (text (v.rename ρ)) := by
  refine Mirrors.read fun _ h h' hh => ?_
  rw [hh.store.text, hh.reader]
  cases h.store.text h.reader v with
  | error failure => exact alike_fail failure
  | ok s => exact .pure rfl

theorem alike_report (n : Notice) : HostAlike ρ Eq (report n) (report n) := by
  refine Mirrors.read fun _ h h' hh => ?_
  rw [hh.isQuiet, hh.reader]
  split
  · exact .throw (Halt.reported _)
  · exact .pure rfl

theorem alike_noticeError (n : Notice) :
    HostAlike ρ (Value.Renamed ρ) (noticeError n) (noticeError n) := by
  refine Mirrors.read fun _ h h' hh => ?_
  rw [hh.reader]
  dsimp only
  have htexts : HostAlike ρ (Value.Renamed ρ)
      (newDict (n.texts.map fun e => (.text e.1, .text e.2)))
      (newDict (n.texts.map fun e => (.text e.1, .text e.2))) := by
    have h : HostAlike ρ _ _ _ :=
      alike_allocValue (.dict (n.texts.map fun e => (.text e.1, .text e.2)))
    rw [Obj.rename, renameEntries, List.map_map] at h
    exact h
  refine htexts.bind fun texts texts' ht => ?_
  cases ht
  exact alike_allocValue (.fault ⟨.text "YPSH", .text "C", .text n.form.number,
    .text n.form.name, texts, _⟩ [])

theorem alike_stopReading (stop : ParseStop) :
    HostAlike ρ R (stopReading stop) (stopReading stop) := by
  cases stop with
  | reported n => exact .bind (alike_report n) fun _ _ _ => .throw Halt.exhausted
  | raised n =>
    refine .bind (alike_noticeError n) fun v v' hv => ?_
    cases hv
    exact .throw (Halt.raised v)
  | failed f => exact alike_fail f
  | exhausted => exact .throw Halt.exhausted

/-! ### Embedded expressions -/

/-- An embedded expression is what its source spells, and is kept. -/
theorem run_embeddedNode_spelled (source : String) (h : Host) : ∃ embedded : EmbeddedCache,
    (∀ source', { h with embedded }.spelled source' = h.spelled source') ∧
    (embeddedNode source).run h = match h.spelled source with
      | .ok node => (.ok node, { h with embedded })
      | .error stop => (stopReading stop).run h := by
  have hget (f : Host → HostExec Node) : (get >>= f).run h = (f h).run h := rfl
  rw [embeddedNode, hget]
  split
  · next node hknown =>
      refine ⟨h.embedded, fun _ => rfl, ?_⟩
      simp only [Host.spelled, hknown]
      rfl
  · next hunknown =>
      have hspelled : h.spelled source = parseEmbedded h.isQuiet source := by
        simp only [Host.spelled, hunknown]
      split
      · next node hparse =>
          have hnode : h.spelled source = .ok node := hspelled.trans hparse
          refine ⟨h.embedded.insert hparse, fun source' => ?_, by rw [hnode]; rfl⟩
          rw [Host.spelled]
          simp only [EmbeddedCache.insert, Table.get?_set]
          by_cases hsource : source = source'
          · rw [if_pos hsource, ← hsource, hnode]
          · rw [if_neg hsource]
            rfl
      · next stop hparse => exact ⟨h.embedded, fun _ => rfl, by rw [hspelled, hparse]⟩

/-- What is embedded is the same expression on both hosts, one that the source spells. -/
theorem alike_embeddedNode (source : String) : HostAlike ρ
    (fun node node' => node' = node ∧ ∃ quiet, parseEmbedded quiet source = .ok node)
    (embeddedNode source) (embeddedNode source) := by
  intro _ h h' hh
  obtain ⟨embedded, hspelled, hrun⟩ := run_embeddedNode_spelled source h
  obtain ⟨embedded', hspelled', hrun'⟩ := run_embeddedNode_spelled source h'
  rw [hrun, hrun', hh.spelled]
  cases hnode : h.spelled source with
  | error stop => exact alike_stopReading stop hh
  | ok node =>
    refine ⟨⟨⟨#[], Array.append_empty.symm⟩, hspelled, rfl⟩, ?_, .ok ⟨rfl, h.spelled_eq_ok hnode⟩⟩
    refine ⟨hh.store, hh.fresh, hh.options, fun source' => ?_, hh.world, ?_⟩
    · rw [hspelled', hspelled, hh.spelled]
    · conv_lhs => rw [hh.rest]

theorem alike_signalText? (s : Signal) :
    HostAlike ρ Eq (signalText? s) (signalText? (s.rename ρ)) := by
  cases s with
  | raised v => exact (alike_text v).map fun _ _ h => congrArg some h
  | returned v => exact (alike_text v).map fun _ _ h => congrArg some h
  | _ => exact .pure rfl

/-! ### Items and members -/

abbrev RenamedIfAny (ρ : Ref → Ref) (v v' : Option Value) : Prop := v' = v.map (Value.rename ρ)

theorem alike_item? (v key : Value) :
    HostAlike ρ (RenamedIfAny ρ) (item? v key) (item? (v.rename ρ) (key.rename ρ)) := by
  refine Mirrors.read fun _ h h' hh => .pure ?_
  rw [RenamedIfAny, hh.reader]
  exact hh.store.item? h.reader v key

theorem alike_indexed (v key : Value) :
    HostAlike ρ (Value.Renamed ρ) (indexed v key) (indexed (v.rename ρ) (key.rename ρ)) := by
  refine (alike_item? v key).bind fun x x' hx => ?_
  cases hx
  cases x with
  | some x => exact .pure rfl
  | none =>
    refine (alike_text key).bind fun k k' hk => (alike_text v).bind fun c c' hc => ?_
    cases hk
    cases hc
    exact (alike_report (.noEntry k c)).bind fun _ _ _ => .pure rfl

/-- A property of an instance is bound to the instance alike. -/
theorem alike_property (v : Value) (props : Ref) (name : String) :
    HostAlike ρ (Value.Renamed ρ) (property v props name)
      (property (v.rename ρ) (ρ props) name) := by
  refine Mirrors.read fun _ h h' hh => ?_
  have hdict := hh.store.dict? (.ref props)
  rw [Value.rename] at hdict
  have hvalue : (h'.store.lookup ((h'.store.dict? (.ref (ρ props))).getD []) (.text name)).getD
      .none = ((h.store.lookup ((h.store.dict? (.ref props)).getD []) (.text name)).getD
      .none).rename ρ := by
    have hlookup (entries : List (Value × Value)) :
        h'.store.lookup (renameEntries ρ entries) (.text name) =
          (h.store.lookup entries (.text name)).map (Value.rename ρ) :=
      hh.store.lookup entries (.text name)
    rw [hdict, getD_renameEntries, hlookup]
    cases h.store.lookup ((h.store.dict? (.ref props)).getD []) (.text name) <;> rfl
  dsimp only
  rw [hvalue, hh.store.ofValue?, hh.store.isCallable]
  generalize (h.store.lookup ((h.store.dict? (.ref props)).getD []) (.text name)).getD .none = x
  have hcallable : HostAlike ρ (Value.Renamed ρ)
      (if h.store.isCallable x then allocValue (.bound v x) else pure x)
      (if h.store.isCallable x then allocValue (.bound (v.rename ρ) (x.rename ρ))
        else pure (x.rename ρ)) := by
    split
    · exact alike_allocValue (.bound v x)
    · exact .pure rfl
  rcases h.store.ofValue? x with _ | o
  · exact hcallable
  · cases o with
    | func => exact alike_allocValue (.bound v x)
    | _ => exact hcallable

theorem operation?_rename (names : List String) (v : Value) (name : String) :
    operation? names (v.rename ρ) name = (operation? names v name).map (Value.rename ρ) := by
  unfold operation?
  split <;> rfl

theorem alike_modelled? (v : Value) (name : String) :
    HostAlike ρ (RenamedIfAny ρ) (modelled? v name) (modelled? (v.rename ρ) name) := by
  have hoperation (names : List String) (v : Value) : HostAlike ρ (RenamedIfAny ρ)
      (pure (operation? names v name)) (pure (operation? names (v.rename ρ) name)) :=
    .pure (operation?_rename names v name)
  unfold modelled?
  cases v with
  | text s => exact hoperation _ (.text s)
  | int i =>
    dsimp only [Value.rename]
    split
    · exact .pure rfl
    · exact .pure rfl
    · exact .pure rfl
    · exact .pure rfl
    · exact hoperation _ (.int i)
  | bool b =>
    dsimp only [Value.rename]
    split
    · exact .pure rfl
    · exact .pure rfl
    · exact .pure rfl
    · exact .pure rfl
    · exact hoperation _ (.bool b)
  | float x =>
    dsimp only [Value.rename]
    split
    · exact .pure rfl
    · exact .pure rfl
    · exact hoperation _ (.float x)
  | moment m =>
    have hfield : (m.field? name).map (Value.rename ρ) = m.field? name := by
      unfold Moment.field?
      dsimp only
      split <;> rfl
    dsimp only [Value.rename]
    cases hm : m.field? name with
    | some x =>
      rw [hm] at hfield
      exact .pure hfield.symm
    | none => exact hoperation _ (.moment m)
  | range a b c =>
    dsimp only [Value.rename]
    split <;> exact .pure rfl
  | builtin t =>
    dsimp only [Value.rename]
    split <;> exact .pure rfl
  | options =>
    refine Mirrors.read fun _ h h' hh => .pure ?_
    rw [RenamedIfAny, hh.options, Table.get?_rename]
  | internal part =>
    have hpart := Internal.rename_part? ρ part name
    dsimp only [Value.rename]
    cases hp : part.part? name with
    | some x =>
      rw [hp] at hpart
      exact .pure hpart.symm
    | none => exact hoperation _ (.internal part)
  | ref r =>
    refine (alike_obj? r).bind fun o o' ho => ?_
    cases ho
    rcases o with _ | o
    · exact .pure rfl
    cases o with
    | list items => exact hoperation _ (.ref r)
    | tuple items => exact hoperation _ (.ref r)
    | dict entries => exact hoperation _ (.ref r)
    | func declaration code fields =>
      dsimp only [Option.map, Obj.rename]
      rw [Table.get?_rename]
      cases fields.get? name with
      | some x => exact .pure rfl
      | none => split <;> exact .pure rfl
    | record kind fields => exact .pure (Table.get?_rename fields name)
    | inst cls props =>
      dsimp only [Option.map, Obj.rename]
      split
      · exact .pure rfl
      split
      · exact .pure rfl
      split
      · exact .pure rfl
      split
      · exact .throw _
      · exact (alike_property (.ref r) props name).map fun _ _ h => congrArg some h
    | fault f fields =>
      dsimp only [Option.map, Obj.rename]
      split
      · exact .pure rfl
      · exact .pure rfl
      · exact .pure rfl
      · exact .pure rfl
      · exact .pure rfl
      · exact (alike_newTuple f.args).map fun _ _ h => congrArg some h
      · rw [Table.get?_rename]
        cases fields.get? name with
        | some x => exact .pure rfl
        | none => exact hoperation _ (.ref r)
    | failure f fields =>
      dsimp only [Option.map, Obj.rename]
      rw [Table.get?_rename]
      cases fields.get? name with
      | some x => exact .pure rfl
      | none =>
        dsimp only [Option.map]
        split
        · contradiction
        · exact (alike_newTuple [.text f.message]).map fun _ _ h => congrArg some h
        · exact .pure rfl
    | _ => exact .pure rfl
  | _ => exact .pure rfl

/-- What a name means on a value is the same up to new numbers. -/
theorem alike_attribute? (v : Value) (name : String) :
    HostAlike ρ (RenamedIfAny ρ) (attribute? v name) (attribute? (v.rename ρ) name) := by
  refine (alike_modelled? v name).bind fun x x' hx => ?_
  cases hx
  cases x with
  | some x => exact .pure rfl
  | none =>
    refine Mirrors.read fun _ h h' hh => ?_
    rw [hh.store.hasFurther]
    split
    · exact .throw _
    · exact .pure rfl

theorem alike_member (v : Value) (name : String) :
    HostAlike ρ (Value.Renamed ρ) (member v name) (member (v.rename ρ) name) := by
  refine (alike_attribute? v name).bind fun x x' hx => ?_
  cases hx
  cases x with
  | some x => exact .pure rfl
  | none => exact (alike_report (.noAttribute name)).bind fun _ _ _ => .pure rfl

/-! ### Operators -/

/-- A sum with a text joins the texts of both values. -/
theorem addOrJoin_eq (v w : Value) : addOrJoin v w = if v.isText || w.isText then (do
      let a ← text v
      let b ← text w
      pure (.text (a ++ b))) else add v w := by
  cases v <;> cases w <;> rfl

theorem alike_operandsFail (op : String) (v w : Value) :
    HostAlike ρ (Value.Renamed ρ) (operandsFail op v w)
      (operandsFail op (v.rename ρ) (w.rename ρ)) := by
  refine (alike_typeName v).bind fun _ _ hv => (alike_typeName w).bind fun _ _ hw => ?_
  cases hv
  cases hw
  exact alike_fail _

theorem alike_concatFail (kind : String) (w : Value) :
    HostAlike ρ (Value.Renamed ρ) (concatFail kind w) (concatFail kind (w.rename ρ)) := by
  refine (alike_typeName w).bind fun _ _ hw => ?_
  cases hw
  exact alike_fail _

theorem number?_rename (v : Value) : (v.rename ρ).number? = v.number? := by
  cases v <;> rfl

/-- An operation on numbers is alike, if what it does otherwise is. -/
theorem alike_numeric {f : Num → Num → Except Failure Value}
    (hf : ∀ a b, Value.rename ρ <$> f a b = f a b) {v w : Value} {x y : HostExec Value}
    (hrest : HostAlike ρ (Value.Renamed ρ) x y) : HostAlike ρ (Value.Renamed ρ)
      (match numeric? f v w with | some r => ofExcept r | none => x)
      (match numeric? f (v.rename ρ) (w.rename ρ) with | some r => ofExcept r | none => y) := by
  unfold numeric?
  rw [number?_rename, number?_rename]
  cases v.number? with
  | none => exact hrest
  | some a =>
    cases w.number? with
    | none => exact hrest
    | some b => exact alike_ofExcept (hf a b).symm

theorem rename_combine (exact : Int → Int → Int) (rounded : Float → Float → Float) (a b : Num) :
    Value.rename ρ <$> Num.combine exact rounded a b = Num.combine exact rounded a b := by
  have hrounded : Value.rename ρ <$> (do
      let x ← a.toFloat
      let y ← b.toFloat
      .ok (.float (rounded x y)) : Except Failure Value) = (do
      let x ← a.toFloat
      let y ← b.toFloat
      .ok (.float (rounded x y))) := by
    cases a.toFloat with
    | error f => rfl
    | ok x => cases b.toFloat <;> rfl
  cases a with
  | float x => exact hrounded
  | int i =>
    cases b with
    | float y => exact hrounded
    | int j => rfl

theorem rename_div (a b : Num) : Value.rename ρ <$> Num.div a b = Num.div a b := by
  have hrounded : Value.rename ρ <$> (do
      let x ← a.toFloat
      let y ← b.toFloat
      if y == 0.0 then .error .floatDivisionByZero else .ok (.float (x / y)) :
        Except Failure Value) = (do
      let x ← a.toFloat
      let y ← b.toFloat
      if y == 0.0 then .error .floatDivisionByZero else .ok (.float (x / y))) := by
    cases a.toFloat with
    | error f => rfl
    | ok x =>
      cases b.toFloat with
      | error f => rfl
      | ok y =>
        change Value.rename ρ <$> (if y == 0.0 then _ else _) = if y == 0.0 then _ else _
        split <;> rfl
  cases a with
  | float x => exact hrounded
  | int i =>
    cases b with
    | float y => exact hrounded
    | int j =>
      rw [Num.div]
      split
      · rfl
      · cases Number.divInt? i j <;> rfl

theorem alike_add (v w : Value) :
    HostAlike ρ (Value.Renamed ρ) (add v w) (add (v.rename ρ) (w.rename ρ)) := by
  refine alike_numeric (rename_combine _ _) ?_
  split
  · cases w with
    | text b => exact .pure rfl
    | _ => exact alike_concatFail "str" _
  · next hv =>
      split
      · next hrename => cases v <;> cases hrename; exact absurd rfl (hv _)
      refine (alike_objOf? v).bind fun a a' ha => (alike_objOf? w).bind fun b b' hb => ?_
      cases ha
      cases hb
      rcases a with _ | a
      · exact alike_operandsFail "+" v w
      cases a with
      | list a =>
        rcases b with _ | b
        · exact alike_concatFail "list" w
        cases b with
        | list b =>
          dsimp only [Option.map, Obj.rename]
          rw [Array.toList_map, Array.toList_map, ← List.map_append]
          exact alike_newList _
        | _ => exact alike_concatFail "list" w
      | tuple a =>
        rcases b with _ | b
        · exact alike_concatFail "tuple" w
        cases b with
        | tuple b =>
          dsimp only [Option.map, Obj.rename]
          rw [← List.map_append]
          exact alike_newTuple _
        | _ => exact alike_concatFail "tuple" w
      | bytes a =>
        have hfail : HostAlike ρ (Value.Renamed ρ)
            (do fail (.other .wrongType ("can't concat " ++ (← typeName w) ++ " to bytearray")))
            (do fail (.other .wrongType
              ("can't concat " ++ (← typeName (w.rename ρ)) ++ " to bytearray"))) := by
          refine (alike_typeName w).bind fun _ _ hw => ?_
          cases hw
          exact alike_fail _
        rcases b with _ | b
        · exact hfail
        cases b with
        | bytes b => exact alike_allocValue (.bytes (a ++ b))
        | _ => exact hfail
      | _ => exact alike_operandsFail "+" v w

theorem alike_sub (v w : Value) :
    HostAlike ρ (Value.Renamed ρ) (sub v w) (sub (v.rename ρ) (w.rename ρ)) :=
  alike_numeric (rename_combine _ _) (alike_operandsFail "-" v w)

theorem alike_div (v w : Value) :
    HostAlike ρ (Value.Renamed ρ) (div v w) (div (v.rename ρ) (w.rename ρ)) :=
  alike_numeric rename_div (alike_operandsFail "/" v w)

theorem alike_repeated? (v : Value) (times : Nat) :
    HostAlike ρ (RenamedIfAny ρ) (repeated? v times) (repeated? (v.rename ρ) times) := by
  have hflatten (items : List Value) : (List.replicate times (items.map (Value.rename ρ))).flatten =
      (List.replicate times items).flatten.map (Value.rename ρ) := by
    rw [List.map_flatten, List.map_replicate]
  unfold repeated?
  split
  · exact .pure rfl
  · next hv =>
      split
      · next hrename => cases v <;> cases hrename; exact absurd rfl (hv _)
      refine (alike_objOf? v).bind fun a a' ha => ?_
      cases ha
      rcases a with _ | a
      · exact .pure rfl
      cases a with
      | list a =>
        dsimp only [Option.map, Obj.rename]
        rw [Array.toList_map, hflatten]
        exact (alike_newList _).map fun _ _ h => congrArg some h
      | tuple a =>
        dsimp only [Option.map, Obj.rename]
        rw [hflatten]
        exact (alike_newTuple _).map fun _ _ h => congrArg some h
      | bytes a => exact (alike_allocValue (.bytes _)).map fun _ _ h => congrArg some h
      | _ => exact .pure rfl

theorem alike_isSequence (v : Value) : HostAlike ρ Eq (isSequence v) (isSequence (v.rename ρ)) := by
  unfold isSequence
  split
  · exact .pure rfl
  · next hv =>
      split
      · next hrename => cases v <;> cases hrename; exact absurd rfl (hv _)
      refine (alike_objOf? v).bind fun a a' ha => ?_
      cases ha
      rcases a with _ | a
      · exact .pure rfl
      · cases a <;> exact .pure rfl

theorem alike_repeatBy (v w : Value) :
    HostAlike ρ (Value.Renamed ρ) (repeatBy v w) (repeatBy (v.rename ρ) (w.rename ρ)) := by
  unfold repeatBy
  rw [Value.int?_rename]
  cases w.int? with
  | none =>
    refine (alike_typeName w).bind fun _ _ hw => ?_
    cases hw
    exact alike_fail _
  | some i =>
    dsimp only
    split
    on_goal 1 => refine (alike_fail _).bind fun _ _ (_ : True) => ?_
    all_goals
      refine (alike_repeated? v i.toNat).bind fun r r' hr => ?_
      cases hr
      cases r <;> exact .pure rfl

theorem alike_mul (v w : Value) :
    HostAlike ρ (Value.Renamed ρ) (mul v w) (mul (v.rename ρ) (w.rename ρ)) := by
  refine alike_numeric (rename_combine _ _) ?_
  refine (alike_isSequence v).bind fun b _ hb => ?_
  cases hb
  cases b with
  | true => exact alike_repeatBy v w
  | false =>
    refine (alike_isSequence w).bind fun b _ hb => ?_
    cases hb
    cases b with
    | true => exact alike_repeatBy w v
    | false => exact alike_operandsFail "*" v w

theorem alike_addOrJoin (v w : Value) :
    HostAlike ρ (Value.Renamed ρ) (addOrJoin v w) (addOrJoin (v.rename ρ) (w.rename ρ)) := by
  rw [addOrJoin_eq, addOrJoin_eq, Value.isText_rename, Value.isText_rename]
  split
  · refine (alike_text v).bind fun _ _ hv => (alike_text w).bind fun _ _ hw => .pure ?_
    rw [hv, hw]
    rfl
  · exact alike_add v w

theorem alike_compareBy (op : String) (v w : Value) :
    HostAlike ρ (Value.Renamed ρ) (compareBy op v w) (compareBy op (v.rename ρ) (w.rename ρ)) := by
  refine Mirrors.read fun _ h h' hh => ?_
  rw [hh.store.ordered]
  refine Mirrors.map (alike_ofExcept (id_map _).symm) fun b b' hb => ?_
  rw [hb]
  rfl

/-- An operator does the same with values that are the same up to new numbers. -/
theorem alike_strictBinary (op : BinaryOp) (v w : Value) :
    HostAlike ρ (Value.Renamed ρ) (strictBinary op v w)
      (strictBinary op (v.rename ρ) (w.rename ρ)) := by
  cases op with
  | add => exact alike_addOrJoin v w
  | sub => exact alike_sub v w
  | mul => exact alike_mul v w
  | div => exact alike_div v w
  | lt => exact alike_compareBy _ v w
  | gt => exact alike_compareBy _ v w
  | le => exact alike_compareBy _ v w
  | ge => exact alike_compareBy _ v w
  | eq => exact (alike_equal v w).bind fun _ _ hb => .pure (hb ▸ rfl)
  | ne => exact (alike_equal v w).bind fun _ _ hb => .pure (hb ▸ rfl)
  | index => exact alike_indexed v w
  | _ => exact (alike_report _).bind fun _ _ _ => .pure rfl

theorem alike_unaryFail (op : String) (v : Value) : HostAlike ρ (Value.Renamed ρ)
    (do fail (.unaryOperand op (← typeName v)))
    (do fail (.unaryOperand op (← typeName (v.rename ρ)))) := by
  refine (alike_typeName v).bind fun _ _ hv => ?_
  cases hv
  exact alike_fail _

theorem alike_strictUnary (op : UnaryOp) (v : Value) :
    HostAlike ρ (Value.Renamed ρ) (strictUnary op v) (strictUnary op (v.rename ρ)) := by
  cases op with
  | not => exact (alike_truth v).bind fun _ _ hb => .pure (hb ▸ rfl)
  | neg =>
    cases v with
    | float x => exact .pure rfl
    | int i => exact .pure rfl
    | bool b => exact .pure rfl
    | _ => exact alike_unaryFail "-" _
  | pos =>
    cases v with
    | float x => exact .pure rfl
    | int i => exact .pure rfl
    | bool b => exact .pure rfl
    | _ => exact alike_unaryFail "+" _
  | other s => exact (alike_report _).bind fun _ _ _ => .pure rfl

end Exec

end ScriptLang
