import ScriptLang.Proofs.Run.Basic
import ScriptLang.Run.Execute

/-!
# What computations show

The operations on values show nothing, or they end the program with one notice, which is then shown.
Which notices that can be is read off their definitions; the lemmas on how computations are put
together are known to `grind`. A notice may also be raised as an error. The text of the error is
then the line of the notice.
-/

namespace ScriptLang

variable {α β : Type}

namespace Notice

def event (reader : Option String) (n : Notice) : Event := .alarm (n.render reader)

theorem length_number (n : Notice) : n.form.number.length = 4 := by
  cases n <;> dsimp only [form] <;> decide

/-- An event tells the number of the notice. -/
theorem number_eq_of_event_eq {n n' : Notice} {reader reader' : Option String}
    (h : n.event reader = n'.event reader') : n.form.number = n'.form.number := by
  have hlength : n.form.number.toList.length = n'.form.number.toList.length := by
    rw [String.length_toList, String.length_toList, length_number, length_number]
  simp only [event, Event.alarm, render, headline, Event.styled.injEq, and_true] at h
  have hlist := congrArg String.toList h
  simp only [String.toList_append, List.append_assoc, List.append_cancel_left_eq] at hlist
  exact String.ext (List.append_inj_left hlist hlength)

end Notice

/-- Nothing was shown, or the run ended by showing a notice with the property. -/
def Shown (P : Notice → Prop) (before after : List Event) (ended : Prop) : Prop :=
  after = before ∨ ended ∧ ∃ n reader, P n ∧ after = n.event reader :: before

namespace HostExec

/-- From every host, the computation shows nothing, and a line that it ends the program with is a
notice that has the property. -/
def Shows (P : Notice → Prop) (x : HostExec α) : Prop :=
  ∀ h, (x.run h).2.world.events = h.world.events ∧
    ∀ line, (x.run h).1 = .error (.reported line) → ∃ n reader, P n ∧ line = n.render reader

theorem run_bind (x : HostExec α) (f : α → HostExec β) (h : Host) :
    (x >>= f).run h = match x.run h with
      | (.ok a, h') => (f a).run h'
      | (.error s, h') => (.error s, h') := by
  rw [run_bind_state]
  rcases x.run h with ⟨_ | _, _⟩ <;> rfl

variable {P : Notice → Prop}

namespace Shows

@[grind .]
theorem pure (a : α) : Shows P (pure a : HostExec α) := fun _ => ⟨rfl, nofun⟩

@[grind .]
theorem raised (v : Value) : Shows P (throw (.raised v) : HostExec α) := fun _ => ⟨rfl, nofun⟩

@[grind .]
theorem get : Shows P (get : HostExec Host) := fun _ => ⟨rfl, nofun⟩

theorem modify {f : Host → Host} (hf : ∀ h, (f h).world.events = h.world.events) :
    Shows P (modify f : HostExec PUnit) := fun h => ⟨hf h, nofun⟩

@[grind .]
theorem bind {x : HostExec α} {f : α → HostExec β} (hx : Shows P x) (hf : ∀ a, Shows P (f a)) :
    Shows P (x >>= f) := by
  intro h
  have hshown := hx h
  rw [run_bind]
  revert hshown
  rcases x.run h with ⟨s | a, h'⟩ <;> intro hshown
  · exact ⟨hshown.1, fun line hline => hshown.2 line (by cases hline; rfl)⟩
  · exact ⟨(hf a h').1.trans hshown.1, (hf a h').2⟩

@[grind .]
theorem map (f : α → β) {x : HostExec α} (hx : Shows P x) : Shows P (f <$> x) := by
  rw [map_eq_pure_bind]
  exact hx.bind fun a => pure (f a)

end Shows

end HostExec

namespace Exec

open HostExec (Shows)

variable {P : Notice → Prop}

/-- Reporting a notice shows that notice or nothing. -/
theorem shows_report {n : Notice} (hn : P n) : Shows P (report n) := by
  intro h
  have hget : (get : HostExec Host).run h = (.ok h, h) := rfl
  rw [report, HostExec.run_bind, hget]
  dsimp only
  split
  · refine ⟨rfl, fun line hline => ?_⟩
    cases hline
    exact ⟨n, h.reader, hn, rfl⟩
  · exact ⟨rfl, nofun⟩

/-- Unless notices are silenced, reporting one ends the program with its line. -/
theorem run_report_shown {n : Notice} {host : Host} (h : host.isQuiet = false) :
    (report n).run host = (.error (.reported (n.render host.reader)), host) := by
  have hget : (get : HostExec Host).run host = (.ok host, host) := rfl
  rw [report, HostExec.run_bind, hget]
  simp only [h, Bool.not_false, if_true]
  rfl

theorem run_report_silenced {n : Notice} {host : Host} (h : host.isQuiet = true) :
    (report n).run host = (.ok (), host) := by
  have hget : (get : HostExec Host).run host = (.ok host, host) := rfl
  rw [report, HostExec.run_bind, hget]
  simp only [h, Bool.not_true, Bool.false_eq_true, if_false]
  rfl

/-! ### Operations that show nothing -/

@[grind .]
theorem shows_alloc (o : Obj) : Shows P (alloc o) := fun _ => ⟨rfl, nofun⟩

@[grind .]
theorem shows_allocValue (o : Obj) : Shows P (allocValue o) := .map _ (shows_alloc o)

@[grind .]
theorem shows_newList (items : List Value) : Shows P (newList items) := shows_allocValue _

@[grind .]
theorem shows_newTuple (items : List Value) : Shows P (newTuple items) := shows_allocValue _

@[grind .]
theorem shows_dictOfTable (t : Table Value) : Shows P (dictOfTable t) := shows_alloc _

@[grind .]
theorem shows_obj? (r : Ref) : Shows P (obj? r) := fun _ => ⟨rfl, nofun⟩

@[grind .]
theorem shows_objOf? (v : Value) : Shows P (objOf? v) := fun _ => ⟨rfl, nofun⟩

@[grind .]
theorem shows_entriesOf (r : Ref) : Shows P (entriesOf r) := fun _ => ⟨rfl, nofun⟩

@[grind .]
theorem shows_typeName (v : Value) : Shows P (typeName v) := fun _ => ⟨rfl, nofun⟩

@[grind .]
theorem shows_truth (v : Value) : Shows P (truth v) := fun _ => ⟨rfl, nofun⟩

@[grind .]
theorem shows_equal (v w : Value) : Shows P (equal v w) := fun _ => ⟨rfl, nofun⟩

@[grind .]
theorem shows_item? (v key : Value) : Shows P (item? v key) := fun _ => ⟨rfl, nofun⟩

@[grind .]
theorem shows_fail (f : Failure) : Shows P (fail f : HostExec α) := by
  unfold fail
  grind -funext

@[grind .]
theorem shows_ofExcept (x : Except Failure α) : Shows P (ofExcept x) := by
  unfold ofExcept
  grind -funext

@[grind .]
theorem shows_text (v : Value) : Shows P (text v) := by
  unfold text
  grind -funext

@[grind .]
theorem shows_quoted (v : Value) : Shows P (quoted v) := by
  unfold quoted
  grind -funext

@[grind .]
theorem shows_failKey (key : Value) : Shows P (failKey key : HostExec α) := by
  unfold failKey
  grind -funext

@[grind .]
theorem shows_takeLine? : Shows P takeLine? := by
  unfold takeLine?
  refine .bind .get fun h => ?_
  dsimp only
  split
  · exact .pure _
  · exact .bind (.modify fun _ => rfl) fun _ => .pure _

@[grind .]
theorem shows_operandsFail (op : String) (v w : Value) : Shows P (operandsFail op v w) := by
  unfold operandsFail
  grind -funext

@[grind .]
theorem shows_concatFail (kind : String) (w : Value) : Shows P (concatFail kind w) := by
  unfold concatFail
  grind -funext

@[grind .]
theorem shows_add (v w : Value) : Shows P (add v w) := by
  unfold add
  grind -funext

@[grind .]
theorem shows_sub (v w : Value) : Shows P (sub v w) := by
  unfold sub
  grind -funext

@[grind .]
theorem shows_repeated? (v : Value) (times : Nat) : Shows P (repeated? v times) := by
  unfold repeated?
  grind -funext

@[grind .]
theorem shows_isSequence (v : Value) : Shows P (isSequence v) := by
  unfold isSequence
  grind -funext

@[grind .]
theorem shows_repeatBy (v w : Value) : Shows P (repeatBy v w) := by
  unfold repeatBy
  grind -funext

@[grind .]
theorem shows_mul (v w : Value) : Shows P (mul v w) := by
  unfold mul
  grind -funext

@[grind .]
theorem shows_div (v w : Value) : Shows P (div v w) := by
  unfold div
  grind -funext

@[grind .]
theorem shows_negate (v : Value) : Shows P (negate v) := by
  unfold negate
  grind -funext

@[grind .]
theorem shows_identity (v : Value) : Shows P (identity v) := by
  unfold identity
  grind -funext

@[grind .]
theorem shows_compareBy (op : String) (v w : Value) : Shows P (compareBy op v w) := by
  unfold compareBy
  grind -funext

@[grind .]
theorem shows_nextOf (s : Series) : Shows P (nextOf s) := by
  unfold nextOf
  split
  case h_3 r kind size i =>
    refine .bind (shows_entriesOf r) fun entries => ?_
    extract_lets pair next
    have hnext (u : Unit) : Shows P (next u) := by
      dsimp only [next]
      split
      · exact .pure _
      · cases kind <;> grind -funext
    clear_value next
    grind -funext
  all_goals grind -funext

/-! ### Operations that report -/

/-- A subscript shows at most the notice that there is no entry. -/
theorem shows_indexed (hentry : ∀ key collection, P (.noEntry key collection)) (v key : Value) :
    Shows P (indexed v key) := by
  unfold indexed
  grind -funext [shows_report]

theorem shows_checkType (htype : ∀ name expected actual, P (.variableType name expected actual))
    (name type : String) (v : Value) : Shows P (checkType name type v) := by
  unfold checkType
  grind -funext [shows_report]

theorem shows_applyAssignOp (hop : ∀ op, P (.unknownOperator op)) (op : AssignOp) (v w : Value) :
    Shows P (applyAssignOp op v w) := by
  unfold applyAssignOp
  grind -funext [shows_report]

/-- An operator shows at most that it is unknown or that there is no entry. -/
theorem shows_strictBinary (hop : ∀ op, P (.unknownOperator op))
    (hentry : ∀ key collection, P (.noEntry key collection)) (op : BinaryOp) (v w : Value) :
    Shows P (strictBinary op v w) := by
  unfold strictBinary addOrJoin
  grind -funext [shows_report, shows_indexed]

theorem shows_strictUnary (hop : ∀ op, P (.unknownUnary op)) (op : UnaryOp) (v : Value) :
    Shows P (strictUnary op v) := by
  unfold strictUnary
  grind -funext [shows_report]

theorem shows_seriesOf (hiterable : P .notIterable) (v : Value) : Shows P (seriesOf v) := by
  unfold seriesOf
  grind -funext [shows_report]

end Exec

/-! ### Notices as errors -/

theorem pickText_map (f : α → β) (reader : Option String) (texts : List (String × α)) :
    pickText reader (texts.map fun e => (e.1, f e.2)) = (pickText reader texts).map f := by
  have hlookup (tag : String) :
      (texts.map fun e => (e.1, f e.2)).lookup tag = (texts.lookup tag).map f := by
    induction texts with
    | nil => rfl
    | cons e texts ih =>
      rw [List.map_cons, List.lookup_cons, List.lookup_cons, ih]
      cases tag == e.1 <;> rfl
  unfold pickText
  cases reader <;> simp [hlookup, List.head?_map, Option.map_or, Function.comp_def]

def Store.HoldsNotice (st : Store) (r : Ref) (n : Notice) : Prop :=
  ∃ d args fields,
    st[r]? = some (.fault ⟨.text "YPSH", .text "C", .text n.form.number, .text n.form.name, .ref d,
      args⟩ fields) ∧
    st[d]? = some (.dict (n.texts.map fun e => (.text e.1, .text e.2)))

/-- A notice that an object holds it still holds when there are more objects. -/
theorem Store.HoldsNotice.mono {st st' : Store} {r : Ref} {n : Notice} (h : st.HoldsNotice r n)
    (hgrows : Grows st st') : st'.HoldsNotice r n := by
  obtain ⟨d, args, fields, hfault, hdict⟩ := h
  exact ⟨d, args, fields, hgrows _ _ hfault, hgrows _ _ hdict⟩

/-- The text of an error is the line of its notice. -/
theorem Store.HoldsNotice.text_eq {st : Store} {r : Ref} {n : Notice} (h : st.HoldsNotice r n)
    (reader : Option String) : st.text reader (.ref r) = .ok (n.render reader) := by
  obtain ⟨d, args, fields, hfault, hdict⟩ := h
  have hentries : st.dict? (.ref d) = some (n.texts.map fun e => (.text e.1, .text e.2)) := by
    simp [Store.dict?, Store.ofValue?, hdict]
  have htext (k : Nat) (s : String) : st.textWithin reader (k + 1) (.text s) = .ok s := by
    simp [Store.textWithin]
  have htagged (k : Nat) : (n.texts.map fun e => ((.text e.1, .text e.2) : Value × Value)).mapM
      (fun e => do
        let tag ← st.textWithin reader (k + 1) e.1
        Except.ok (tag, e.2)) = .ok (n.texts.map fun e => (e.1, Value.text e.2)) := by
    rw [List.mapM_map]
    simp only [Function.comp_def, htext]
    exact List.mapM_pure
  have hpicked (k : Nat) : st.faultTextWithin reader (k + 2) ⟨.text "YPSH", .text "C",
      .text n.form.number, .text n.form.name, .ref d, args⟩ =
        .ok ((pickText reader n.texts).getD "No Description") := by
    rw [Store.faultTextWithin, hentries, Option.getD_some, htagged k]
    dsimp only [bind, Except.bind]
    rw [pickText_map]
    cases pickText reader n.texts with
    | none => rfl
    | some s => exact htext k s
  unfold Store.text Store.depthBound
  rw [Store.textWithin, hfault]
  simp only [Store.faultWithin, htext, hpicked]
  rfl

theorem Store.text_failure {st : Store} {r : Ref} {f : Failure} {fields : Table Value}
    (h : st[r]? = some (.failure f fields)) (reader : Option String) :
    st.text reader (.ref r) = .ok f.message := by
  unfold Store.text Store.depthBound
  rw [Store.textWithin, h]

theorem HostExec.run_text {host : Host} {v : Value} {t : String}
    (h : host.store.text host.reader v = .ok t) : (Exec.text v).run host = (.ok t, host) := by
  have hget : (get : HostExec Host).run host = (.ok host, host) := rfl
  rw [Exec.text, run_bind, hget]
  dsimp only
  rw [h]
  rfl

/-- The text of an error that was raised is that of its value. -/
theorem Exec.run_signalText {m : Machine} {v : Value} {t : String}
    (h : m.store.text m.reader v = .ok t) :
    (liftM (signalText? (.raised v)) : Exec (Option String)).run m = (.ok (some t), m) := by
  have hrun : (signalText? (.raised v)).run m.toHost = (.ok (some t), m.toHost) := by
    rw [signalText?, map_eq_pure_bind, HostExec.run_bind, HostExec.run_text h]
    rfl
  exact run_host_of_ok hrun

theorem HostExec.run_fail (f : Failure) (host : Host) : (Exec.fail f : HostExec α).run host =
    (.error (.raised (.ref host.store.size)),
      { host with store := host.store.push (.failure f []) }) := rfl

/-- A notice becomes a new error. -/
theorem Exec.run_noticeError (n : Notice) (host : Host) : ∃ r st,
    (noticeError n).run host = (.ok (.ref r), { host with store := st }) ∧
      Grows host.store st ∧ st.HoldsNotice r n := by
  let texts : Obj := .dict (n.texts.map fun e => (.text e.1, .text e.2))
  let raw := (pickText host.reader n.form.texts).getD ""
  let fault : Obj := .fault ⟨.text "YPSH", .text "C", .text n.form.number, .text n.form.name,
    .ref host.store.size, [.text (Notice.headline "YPSH" "C" n.form.number n.form.name raw)]⟩ []
  have hfault : ((host.store.push texts).push fault)[(host.store.push texts).size]? = some fault :=
    Array.getElem?_push_size
  have hdict : ((host.store.push texts).push fault)[host.store.size]? = some texts :=
    Grows.push _ _ _ _ Array.getElem?_push_size
  have hrun : (noticeError n).run host = (.ok (.ref (host.store.push texts).size),
      { host with store := (host.store.push texts).push fault }) := rfl
  exact ⟨_, _, hrun, (Grows.push _ _).trans (.push _ _), _, _, _, hfault, hdict⟩

end ScriptLang
