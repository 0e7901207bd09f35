import ScriptLang.Proofs.Run.Operand

/-!
# Errors of a wrong type

The sum of a text and another value fails with an error of a wrong type, if it is not the operator
that joins their texts. To write a value as a text, to report something or to set a name never fails
in this way.
-/

namespace ScriptLang

/-! ### Texts that cannot be written -/

namespace Store

variable {α β : Type}

def WritesUnlessTooLong (x : Except Failure α) : Prop := ∀ f, x = .error f → f = .tooLongToWrite

namespace WritesUnlessTooLong

theorem ok (a : α) : WritesUnlessTooLong (.ok a) := nofun

theorem bind {x : Except Failure α} {f : α → Except Failure β} (hx : WritesUnlessTooLong x)
    (hf : ∀ a, WritesUnlessTooLong (f a)) : WritesUnlessTooLong (x >>= f) := by
  cases x with
  | error e => exact fun _ h => hx _ (by cases h; rfl)
  | ok a => exact hf a

theorem mapM {f : α → Except Failure β} (hf : ∀ a, WritesUnlessTooLong (f a)) (as : List α) :
    WritesUnlessTooLong (as.mapM f) := by
  induction as with
  | nil => exact .ok []
  | cons a as ih =>
    rw [List.mapM_cons]
    exact (hf a).bind fun b => ih.bind fun bs => .ok (b :: bs)

end WritesUnlessTooLong

/-- By induction on the depth: the text of a value inside another one is written unless it is too
long. -/
theorem writes_quotedWithin (st : Store) (reader : Option String) (fuel : Nat) (seen : List Ref)
    (v : Value) : WritesUnlessTooLong (st.quotedWithin reader fuel seen v) := by
  induction fuel generalizing seen v with
  | zero => exact .ok _
  | succ fuel ih =>
    rw [quotedWithin.eq_def]
    cases v with
    | int i =>
      dsimp only
      cases Number.intText? i with
      | some s => exact .ok s
      | none => exact fun _ h => by cases h; rfl
    | range a b c =>
      exact (WritesUnlessTooLong.mapM (fun i => ih seen (.int i)) _).bind fun _ => .ok _
    | internal part => cases part <;> exact .ok _
    | ref r =>
      dsimp only
      rcases st[r]? with _ | o
      · exact .ok _
      have hwithin (v : Value) := ih (r :: seen) v
      cases o with
      | list items =>
        dsimp only
        split
        · exact .ok _
        · exact (WritesUnlessTooLong.mapM hwithin _).bind fun _ => .ok _
      | tuple items =>
        dsimp only
        split
        · exact .ok _
        · exact (WritesUnlessTooLong.mapM hwithin _).bind fun _ => .ok _
      | dict entries =>
        dsimp only
        split
        · exact .ok _
        · refine (WritesUnlessTooLong.mapM (fun p => ?_) _).bind fun _ => .ok _
          exact (hwithin p.1).bind fun _ => (hwithin p.2).bind fun _ => .ok _
      | view kind d =>
        dsimp only
        split
        · exact .ok _
        · refine (WritesUnlessTooLong.mapM (fun p => ?_) _).bind fun _ => .ok _
          cases kind with
          | keys => exact hwithin p.1
          | values => exact hwithin p.2
          | items => exact (hwithin p.1).bind fun _ => (hwithin p.2).bind fun _ => .ok _
      | fault f fields => exact (WritesUnlessTooLong.mapM hwithin _).bind fun _ => .ok _
      | failure f fields => cases f <;> exact .ok _
      | _ => exact .ok _
    | _ => exact .ok _

theorem writes_within (st : Store) (reader : Option String) (fuel : Nat) :
    (∀ v, WritesUnlessTooLong (st.textWithin reader fuel v)) ∧
    (∀ f, WritesUnlessTooLong (st.faultTextWithin reader fuel f)) ∧
    ∀ f, WritesUnlessTooLong (st.faultWithin reader fuel f) := by
  induction fuel with
  | zero => exact ⟨fun _ => .ok _, fun _ => .ok _, fun _ => .ok _⟩
  | succ fuel ih =>
    obtain ⟨htext, hfaultText, hfault⟩ := ih
    refine ⟨fun v => ?_, fun f => ?_, fun f => ?_⟩
    · have hquoted := st.writes_quotedWithin reader (fuel + 1) [] v
      cases v with
      | text s => exact .ok s
      | moment t => exact .ok _
      | ref r =>
        rw [textWithin]
        rcases st[r]? with _ | o
        · exact hquoted
        cases o with
        | fault f fields => exact hfault f
        | failure f fields => exact .ok _
        | _ => exact hquoted
      | _ => exact hquoted
    · rw [faultTextWithin]
      refine (WritesUnlessTooLong.mapM (fun p => ?_) _).bind fun tagged => ?_
      · exact (htext p.1).bind fun _ => .ok _
      · cases pickText reader tagged with
        | some v => exact htext v
        | none => exact .ok _
    · rw [faultWithin]
      exact (htext _).bind fun _ => (htext _).bind fun _ => (htext _).bind fun _ =>
        (htext _).bind fun _ => (hfaultText f).bind fun _ => .ok _

/-- The text of a value is written unless it is too long. -/
theorem writes_text (st : Store) (reader : Option String) (v : Value) :
    WritesUnlessTooLong (st.text reader v) := (st.writes_within reader _).1 v

end Store

/-! ### Errors of a wrong type -/

/-- A run ends with the error that an operation was given a value of a wrong type. -/
def EndsInTypeError {α : Type} (a : Except Signal α × Machine) : Prop :=
  ∃ r f fields, a.1 = .error (.raised (.ref r)) ∧ a.2.store[r]? = some (.failure f fields) ∧
    f.category = .wrongType

theorem Signal.exists_raised_ref {ρ : Ref → Ref} {s : Signal} {r : Ref}
    (h : s.rename ρ = .raised (.ref r)) : ∃ r₀, s = .raised (.ref r₀) ∧ ρ r₀ = r := by
  cases s with
  | raised v =>
    have hv : v.rename ρ = .ref r := by simpa [Signal.rename] using h
    cases v <;> cases hv
    exact ⟨_, rfl, rfl⟩
  | _ => cases h

/-- Runs that end alike end alike in an error of a wrong type. -/
theorem Machine.SameSince.endsInTypeError_iff {m : Machine} {a b : Except Signal Value × Machine}
    (h : m.SameSince a b) : EndsInTypeError a ↔ EndsInTypeError b := by
  obtain rfl | ⟨k, hrelated, hrenames⟩ := h
  · rfl
  obtain ⟨a, m₁⟩ := a
  obtain ⟨b, m₂⟩ := b
  constructor
  · rintro ⟨r, f, fields, hraised, hobj, hf⟩
    cases hraised
    cases hrelated
    refine ⟨_, f, fields.rename (shiftFrom m.store.size k), rfl, ?_, hf⟩
    rw [hrenames.host.store.obj, hobj]
    rfl
  · rintro ⟨r, f, fields, hraised, hobj, hf⟩
    obtain ⟨s, rfl, hs⟩ := hrelated.exists_error hraised
    obtain ⟨r₀, rfl, rfl⟩ := Signal.exists_raised_ref hs
    rw [hrenames.host.store.obj] at hobj
    obtain ⟨o, ho, hfailure⟩ := Option.map_eq_some_iff.1 hobj
    cases o <;> cases hfailure
    exact ⟨r₀, f, _, rfl, ho, hf⟩

namespace Exec

variable {α β : Type} {m : Machine}

/-- The sum of a text and another value is an error of a wrong type. -/
theorem run_add_mixed {v w : Value} (h : v.isText ≠ w.isText) (host : Host) :
    ∃ f : Failure, f.category = .wrongType ∧ (add v w).run host = (fail f).run host := by
  cases v with
  | text a =>
    cases w with
    | text b => exact absurd rfl h
    | _ => exact ⟨.concatenation "str" _, rfl, rfl⟩
  | ref r =>
    cases w with
    | text b =>
      have hobj : (objOf? (.ref r)).run host = (.ok host.store[r]?, host) := rfl
      have hnone : (objOf? (.text b)).run host = (.ok none, host) := rfl
      have hadd : add (.ref r) (.text b) = (objOf? (.ref r) >>= fun o => objOf? (.text b) >>= _) :=
        rfl
      simp only [hadd, HostExec.run_bind, hobj, hnone]
      rcases host.store[r]? with _ | o
      · exact ⟨.operands "+" _ _, rfl, rfl⟩
      cases o with
      | list items => exact ⟨.concatenation "list" _, rfl, rfl⟩
      | tuple items => exact ⟨.concatenation "tuple" _, rfl, rfl⟩
      | bytes data => exact ⟨.other .wrongType _, rfl, rfl⟩
      | _ => exact ⟨.operands "+" _ _, rfl, rfl⟩
    | _ => exact absurd rfl h
  | _ =>
    cases w with
    | text b => exact ⟨.operands "+" _ _, rfl, rfl⟩
    | _ => exact absurd rfl h

theorem liftM_bind_host (x : HostExec α) (f : α → HostExec β) :
    (liftM (x >>= f) : Exec β) = (liftM x >>= fun a => liftM (f a)) := by
  refine ExceptT.ext (StateT.ext fun m => ?_)
  change (liftM (x >>= f) : Exec β).run m = (liftM x >>= fun a => liftM (f a) : Exec β).run m
  rw [run_host, HostExec.run_bind, run_bind, run_host]
  rcases x.run m.toHost with ⟨halt | a, host⟩
  · cases halt <;> rfl
  · rfl

def NoTypeError (x : Exec α) (m : Machine) : Prop := ¬ EndsInTypeError (x.run m)

namespace NoTypeError

theorem of_ok {x : Exec α} {a : α} {m' : Machine} (h : x.run m = (.ok a, m')) :
    NoTypeError x m := by
  rintro ⟨r, f, fields, hraised, -⟩
  rw [h] at hraised
  cases hraised

/-- A sequence ends with no such error if neither part does. -/
theorem bind {x : Exec α} {k : α → Exec β} (hx : NoTypeError x m)
    (hk : ∀ a m', x.run m = (.ok a, m') → NoTypeError (k a) m') : NoTypeError (x >>= k) m := by
  rw [NoTypeError, run_bind]
  rw [NoTypeError] at hx
  rcases hrun : x.run m with ⟨s | a, m'⟩
  · rw [hrun] at hx
    rintro ⟨r, f, fields, hraised, hfailure⟩
    cases hraised
    exact hx ⟨r, f, fields, rfl, hfailure⟩
  · exact hk a m' hrun

/-- A computation on the host that raises nothing has no error of a wrong type. -/
theorem host {x : HostExec α} (h : ∀ v, (x.run m.toHost).1 ≠ .error (.raised v)) :
    NoTypeError (liftM x) m := by
  rintro ⟨r, f, fields, hraised, -⟩
  rw [run_host] at hraised
  rcases hrun : (x.run m.toHost).1 with halt | a
  · rw [hrun] at hraised
    cases halt with
    | raised v => exact h v hrun
    | _ => cases hraised
  · rw [hrun] at hraised
    cases hraised

theorem report (n : Notice) (m : Machine) : NoTypeError (liftM (report n) : Exec Unit) m := by
  have hrun : (Exec.report n).run m.toHost = (if !m.toHost.isQuiet then throw _ else pure _ :
    HostExec Unit).run m.toHost := rfl
  rintro ⟨r, f, fields, hraised, -⟩
  rw [run_host, hrun] at hraised
  split at hraised <;> cases hraised

/-- The text of a value is too long to be written, or there is one. -/
theorem text (v : Value) (m : Machine) : NoTypeError (liftM (text v) : Exec String) m := by
  rintro ⟨r, f, fields, hraised, hobj, hf⟩
  cases htext : m.store.text m.toHost.reader v with
  | ok s =>
    rw [run_host, HostExec.run_text htext] at hraised
    cases hraised
  | error f' =>
    have hget : (get : HostExec Host).run m.toHost = (.ok m.toHost, m.toHost) := rfl
    have hrun : (Exec.text v).run m.toHost = (fail f').run m.toHost := by
      rw [Exec.text, HostExec.run_bind, hget]
      dsimp only
      rw [htext]
      rfl
    cases m.store.writes_text m.toHost.reader v f' htext
    rw [run_host, hrun, HostExec.run_fail] at hraised hobj
    cases hraised
    have hfailure : (m.store.push (.failure .tooLongToWrite []))[m.store.size]? = _ := hobj
    rw [Array.getElem?_push_size] at hfailure
    cases hfailure
    cases hf

theorem assignName (e : ScopeId) (id : String) (v : Value) : NoTypeError (assignName e id v) m := by
  refine .bind (.of_ok (run_get m)) fun m' _ _ => ?_
  dsimp only
  split
  · exact .bind (.report _ _) fun _ _ _ => .of_ok rfl
  · exact .of_ok rfl

end NoTypeError

/-- Joining a text and another value ends with no such error. -/
theorem noTypeError_addOrJoin {v w : Value} (h : v.isText ≠ w.isText) (m : Machine) :
    NoTypeError (liftM (strictBinary .add v w) : Exec Value) m := by
  change NoTypeError (liftM (addOrJoin v w) : Exec Value) m
  have htext : (v.isText || w.isText) = true := by
    cases hv : v.isText <;> simp_all
  rw [addOrJoin_eq, if_pos htext, liftM_bind_host]
  refine .bind (.text v m) fun a m₁ _ => ?_
  rw [liftM_bind_host]
  exact .bind (.text w m₁) fun b m₂ _ => .of_ok rfl

end Exec

end ScriptLang
