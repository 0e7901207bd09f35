import ScriptLang.Proofs.Store.Rename
import ScriptLang.Run.Evaluate

/-!
# Computations on renamed objects

Two hosts may differ in the numbers of their objects, and one of them may have objects that the
other has not. A computation is mirrored by another if, run on two such hosts, both end alike and
leave two such hosts behind; in addition, the first one keeps to a frame, such as making objects
only. The same is said of machines. The ways of putting computations together keep this.
-/

namespace ScriptLang

variable {σ ι ε α β γ δ : Type}

/-! ### Mirrored computations -/

/-- Both outcomes are results that are related, or both are early ends of the same kind. -/
inductive Related (f : ε → ε) (R : α → β → Prop) : Except ε α → Except ε β → Prop where
  | ok {a : α} {b : β} : R a b → Related f R (.ok a) (.ok b)
  | error (e : ε) : Related f R (.error e) (.error (f e))

/-- An early end of the second computation comes from one of the first. -/
theorem Related.exists_error {f : ε → ε} {R : α → β → Prop} {outcome : Except ε α}
    {outcome' : Except ε β} {e : ε} (h : Related f R outcome outcome') (he : outcome' = .error e) :
    ∃ e', outcome = .error e' ∧ f e' = e := by
  cases h with
  | ok => cases he
  | error e' => exact ⟨e', rfl, Except.error.inj he⟩

def failure? : Except ε α → Option ε
  | .ok _ => none
  | .error e => some e

theorem failure?_eq_some {outcome : Except ε α} {e : ε} :
    failure? outcome = some e ↔ outcome = .error e := by
  cases outcome <;> simp [failure?]

/-- What computations may do to the state, given the reason why they end early, if they do. -/
class IsFrame (F : σ → Option ε → σ → Prop) : Prop where
  refl : ∀ s failure, F s failure s
  trans : ∀ {s s₁ s₂ failure}, F s none s₁ → F s₁ failure s₂ → F s failure s₂

/-- Run in related states, the first computation keeps to the frame, and the second one ends alike
and leaves a related state behind. -/
def Mirrors (T : ι → σ → σ → Prop) (F : σ → Option ε → σ → Prop) (f : ε → ε) (R : α → β → Prop)
    (x : ExceptT ε (StateM σ) α) (y : ExceptT ε (StateM σ) β) : Prop :=
  ∀ ⦃i s s'⦄, T i s s' → F s (failure? (x.run s).1) (x.run s).2 ∧
    T i (x.run s).2 (y.run s').2 ∧ Related f R (x.run s).1 (y.run s').1

namespace Mirrors

variable {T : ι → σ → σ → Prop} {F : σ → Option ε → σ → Prop} [IsFrame F] {f : ε → ε}
  {R : α → β → Prop} {S : γ → δ → Prop}

theorem pure {a : α} {b : β} (h : R a b) : Mirrors T F f R (pure a) (pure b) :=
  fun _ _ _ hs => ⟨IsFrame.refl _ _, hs, .ok h⟩

/-- Early ends mirror each other under new numbers. -/
theorem throw (e : ε) : Mirrors T F f R (throw e) (throw (f e)) :=
  fun _ _ _ hs => ⟨IsFrame.refl _ _, hs, .error e⟩

theorem get : Mirrors T F f (fun s s' => ∃ i, T i s s') get get :=
  fun _ _ _ hs => ⟨IsFrame.refl _ _, hs, .ok ⟨_, hs⟩⟩

/-- The rule of sequence: results that are related lead to computations that mirror each other. -/
theorem bind {x : ExceptT ε (StateM σ) α} {y : ExceptT ε (StateM σ) β}
    {k : α → ExceptT ε (StateM σ) γ} {l : β → ExceptT ε (StateM σ) δ}
    (hx : Mirrors T F f R x y) (hk : ∀ a b, R a b → Mirrors T F f S (k a) (l b)) :
    Mirrors T F f S (x >>= k) (y >>= l) := by
  intro i s s' hs
  obtain ⟨hframe, hstates, hrelated⟩ := hx hs
  change F s (failure? ((ExceptT.bindCont k (x.run s).1).run (x.run s).2).1)
      ((ExceptT.bindCont k (x.run s).1).run (x.run s).2).2 ∧
    T i ((ExceptT.bindCont k (x.run s).1).run (x.run s).2).2
      ((ExceptT.bindCont l (y.run s').1).run (y.run s').2).2 ∧
    Related f S ((ExceptT.bindCont k (x.run s).1).run (x.run s).2).1
      ((ExceptT.bindCont l (y.run s').1).run (y.run s').2).1
  revert hframe hstates hrelated
  rcases x.run s with ⟨e | a, s₁⟩ <;> rcases y.run s' with ⟨e' | b, s₁'⟩ <;>
    rintro hframe hstates ⟨⟩
  · exact ⟨hframe, hstates, .error e⟩
  · next hab =>
      obtain ⟨hframe', hrest⟩ := hk a b hab hstates
      exact ⟨IsFrame.trans hframe hframe', hrest⟩

theorem map {x : ExceptT ε (StateM σ) α} {y : ExceptT ε (StateM σ) β} {k : α → γ} {l : β → δ}
    (hx : Mirrors T F f R x y) (hk : ∀ a b, R a b → S (k a) (l b)) :
    Mirrors T F f S (k <$> x) (l <$> y) := by
  rw [map_eq_pure_bind, map_eq_pure_bind]
  exact hx.bind fun a b hab => pure (hk a b hab)

/-- What is read off the state. -/
theorem read {k : σ → ExceptT ε (StateM σ) γ} {l : σ → ExceptT ε (StateM σ) δ}
    (h : ∀ i s s', T i s s' → Mirrors T F f S (k s) (l s')) :
    Mirrors T F f S (MonadState.get >>= k) (MonadState.get >>= l) :=
  .bind .get fun _ _ ⟨_, hs⟩ => h _ _ _ hs

omit [IsFrame F] in
/-- What keeps to a frame keeps to a wider one. -/
theorem mono {F' : σ → Option ε → σ → Prop} {x : ExceptT ε (StateM σ) α}
    {y : ExceptT ε (StateM σ) β} (h : Mirrors T F f R x y)
    (hF : ∀ s failure s', F s failure s' → F' s failure s') : Mirrors T F' f R x y :=
  fun _ _ _ hs => (h hs).imp_left (hF _ _ _)

end Mirrors

instance : IsFrame (fun (_ : σ) (_ : Option ε) (_ : σ) => True) :=
  ⟨fun _ _ => trivial, fun _ _ => trivial⟩

/-! ### Hosts -/

def World.emitAll (w : World) (events : List Event) : World := events.foldl World.emit w

def Host.spelled (h : Host) (source : String) : Except ParseStop Node :=
  match h.embedded.nodes.get? source with
  | some node => .ok node
  | none => parseEmbedded h.isQuiet source

/-- What a source spells was read from it, silenced or not. -/
theorem Host.spelled_eq_ok (h : Host) {source : String} {node : Node}
    (hnode : h.spelled source = .ok node) : ∃ quiet, parseEmbedded quiet source = .ok node := by
  rw [Host.spelled] at hnode
  split at hnode
  · next hknown =>
      cases hnode
      exact h.embedded.parsed hknown
  · exact ⟨_, hnode⟩

/-- The second host is the first one with other numbers for the objects, and maybe with other
objects besides. The same events have been shown on both since their worlds were `w` and `w'`. -/
structure Host.Renames (ρ : Ref → Ref) (w w' : World) (h h' : Host) : Prop where
  store : Store.Renames ρ h.store h'.store
  fresh : ∀ i, ρ (h.store.size + i) = h'.store.size + i
  options : h'.options = h.options.rename ρ
  spelled : ∀ source, h'.spelled source = h.spelled source
  world : ∃ events, h.world = w.emitAll events ∧ h'.world = w'.emitAll events
  rest : h' = { h with
    store := h'.store, options := h'.options, embedded := h'.embedded, world := h'.world }

/-- The second host is the first one with new objects and newly read expressions. -/
structure Host.Grown (h h' : Host) : Prop where
  store : ∃ fresh, h'.store = h.store ++ fresh
  spelled : ∀ source, h'.spelled source = h.spelled source
  rest : h' = { h with store := h'.store, embedded := h'.embedded }

instance : IsFrame (fun h (_ : Option Halt) h' => Host.Grown h h') where
  refl h _ := ⟨⟨#[], by simp⟩, fun _ => rfl, rfl⟩
  trans h h' := by
    obtain ⟨⟨fresh, hfresh⟩, hspelled, hrest⟩ := h
    obtain ⟨⟨fresh', hfresh'⟩, hspelled', hrest'⟩ := h'
    refine ⟨⟨fresh ++ fresh', by rw [hfresh', hfresh, Array.append_assoc]⟩,
      fun source => (hspelled' source).trans (hspelled source), ?_⟩
    rw [hrest', hrest]

namespace Host.Renames

variable {ρ : Ref → Ref} {w w' : World} {h h' : Host} (hh : Host.Renames ρ w w' h h')
include hh

theorem isQuiet : h'.isQuiet = h.isQuiet := by
  rw [hh.rest]
  rfl

theorem reader : h'.reader = h.reader := by
  have hlanguage : h'.language = h.language.rename ρ := by
    rw [Host.language, hh.options, Table.get?_rename, Host.language]
    cases h.options.get? "runtime_default_language" <;> rfl
  rw [Host.reader, hlanguage, hh.store.truth, hh.store.text, Host.reader]

/-- A new object on both sides keeps the renaming. -/
theorem push (o : Obj) : Host.Renames ρ w w' { h with store := h.store.push o }
    { h' with store := h'.store.push (o.rename ρ) } where
  store := hh.store.push (hh.fresh 0) o
  fresh i := by
    have := hh.fresh (1 + i)
    simp only [Array.size_push]
    rw [Nat.add_assoc, this, Nat.add_assoc]
  options := hh.options
  spelled := hh.spelled
  world := hh.world
  rest := by
    conv_lhs => rw [hh.rest]

theorem emit (e : Event) : Host.Renames ρ w w' { h with world := h.world.emit e }
    { h' with world := h'.world.emit e } where
  store := hh.store
  fresh := hh.fresh
  options := hh.options
  spelled := hh.spelled
  world := by
    obtain ⟨events, hw, hw'⟩ := hh.world
    exact ⟨events ++ [e], by simp [hw, World.emitAll], by simp [hw', World.emitAll]⟩
  rest := by
    conv_lhs => rw [hh.rest]

end Host.Renames

def Halt.rename (ρ : Ref → Ref) : Halt → Halt
  | .raised error => .raised (error.rename ρ)
  | halt => halt

/-- The line that a computation ended with is shown on both hosts. -/
theorem Host.Renames.showing {ρ : Ref → Ref} {w w' : World} {h h' : Host} {R : α → β → Prop}
    {outcome : Except Halt α} {outcome' : Except Halt β} (hh : Host.Renames ρ w w' h h')
    (hrelated : Related (Halt.rename ρ) R outcome outcome') :
    Host.Renames ρ w w' (h.showing outcome) (h'.showing outcome') := by
  cases hrelated with
  | ok => exact hh
  | error halt =>
    cases halt with
    | reported line => exact hh.emit (.alarm line)
    | _ => exact hh

/-- The computations do the same on hosts of which one is a renaming of the other, and make new
objects only. -/
abbrev HostAlike (ρ : Ref → Ref) (R : α → β → Prop) (x : HostExec α) (y : HostExec β) : Prop :=
  Mirrors (fun i : World × World => Host.Renames ρ i.1 i.2) (fun h _ h' => Host.Grown h h')
    (Halt.rename ρ) R x y

/-! ### Machines -/

def Signal.rename (ρ : Ref → Ref) : Signal → Signal
  | .raised error => .raised (error.rename ρ)
  | .exit code => .exit (code.rename ρ)
  | .returned value => .returned (value.rename ρ)
  | signal => signal

def Scope.rename (ρ : Ref → Ref) (s : Scope Value) : Scope Value :=
  { s with vars := s.vars.rename ρ }

/-- The second machine is the first one with other numbers for the objects, and maybe with other
objects besides. -/
structure Machine.Renames (ρ : Ref → Ref) (w w' : World) (m m' : Machine) : Prop where
  host : Host.Renames ρ w w' m.toHost m'.toHost
  scopes : m'.scopes = m.scopes.map (Scope.rename ρ)
  rest : m' = { m with toHost := m'.toHost, scopes := m'.scopes }

/-- The second machine is the first one with new objects and newly read expressions, after some
events. -/
structure Machine.Grown (m m' : Machine) : Prop where
  store : ∃ fresh, m'.store = m.store ++ fresh
  spelled : ∀ source, m'.toHost.spelled source = m.toHost.spelled source
  world : ∃ events, m'.world = m.world.emitAll events
  rest : m' = { m with
    store := m'.store, embedded := m'.embedded, world := m'.world, current := m'.current }

namespace Machine.Grown

theorem refl (m : Machine) : m.Grown m :=
  ⟨⟨#[], Array.append_empty.symm⟩, fun _ => rfl, ⟨[], rfl⟩, rfl⟩

theorem trans {m₁ m₂ m₃ : Machine} (h : m₁.Grown m₂) (h' : m₂.Grown m₃) : m₁.Grown m₃ := by
  obtain ⟨⟨fresh, hfresh⟩, hspelled, ⟨events, hevents⟩, hrest⟩ := h
  obtain ⟨⟨fresh', hfresh'⟩, hspelled', ⟨events', hevents'⟩, hrest'⟩ := h'
  refine ⟨⟨fresh ++ fresh', by rw [hfresh', hfresh, Array.append_assoc]⟩,
    fun source => (hspelled' source).trans (hspelled source), ⟨events ++ events', ?_⟩, ?_⟩
  · rw [hevents', hevents, World.emitAll, World.emitAll, World.emitAll, List.foldl_append]
  · rw [hrest', hrest]

theorem ofHost {m : Machine} {h : Host} (hgrown : Host.Grown m.toHost h) :
    m.Grown { m with toHost := h } := by
  have hworld : h.world = m.world := by
    rw [hgrown.rest]
  refine ⟨hgrown.store, hgrown.spelled, ⟨[], hworld⟩, ?_⟩
  conv_lhs => rw [hgrown.rest, ← hworld]

end Machine.Grown

/-- A machine may grow, and show events if the program ends. -/
structure Machine.Adds (m : Machine) (failure : Option Signal) (m' : Machine) : Prop where
  grown : m.Grown m'
  silent : (∀ code, failure ≠ some (.exit code)) → m'.world = m.world

instance : IsFrame Machine.Adds where
  refl m _ := ⟨.refl m, fun _ => rfl⟩
  trans h h' := ⟨h.grown.trans h'.grown, fun hfailure =>
    (h'.silent hfailure).trans (h.silent fun _ => nofun)⟩

/-- What a computation on the host ended with is shown if it is a notice. -/
theorem Machine.Adds.ofHost {m : Machine} {h : Host} (hgrown : Host.Grown m.toHost h)
    (outcome : Except Halt α) :
    m.Adds (failure? (outcome.mapError Halt.signal)) { m with toHost := h.showing outcome } := by
  have hworld : h.world = m.world := by
    rw [hgrown.rest]
  rcases outcome with (_ | line | _ | _) | _
  case error.reported =>
    refine ⟨(Grown.ofHost hgrown).trans ?_, fun hexit => absurd rfl (hexit (.int 1))⟩
    exact ⟨⟨#[], Array.append_empty.symm⟩, fun _ => rfl, ⟨[.alarm line], rfl⟩, rfl⟩
  all_goals exact ⟨.ofHost hgrown, fun _ => hworld⟩

theorem Related.mapError_signal {ρ : Ref → Ref} {R : α → β → Prop} {outcome : Except Halt α}
    {outcome' : Except Halt β} (h : Related (Halt.rename ρ) R outcome outcome') :
    Related (Signal.rename ρ) R (outcome.mapError Halt.signal) (outcome'.mapError Halt.signal) := by
  cases h with
  | ok hab => exact .ok hab
  | error halt => cases halt <;> exact .error _

abbrev Twins (ρ : Ref → Ref) (R : α → β → Prop) (x : Exec α) (y : Exec β) : Prop :=
  Mirrors (fun i : World × World => Machine.Renames ρ i.1 i.2) (fun _ _ _ => True)
    (Signal.rename ρ) R x y

/-- The computations do the same on machines of which one is a renaming of the other; they make new
objects only, and show events only if they end the program. -/
abbrev Alike (ρ : Ref → Ref) (R : α → β → Prop) (x : Exec α) (y : Exec β) : Prop :=
  Mirrors (fun i : World × World => Machine.Renames ρ i.1 i.2) Machine.Adds (Signal.rename ρ) R x y

/-- A computation on the host, run on machines. -/
theorem Mirrors.onMachine {ρ : Ref → Ref} {R : α → β → Prop} {x : HostExec α} {y : HostExec β}
    {F : Host → Option Halt → Host → Prop} {F' : Machine → Option Signal → Machine → Prop}
    (h : Mirrors (fun i : World × World => Host.Renames ρ i.1 i.2) F (Halt.rename ρ) R x y)
    (hF : ∀ (m : Machine) (outcome : Except Halt α) (h : Host), F m.toHost (failure? outcome) h →
      F' m (failure? (outcome.mapError Halt.signal)) { m with toHost := h.showing outcome }) :
    Mirrors (fun i : World × World => Machine.Renames ρ i.1 i.2) F' (Signal.rename ρ) R
      (liftM x : Exec α) (liftM y : Exec β) := by
  intro i m m' hm
  obtain ⟨hframe, hhosts, hrelated⟩ := h hm.host
  rw [Exec.run_host, Exec.run_host]
  refine ⟨hF m _ _ hframe, ⟨hhosts.showing hrelated, hm.scopes, ?_⟩, hrelated.mapError_signal⟩
  conv_lhs => rw [hm.rest]

namespace Alike

variable {ρ : Ref → Ref} {R : α → β → Prop}

/-- A handler may go on after every signal but the end of the program. -/
theorem tryCatch {x : Exec α} {y : Exec β} {k : Signal → Exec α} {l : Signal → Exec β}
    (hx : Alike ρ R x y) (hk : ∀ s, Alike ρ R (k s) (l (s.rename ρ)))
    (hexit : ∀ code m, ((k (.exit code)).run m).1 = .error (.exit code)) :
    Alike ρ R (tryCatch x k : Exec α) (tryCatch y l : Exec β) := by
  intro i m m' hm
  obtain ⟨hframe, hmachines, hrelated⟩ := hx hm
  rw [Exec.run_tryCatch, Exec.run_tryCatch]
  revert hframe hmachines hrelated
  rcases x.run m with ⟨e | a, m₁⟩ <;> rcases y.run m' with ⟨e' | b, m₁'⟩ <;>
    rintro hframe hmachines ⟨⟩
  · obtain ⟨hframe', hrest⟩ := hk e hmachines
    refine ⟨⟨hframe.grown.trans hframe'.grown, fun hfailure => ?_⟩, hrest⟩
    refine (hframe'.silent hfailure).trans (hframe.silent fun code hcode => ?_)
    cases hcode
    exact hfailure code (congrArg failure? (hexit code m₁))
  · next hab => exact ⟨hframe, hmachines, .ok hab⟩

/-- Computations on hosts that are alike are alike on machines. -/
theorem host {x : HostExec α} {y : HostExec β} (h : HostAlike ρ R x y) :
    Alike ρ R (liftM x : Exec α) (liftM y : Exec β) :=
  h.onMachine fun _ outcome _ hgrown => .ofHost hgrown outcome

theorem twins {x : Exec α} {y : Exec β} (h : Alike ρ R x y) : Twins ρ R x y :=
  h.mono fun _ _ _ _ => trivial

end Alike

end ScriptLang
