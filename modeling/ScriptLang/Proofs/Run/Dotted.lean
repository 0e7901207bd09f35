import ScriptLang.Proofs.Run.Define
import ScriptLang.Proofs.Run.Modifier

/-!
# Dotted names

A dotted name is a sequence of names with dots between them. Read as an expression it is a member
chain, and such a chain is first looked up as one name. So a member that has been defined in a
module is reached by its dotted name, whatever the parts of that name are bound to.
-/

namespace ScriptLang

open Grammar Lexeme

inductive Dotted : String → Prop where
  | name {s : String} : IsName s → Dotted s
  | member {s t : String} : Dotted s → IsName t → Dotted (s ++ "." ++ t)

theorem Dotted.append {s t : String} (hs : Dotted s) (ht : Dotted t) : Dotted (s ++ "." ++ t) := by
  induction ht with
  | name ht => exact .member hs ht
  | @member t u _ hu ih =>
    have hassoc : s ++ "." ++ (t ++ "." ++ u) = s ++ "." ++ t ++ "." ++ u := by
      simp only [String.append_assoc]
    rw [hassoc]
    exact .member ih hu

/-! ### Reading -/

/-- A name, or a member chain, that stands for a dotted name. -/
inductive Node.Spells : Node → String → Prop where
  | name (s : String) : Spells (.name s) s
  | member {a : Node} {s : String} : Spells a s → (t : String) →
      Spells (.member a t) (s ++ "." ++ t)

/-- A member of what spells a dotted name spells a longer one. -/
theorem Node.Spells.path? {a : Node} {s : String} (h : Spells a s) (t : String) :
    (Node.member a t).path? = some (s ++ "." ++ t) := by
  induction h generalizing t with
  | name s => rfl
  | @member a s _ u ih =>
    change ((Node.member a u).path?.map fun p => p ++ "." ++ t) = _
    rw [ih u]
    rfl

/-- The tokens of a text, whatever comes after it that does not continue a name. -/
def ReadsAs (s : String) (ts : List Token) : Prop :=
  ∀ cs : List Char, (∀ c ∈ cs.head?, isNameRest c = false) →
    tokenize (String.ofList (s.toList ++ cs)) = ts ++ tokenize (String.ofList cs)

theorem tokenize_dot (cs : List Char) :
    tokenize (String.ofList ('.' :: cs)) = TokenKind.dot.token :: tokenize (String.ofList cs) := by
  have hscan : scan '.' cs = (.dot, 0) := rfl
  rw [tokenize_cons hscan (by simp), List.drop_zero]
  rfl

theorem ReadsAs.name {s : String} (h : IsName s) : ReadsAs s [wordToken s] :=
  fun _ hcs => tokenize_name_append h hcs

/-- A dot and a name after a dotted name are read as two more tokens. -/
theorem ReadsAs.member {s t : String} {ts : List Token} (hs : ReadsAs s ts) (ht : IsName t) :
    ReadsAs (s ++ "." ++ t) (ts ++ [TokenKind.dot.token, wordToken t]) := by
  intro cs hcs
  have htext : (s ++ "." ++ t).toList ++ cs = s.toList ++ '.' :: (t.toList ++ cs) := by simp
  rw [htext, hs _ (by simp; rfl), tokenize_dot, tokenize_name_append ht hcs]
  simp

/-- A dotted name is a member chain. -/
theorem Dotted.exists_postfixed {s : String} (h : Dotted s) :
    ∃ ts node, ReadsAs s ts ∧ Postfixed Expr ts node ∧ node.Spells s := by
  induction h with
  | name hs => exact ⟨_, _, .name hs, .one (.name rfl), .name _⟩
  | member _ ht ih =>
    obtain ⟨ts, node, hreads, hnode, hspells⟩ := ih
    exact ⟨_, _, hreads.member ht, hnode.member rfl rfl, hspells.member _⟩

/-- A dotted name can be read as an expression, whether or not notices are silenced. -/
theorem Dotted.exists_parseEmbedded {s : String} (h : Dotted s) :
    ∃ node, node.Spells s ∧ ∀ quiet, parseEmbedded quiet s = .ok node := by
  obtain ⟨ts, node, hreads, hnode, hspells⟩ := h.exists_postfixed
  have htokens : tokenize s = ts := by
    have hall := hreads [] (by simp)
    rw [List.append_nil, String.ofList_toList] at hall
    rw [hall]
    exact List.append_nil ts
  have hexpr : Expr ts node := level_mono (l := 0) (m := 8) (by omega) hnode
  have hloud : parseEmbedded false s = .ok node := by
    rw [parseEmbedded_eq_ok_iff, htokens]
    have hlen : (ts ++ []).length < Parse.bound ts := by simp [Parse.bound]
    have hrun := (Parse.reads_expr (Parse.bound ts)).complete hlen hexpr (by simp [Parse.Stops])
    rwa [List.append_nil] at hrun
  refine ⟨node, hspells, fun quiet => ?_⟩
  cases quiet with
  | false => exact hloud
  | true => exact (parseEmbedded_silenced hloud).1

namespace Exec

open Machine

/-! ### Evaluation -/

/-- A chain whose dotted name is bound has the value of that name. -/
theorem run_evaluateStep_spells {node : Node} {x : String} (h : node.Spells x) {m : Machine}
    {e : ScopeId} {v : Value} (hx : m.scopes.get? e x = some v) (g : Engine) :
    (evaluateStep g node e).run m = (.ok v, { m with current := e }) := by
  have hscope : (inScope e).run m = (.ok (), { m with current := e }) := rfl
  cases h with
  | name =>
    change (inScope e >>= fun _ => lookup e x).run m = _
    rw [run_bind, hscope]
    dsimp only
    rw [lookup, run_bind, run_get]
    dsimp only
    rw [hx]
    rfl
  | @member a s ha t =>
    change (inScope e >>= fun _ => evaluateMember g e a t).run m = _
    rw [run_bind, hscope]
    dsimp only
    rw [evaluateMember, run_bind, run_get]
    dsimp only
    rw [ha.path?, Option.bind_some, hx]
    rfl

def memberNames (module id : String) : List String :=
  if isRootModule (.text module) then [id, "@." ++ id, "root." ++ id] else [module ++ "." ++ id]

/-- All names of a member that has been defined have its content. -/
theorem global?_of_define {module id : String} {content doc : Value} {m m' : Machine}
    (hm : m.scopes.Outermost m.root)
    (hrun : (define (.text module) (.text id) content doc).run m = (.ok (), m')) {x : String}
    (hx : x ∈ memberNames module id) :
    m'.scopes.Outermost m'.root ∧ m'.global? x = some content := by
  rw [memberNames] at hx
  split at hx
  · next hroot =>
    rw [run_defineRoot_eq_ok hm hroot hrun]
    exact ⟨outermost_definedRoot hm .., by rw [global?_definedRoot hm, if_pos hx]⟩
  · next hroot =>
    have hvalue := global?_definedIn hm module id content doc x
    rw [if_pos (List.mem_singleton.1 hx).symm] at hvalue
    rw [run_define_eq_ok hm (by simpa using hroot) hrun]
    exact ⟨outermost_definedIn hm module id content doc, hvalue⟩

/-- All names of a member with dotted parts are dotted. -/
theorem dotted_of_mem_memberNames {module id x : String} (hmodule : Dotted module) (hid : Dotted id)
    (hx : x ∈ memberNames module id) : Dotted x := by
  rw [memberNames] at hx
  split at hx
  · simp only [List.mem_cons, List.not_mem_nil, or_false] at hx
    obtain rfl | rfl | rfl := hx
    · exact hid
    · exact .append (s := "@") (.name ⟨'@', [], rfl, rfl, List.forall_mem_nil _⟩) hid
    · exact .append (s := "root")
        (.name ⟨'r', ['o', 'o', 't'], rfl, rfl, List.all_eq_true.1 rfl⟩) hid
  · rw [List.mem_singleton.1 hx]
    exact hmodule.append hid

/-- A member that has been defined is reached by its dotted name. Whatever the machine was before
the definition, each name of the member is read as an expression, at every level of notices, and
the value of the expression among the globals is the content of the member. -/
theorem evaluate_memberName {module id : String} (hmodule : Dotted module) (hid : Dotted id)
    {content doc : Value} {m m' : Machine} (hm : m.scopes.Outermost m.root)
    (hrun : (define (.text module) (.text id) content doc).run m = (.ok (), m')) {x : String}
    (hx : x ∈ memberNames module id) :
    ∃ node, (∀ quiet, parseEmbedded quiet x = .ok node) ∧
      ∀ depth, ((Engine.ofDepth (depth + 1)).evaluate node m'.root).run m' =
        (.ok content, { m' with current := m'.root }) := by
  obtain ⟨node, hspells, hparse⟩ :=
    (dotted_of_mem_memberNames hmodule hid hx).exists_parseEmbedded
  obtain ⟨hm', hvalue⟩ := global?_of_define hm hrun hx
  have hget : m'.scopes.get? m'.root x = some content := (hm'.get? x).trans hvalue
  exact ⟨node, hparse, fun depth => run_evaluateStep_spells hspells hget (Engine.ofDepth depth)⟩

/-- The parts of the name are bound to other things: `a` is a number, and the list `a.b` is the
module. -/
theorem evaluate_memberName_nested :
    let m : Machine := {
      store := #[.list #[.text "c"]]
      scopes := #[{ vars := [("a", .int 1), ("a.b", .ref 0), ("a.b.c", .text "d")] }] }
    ∃ m', (define (.text "a.b") (.text "c.d") (.int 7) .none).run m = (.ok (), m') ∧
      ∃ node, (∀ quiet, parseEmbedded quiet "a.b.c.d" = .ok node) ∧
        ∀ depth, ((Engine.ofDepth (depth + 1)).evaluate node m'.root).run m' =
          (.ok (.int 7), { m' with current := m'.root }) := by
  intro m
  have hname (c : Char) (hc : isNameStart c = true) : Dotted (String.ofList [c]) :=
    .name ⟨c, [], String.toList_ofList, hc, List.forall_mem_nil _⟩
  have hlist : m.IsList "a.b" :=
    ⟨0, #[.text "c"], by simp [m, global?, Scopes.scope, Table.get?], rfl⟩
  have hm : m.Furnished ["a.b"] [] [] m :=
    ⟨⟨⟨by decide, rfl⟩, fun _ => rfl⟩, rfl, rfl, rfl,
      fun x hx => .inr (List.mem_singleton.1 hx ▸ hlist), by simp, by simp⟩
  have hfits : Fits ["a.b"] [] "a.b" "c.d" := by decide
  obtain ⟨_, m', hrun, -⟩ := furnished_define hm hfits (.int 7) .none
  exact ⟨m', hrun, evaluate_memberName (.append (hname 'a' rfl) (hname 'b' rfl))
    (.append (hname 'c' rfl) (hname 'd' rfl)) hm.globalsOpen.outermost hrun
    (by simp [memberNames, isRootModule])⟩

end Exec

end ScriptLang
