import Mathlib.Data.List.Basic
import ScriptLang.Parser

/-!
# Loops of the parser in rounds

A loop of the parser repeats a round: the round reads some tokens and says whether the loop goes on,
and with what. Here are the rounds of all loops, and that each loop is made of its rounds. A loop
that gives a list is compared in the form in which the items that were read so far stand before it.
-/

namespace ScriptLang

namespace Parse

variable {α β σ : Type}

/-- Rounds, each going on with what the one before it gives, until one ends the loop. A round knows
how many are left. -/
def rounds (round : Nat → σ → Parse (σ ⊕ β)) : Nat → σ → Parse β
  | 0, _ => throw .exhausted
  | n + 1, s => do
    match ← round n s with
    | .inl s => rounds round n s
    | .inr b => pure b

def chainRound (operator? : Token → Option BinaryOp) (operand : Parse Node) (_ : Nat)
    (left : Node) : Parse (Node ⊕ Node) := do
  match (← get).head?.bind operator? with
  | some op =>
    advance
    let right ← operand
    pure (.inl (.binary left op right))
  | none => pure (.inr left)

def commaRound (item : Parse α) (_ : Nat) (items : List α) : Parse (List α ⊕ List α) := do
  let x ← item
  if ← atKind .comma then
    advance
    pure (.inl (items ++ [x]))
  else pure (.inr (items ++ [x]))

def entryRound (quiet : Bool) (expr : Parse Node) (_ : Nat)
    (s : Option String × List (String × Node)) :
    Parse ((Option String × List (String × Node)) ⊕ List (String × Node)) := do
  let key ← dictKey quiet s.1
  let _ ← eat quiet .colon
  let value ← expr
  match key with
  | none => throw (.failed (.unassigned "key"))
  | some k =>
    if ← atKind .comma then
      advance
      pure (.inl (key, s.2 ++ [(k, value)]))
    else pure (.inr (s.2 ++ [(k, value)]))

def postfixRound (quiet : Bool) (expr : Parse Node) (n : Nat) (node : Node) :
    Parse (Node ⊕ Node) := do
  match (← current).map Token.kind with
  | some .dot =>
    advance
    let name ← eatText quiet .name
    pure (.inl (.member node name))
  | some .lparen =>
    advance
    let args ← itemsUntil n .rparen (argument quiet expr)
    let _ ← eat quiet .rparen
    pure (.inl (.call node args))
  | some .lbracket =>
    advance
    let index ← expr
    let _ ← eat quiet .rbracket
    pure (.inl (.binary node .index index))
  | _ => pure (.inr node)

def lvalueRound (quiet : Bool) (expr : Parse Node) (_ : Nat) (node : Node) :
    Parse (Node ⊕ Option Node) := do
  match (← current).map Token.kind with
  | some .dot =>
    advance
    match ← current with
    | some t =>
      if t.kind = .name then
        advance
        pure (.inl (.member node t.text))
      else pure (.inr none)
    | none => pure (.inr none)
  | some .lbracket =>
    advance
    let index ← expr
    let _ ← eat quiet .rbracket
    pure (.inl (.binary node .index index))
  | some .lparen => pure (.inr none)
  | _ => pure (.inr (some node))

def statementRound (ends : Token → Bool) (statement : Parse (Option Node)) (_ : Nat)
    (nodes : List Node) : Parse (List Node ⊕ List Node) := do
  skipSemicolons
  match ← current with
  | none => pure (.inr nodes)
  | some t =>
    if ends t then pure (.inr nodes)
    else
      let node ← statement
      skipSemicolons
      pure (.inl (nodes ++ node.toList))

/-! ### The loops -/

/-- One more round, and then the rest or the end. -/
theorem rounds_succ (round : Nat → σ → Parse (σ ⊕ β)) (n : Nat) (s : σ) :
    rounds round (n + 1) s = round n s >>= Sum.elim (rounds round n) pure := by
  refine bind_congr fun r => ?_
  cases r <;> rfl

/-- Reading a chain is going through its rounds. -/
theorem chainFrom_eq_rounds (operator? : Token → Option BinaryOp) (operand : Parse Node) (n : Nat)
    (left : Node) :
    chainFrom operator? operand n left = rounds (chainRound operator? operand) n left := by
  induction n generalizing left with
  | zero => rfl
  | succ n ih =>
    rw [rounds_succ, chainFrom, chainRound, bind_assoc]
    refine bind_congr fun ts => ?_
    cases ts.head?.bind operator? with
    | none => rfl
    | some op => simp [ih]

theorem commaSeparated_eq_rounds (item : Parse α) (n : Nat) (items : List α) :
    (items ++ ·) <$> commaSeparated item n = rounds (commaRound item) n items := by
  induction n generalizing items with
  | zero => rfl
  | succ n ih =>
    rw [rounds_succ, commaSeparated, commaRound, map_bind, bind_assoc]
    refine bind_congr fun x => ?_
    rw [map_bind, bind_assoc]
    refine bind_congr fun b => ?_
    cases b with
    | false => rfl
    | true => simp [← ih]

theorem dictEntries_eq_rounds (quiet : Bool) (expr : Parse Node) (n : Nat)
    (s : Option String × List (String × Node)) :
    (s.2 ++ ·) <$> dictEntries quiet expr n s.1 = rounds (entryRound quiet expr) n s := by
  induction n generalizing s with
  | zero => rfl
  | succ n ih =>
    rw [rounds_succ, dictEntries, entryRound]
    simp only [map_bind, bind_assoc]
    refine bind_congr fun key => bind_congr fun _ => bind_congr fun value => ?_
    cases key with
    | none => rfl
    | some k =>
      simp only [map_bind, bind_assoc]
      refine bind_congr fun b => ?_
      cases b with
      | false => rfl
      | true => simp [← ih]

theorem postfixes_eq_rounds (quiet : Bool) (expr : Parse Node) (n : Nat) (node : Node) :
    postfixes quiet expr n node = rounds (postfixRound quiet expr) n node := by
  induction n generalizing node with
  | zero => rfl
  | succ n ih =>
    rw [rounds_succ, postfixes, postfixRound, bind_assoc]
    refine bind_congr fun t => ?_
    generalize t.map Token.kind = kind
    split <;> simp [ih]

theorem lvalueFrom_eq_rounds (quiet : Bool) (expr : Parse Node) (n : Nat) (node : Node) :
    lvalueFrom quiet expr n node = rounds (lvalueRound quiet expr) n node := by
  induction n generalizing node with
  | zero => rfl
  | succ n ih =>
    rw [rounds_succ, lvalueFrom, lvalueRound, bind_assoc]
    refine bind_congr fun t => ?_
    generalize t.map Token.kind = kind
    split
    · simp only [bind_assoc]
      refine bind_congr fun _ => bind_congr fun t => ?_
      cases t with
      | none => rfl
      | some t => by_cases ht : t.kind = .name <;> simp [ht, ih]
    all_goals simp [ih]

theorem statementsUntil_eq_rounds (statement : Parse (Option Node)) (n : Nat) (nodes : List Node) :
    (nodes ++ ·) <$> statementsUntil statement n =
      rounds (statementRound (·.kind == .rbrace) statement) n nodes := by
  induction n generalizing nodes with
  | zero => rfl
  | succ n ih =>
    rw [rounds_succ, statementsUntil, statementRound]
    simp only [map_bind, bind_assoc]
    refine bind_congr fun _ => bind_congr fun t => ?_
    cases t with
    | none => simp
    | some t =>
      by_cases ht : t.kind = .rbrace <;> simp [ht, ← ih]

theorem programFrom_eq_rounds (statement : Parse (Option Node)) (n : Nat) (nodes : List Node) :
    (nodes ++ ·) <$> programFrom statement n =
      rounds (statementRound (fun _ => false) statement) n nodes := by
  induction n generalizing nodes with
  | zero => rfl
  | succ n ih =>
    rw [rounds_succ, programFrom, statementRound]
    simp only [map_bind, bind_assoc]
    refine bind_congr fun _ => bind_congr fun t => ?_
    cases t with
    | none => simp
    | some t => simp [← ih]

end Parse

end ScriptLang
