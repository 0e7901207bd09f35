import ScriptLang.Parser

/-!
# The grammar of expressions

Which tokens spell which expression, as relations that know nothing of a parser:

* `expr = or ['?' expr ':' expr]`
* `or = and ('||' and)*`, `and = not ('&&' not)*`, `not = '!' not | cmp`
* `cmp = term (('<' | '>' | '<=' | '>=' | '==' | '!=') term)*`
* `term = factor (('+' | '-') factor)*`, `factor = unary (('*' | '/') unary)*`
* `unary = ('+' | '-') unary | postfix`
* `postfix = primary ('.' name | '(' arguments ')' | '[' expr ']')*`
* `primary = number | string | name | list | dict | '(' expr ')'`

Chains group to the left. Each relation is parametric in the expressions that its parts are, and
`Expr` ties the knot.
-/

namespace ScriptLang

/-- A kind of phrase: which tokens spell which tree. -/
abbrev Phrase (α : Type) := List Token → α → Prop

namespace Grammar

/-! ### Operators -/

def orOp (t : Token) (op : BinaryOp) : Prop := t.kind = .or ∧ op = .or

def andOp (t : Token) (op : BinaryOp) : Prop := t.kind = .and ∧ op = .and

def comparisonKinds : List TokenKind := [.lt, .gt, .le, .ge, .eq, .ne]

def comparisonOp (t : Token) (op : BinaryOp) : Prop :=
  t.kind ∈ comparisonKinds ∧ op = .ofSymbol t.text

def sumOp (t : Token) (op : BinaryOp) : Prop :=
  t.kind = .op ∧ (t.text = "+" ∧ op = .add ∨ t.text = "-" ∧ op = .sub)

def productOp (t : Token) (op : BinaryOp) : Prop :=
  t.kind = .op ∧ (t.text = "*" ∧ op = .mul ∨ t.text = "/" ∧ op = .div)

def signOp (t : Token) (op : UnaryOp) : Prop :=
  t.kind = .op ∧ (t.text = "+" ∧ op = .pos ∨ t.text = "-" ∧ op = .neg)

def notOp (t : Token) (op : UnaryOp) : Prop := t.kind = .not ∧ op = .not

/-! ### Ways of putting phrases together -/

/-- Operands joined by operators, grouped to the left. -/
inductive Chain (B : Token → BinaryOp → Prop) (D : Phrase Node) : Phrase Node where
  | one {ts : List Token} {a : Node} : D ts a → Chain B D ts a
  | more {ts us : List Token} {a b : Node} {t : Token} {op : BinaryOp} :
      Chain B D ts a → B t op → D us b → Chain B D (ts ++ t :: us) (.binary a op b)

inductive Prefixed (U : Token → UnaryOp → Prop) (D : Phrase Node) : Phrase Node where
  | one {ts : List Token} {a : Node} : D ts a → Prefixed U D ts a
  | more {ts : List Token} {a : Node} {t : Token} {op : UnaryOp} :
      U t op → Prefixed U D ts a → Prefixed U D (t :: ts) (.unary op a)

inductive Separated {α : Type} (D : Phrase α) : Phrase (List α) where
  | one {ts : List Token} {a : α} : D ts a → Separated D ts [a]
  | more {ts us : List Token} {a : α} {as : List α} {t : Token} :
      D ts a → t.kind = .comma → Separated D us as → Separated D (ts ++ t :: us) (a :: as)

inductive Listed {α : Type} (D : Phrase α) : Phrase (List α) where
  | none : Listed D [] []
  | some {ts : List Token} {as : List α} : Separated D ts as → Listed D ts as

inductive Enclosed {α : Type} (opening closing : TokenKind) (D : Phrase α) : Phrase α where
  | intro {o c : Token} {ts : List Token} {a : α} : o.kind = opening → D ts a →
      c.kind = closing → Enclosed opening closing D (o :: ts ++ [c]) a

/-! ### Expressions -/

inductive Argument (E : Phrase Node) : Phrase Node where
  | positional {ts : List Token} {a : Node} : E ts a → Argument E ts a
  | named {n e : Token} {ts : List Token} {a : Node} : n.kind = .name → e.kind = .equal →
      E ts a → Argument E (n :: e :: ts) (.keyword n.text a)

inductive Key : Token → String → Prop where
  | text {t : Token} {s : String} : t.kind = .string ∨ t.kind = .longString →
      Text.unescapeText (Parse.keyBody t.text) = .ok s → Key t s
  | name {t : Token} : t.kind = .name → Key t t.text

inductive DictEntry (E : Phrase Node) : Phrase (String × Node) where
  | intro {k c : Token} {key : String} {ts : List Token} {a : Node} : Key k key →
      c.kind = .colon → E ts a → DictEntry E (k :: c :: ts) (key, a)

inductive Primary (E : Phrase Node) : Phrase Node where
  | number {t : Token} {v : Literal} : t.kind = .number → Parse.numberLiteral t.text = .ok v →
      Primary E [t] (.number v)
  | text {t : Token} {s : String} : t.kind = .string ∨ t.kind = .longString →
      Text.unescapeText (Parse.stringBody t.text) = .ok s → Primary E [t] (.text s)
  | name {t : Token} : t.kind = .name → Primary E [t] (.name t.text)
  | list {ts : List Token} {items : List Node} :
      Enclosed .lbracket .rbracket (Listed E) ts items → Primary E ts (.list items)
  | dict {ts : List Token} {pairs : List (String × Node)} :
      Enclosed .lbrace .rbrace (Listed (DictEntry E)) ts pairs → Primary E ts (.dict pairs)
  | group {ts : List Token} {a : Node} : Enclosed .lparen .rparen E ts a → Primary E ts a

inductive Postfixed (E : Phrase Node) : Phrase Node where
  | one {ts : List Token} {a : Node} : Primary E ts a → Postfixed E ts a
  | member {ts : List Token} {a : Node} {d n : Token} : Postfixed E ts a → d.kind = .dot →
      n.kind = .name → Postfixed E (ts ++ [d, n]) (.member a n.text)
  | call {ts us : List Token} {a : Node} {args : List Node} : Postfixed E ts a →
      Enclosed .lparen .rparen (Listed (Argument E)) us args →
      Postfixed E (ts ++ us) (.call a args)
  | index {ts us : List Token} {a i : Node} : Postfixed E ts a →
      Enclosed .lbracket .rbracket E us i → Postfixed E (ts ++ us) (.binary a .index i)

inductive Path (E : Phrase Node) : Phrase Node where
  | name {t : Token} : t.kind = .name → Path E [t] (.name t.text)
  | member {ts : List Token} {a : Node} {d n : Token} : Path E ts a → d.kind = .dot →
      n.kind = .name → Path E (ts ++ [d, n]) (.member a n.text)
  | index {ts us : List Token} {a i : Node} : Path E ts a →
      Enclosed .lbracket .rbracket E us i → Path E (ts ++ us) (.binary a .index i)

/-- A phrase, alone or as the condition of a choice between expressions. -/
inductive Conditional (D E : Phrase Node) : Phrase Node where
  | plain {ts : List Token} {a : Node} : D ts a → Conditional D E ts a
  | choice {ts us vs : List Token} {a b c : Node} {q s : Token} : D ts a → q.kind = .question →
      E us b → s.kind = .colon → E vs c →
      Conditional D E (ts ++ q :: us ++ s :: vs) (.ternary a b c)

inductive Expr : Phrase Node where
  | intro {ts : List Token} {a : Node} :
      Conditional (Chain orOp (Chain andOp (Prefixed notOp (Chain comparisonOp (Chain sumOp
        (Chain productOp (Prefixed signOp (Postfixed Expr)))))))) Expr ts a → Expr ts a

/-- The phrases of the levels, from the tightest to the loosest one. -/
abbrev Unary (E : Phrase Node) : Phrase Node := Prefixed signOp (Postfixed E)

abbrev Factor (E : Phrase Node) : Phrase Node := Chain productOp (Unary E)

abbrev Term (E : Phrase Node) : Phrase Node := Chain sumOp (Factor E)

abbrev Comparison (E : Phrase Node) : Phrase Node := Chain comparisonOp (Term E)

abbrev Negation (E : Phrase Node) : Phrase Node := Prefixed notOp (Comparison E)

abbrev Conjunction (E : Phrase Node) : Phrase Node := Chain andOp (Negation E)

abbrev Disjunction (E : Phrase Node) : Phrase Node := Chain orOp (Conjunction E)

/-- The phrases of a level, from 0 for whole expressions to 9 for primary ones. -/
def level : Nat → Phrase Node
  | 0 => Expr
  | 1 => Disjunction Expr
  | 2 => Conjunction Expr
  | 3 => Negation Expr
  | 4 => Comparison Expr
  | 5 => Term Expr
  | 6 => Factor Expr
  | 7 => Unary Expr
  | 8 => Postfixed Expr
  | _ => Primary Expr

/-- A phrase of a tighter level is one of the looser level. -/
theorem level_of_succ {l : Nat} {ts : List Token} {a : Node} (h : level (l + 1) ts a) :
    level l ts a :=
  match l with
  | 0 => .intro (.plain h)
  | 1 | 2 | 4 | 5 | 6 => Chain.one h
  | 3 | 7 => Prefixed.one h
  | 8 => Postfixed.one h
  | _ + 9 => h

theorem level_mono {l m : Nat} (hlm : l ≤ m) {ts : List Token} {a : Node} (h : level m ts a) :
    level l ts a := by
  induction hlm with
  | refl => exact h
  | step _ ih => exact ih (level_of_succ h)

/-- A primary expression is a phrase of every level. -/
theorem level_of_primary {ts : List Token} {a : Node} (h : Primary Expr ts a) (l : Nat) :
    level l ts a :=
  level_mono (Nat.le_add_right l 9) h

def extending (t : Token) : Prop :=
  t.kind ∈ [.question, .or, .and, .dot, .lparen, .lbracket] ∨ t.kind ∈ comparisonKinds ∨
    t.kind = .op ∧ t.text ∈ ["+", "-", "*", "/"]

/-! ### Parameters -/

/-- A type after its mark; without one it is `auto`. -/
inductive TypeAfter (mark : TokenKind) : Phrase String where
  | none : TypeAfter mark [] "auto"
  | some {m t : Token} : m.kind = mark → t.kind = .name → TypeAfter mark [m, t] t.text

inductive Default (E : Phrase Node) : Phrase Node where
  | none : Default E [] .absent
  | some {q : Token} {ts : List Token} {a : Node} : q.kind = .equal → E ts a →
      Default E (q :: ts) a

inductive Parameter (E : Phrase Node) : Phrase (String × String × Node) where
  | intro {n : Token} {ts us : List Token} {type : String} {a : Node} : n.kind = .name →
      TypeAfter .colon ts type → Default E us a → Parameter E (n :: ts ++ us) (n.text, type, a)

/-- A literal that can be read, as an expression and as a key; other tokens have nothing to read. -/
def Decodes (t : Token) : Prop :=
  (t.kind = .number → ∃ v, Parse.numberLiteral t.text = .ok v) ∧
  (t.kind = .string ∨ t.kind = .longString →
    (∃ s, Text.unescapeText (Parse.stringBody t.text) = .ok s) ∧
      ∃ s, Text.unescapeText (Parse.keyBody t.text) = .ok s)

end Grammar

end ScriptLang
