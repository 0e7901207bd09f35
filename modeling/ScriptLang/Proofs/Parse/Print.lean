import ScriptLang.Proofs.Parse.Grammar

/-!
# Printing programs

The canonical tokens of expressions and statements. An expression gets parentheses where its place
asks for a phrase that binds tighter. How literals are written is left open: a `Spelling` gives
their texts, and the trees that can be printed with it are those whose literals it spells right.
-/

namespace ScriptLang

open Grammar

structure Spelling where
  number : Literal → String
  text : String → String

/-! ### Tokens -/

/-- The text of a token of which the kind tells the text. -/
def TokenKind.spelling : TokenKind → String
  | .arrow => "->"
  | .dot => "."
  | .plusEq => "+="
  | .minusEq => "-="
  | .multEq => "*="
  | .divEq => "/="
  | .colon => ":"
  | .equal => "="
  | .comma => ","
  | .question => "?"
  | .lparen => "("
  | .rparen => ")"
  | .lbrace => "\x7b"
  | .rbrace => "\x7d"
  | .lbracket => "["
  | .rbracket => "]"
  | .semi => ";"
  | _ => ""

def TokenKind.token (k : TokenKind) : Token := ⟨k, k.spelling, 1⟩

def wordToken (s : String) : Token := ⟨.name, s, 1⟩

def BinaryOp.kind : BinaryOp → TokenKind
  | .add | .sub | .mul | .div => .op
  | .lt => .lt
  | .gt => .gt
  | .le => .le
  | .ge => .ge
  | .eq => .eq
  | .ne => .ne
  | .and => .and
  | .or => .or
  | .index | .other _ => .mismatch

def BinaryOp.token (op : BinaryOp) : Token := ⟨op.kind, op.symbol, 1⟩

def UnaryOp.kind : UnaryOp → TokenKind
  | .not => .not
  | .neg | .pos => .op
  | .other _ => .mismatch

def UnaryOp.token (op : UnaryOp) : Token := ⟨op.kind, op.symbol, 1⟩

def AssignOp.kind : AssignOp → TokenKind
  | .add => .plusEq
  | .sub => .minusEq
  | .mul => .multEq
  | .div => .divEq
  | .other _ => .mismatch

def enclosed (opening : TokenKind) (ts : List Token) (closing : TokenKind) : List Token :=
  opening.token :: ts ++ [closing.token]

theorem enclosed_append (opening closing : TokenKind) (ts us : List Token) :
    enclosed opening ts closing ++ us = opening.token :: (ts ++ closing.token :: us) := by
  simp [enclosed]

def commas (tss : List (List Token)) : List Token := List.intercalate [TokenKind.comma.token] tss

/-! ### Expressions -/

def BinaryOp.precedence : BinaryOp → Nat
  | .or => 1
  | .and => 2
  | .lt | .gt | .le | .ge | .eq | .ne => 4
  | .add | .sub => 5
  | .mul | .div => 6
  | .index => 8
  | .other _ => 0

def UnaryOp.precedence : UnaryOp → Nat
  | .not => 3
  | .neg | .pos => 7
  | .other _ => 0

/-- The tightest level that the bare tokens of an expression are a phrase of. -/
def Node.precedence : Node → Nat
  | .ternary .. => 0
  | .binary _ op _ => op.precedence
  | .unary op _ => op.precedence
  | .member .. | .call .. => 8
  | _ => 9

/-- The tokens of an expression in a place of a level, in parentheses if it binds too loose. -/
def Node.grouped (l : Nat) (a : Node) (ts : List Token) : List Token :=
  if a.precedence < l then enclosed .lparen ts .rparen else ts

def Node.argument : Node → Node
  | .keyword _ a => a
  | a => a

namespace Spelling

variable (w : Spelling)

mutual

/-- The tokens of an expression without parentheses around it. -/
def bare : Node → List Token
  | .name id => [wordToken id]
  | .number v => [⟨.number, w.number v, 1⟩]
  | .text s => [⟨.string, w.text s, 1⟩]
  | .list items => enclosed .lbracket (commas (bareItems items)) .rbracket
  | .dict pairs => enclosed .lbrace (commas (bareEntries pairs)) .rbrace
  | .keyword id a => wordToken id :: TokenKind.equal.token :: bare a
  | .binary a op b =>
    if op = .index then a.grouped 8 (bare a) ++ enclosed .lbracket (bare b) .rbracket
    else a.grouped op.precedence (bare a) ++ op.token :: b.grouped (op.precedence + 1) (bare b)
  | .unary op a => op.token :: a.grouped op.precedence (bare a)
  | .ternary c a b =>
    c.grouped 1 (bare c) ++ TokenKind.question.token :: bare a ++ TokenKind.colon.token :: bare b
  | .member a field => a.grouped 8 (bare a) ++ [TokenKind.dot.token, wordToken field]
  | .call f args => f.grouped 8 (bare f) ++ enclosed .lparen (commas (bareItems args)) .rparen
  | _ => []

def bareItems : List Node → List (List Token)
  | [] => []
  | a :: as => bare a :: bareItems as

def bareEntries : List (String × Node) → List (List Token)
  | [] => []
  | (key, a) :: rest =>
    (⟨.string, w.text key, 1⟩ :: TokenKind.colon.token :: bare a) :: bareEntries rest

end

inductive Expression : Node → Prop where
  | name (id : String) : Expression (.name id)
  | number {v : Literal} : Parse.numberLiteral (w.number v) = .ok v → Expression (.number v)
  | text {s : String} : Text.unescapeText (Parse.stringBody (w.text s)) = .ok s →
      Expression (.text s)
  | list {items : List Node} : (∀ a ∈ items, Expression a) → Expression (.list items)
  | dict {pairs : List (String × Node)} :
      (∀ p ∈ pairs, Text.unescapeText (Parse.keyBody (w.text p.1)) = .ok p.1) →
      (∀ p ∈ pairs, Expression p.2) → Expression (.dict pairs)
  | binary {a b : Node} {op : BinaryOp} : op ∈ BinaryOp.known → Expression a → Expression b →
      Expression (.binary a op b)
  | unary {op : UnaryOp} {a : Node} : op ∈ [.not, .neg, .pos] → Expression a →
      Expression (.unary op a)
  | ternary {c a b : Node} : Expression c → Expression a → Expression b →
      Expression (.ternary c a b)
  | member {a : Node} (field : String) : Expression a → Expression (.member a field)
  | call {f : Node} {args : List Node} : Expression f →
      (∀ a ∈ args, Expression a.argument) → Expression (.call f args)

theorem bareItems_eq_map (as : List Node) : w.bareItems as = as.map w.bare := by
  induction as with
  | nil => rfl
  | cons a as ih => rw [bareItems, ih, List.map_cons]

theorem bareEntries_eq_map (pairs : List (String × Node)) : w.bareEntries pairs =
    pairs.map fun p => ⟨.string, w.text p.1, 1⟩ :: TokenKind.colon.token :: w.bare p.2 := by
  induction pairs with
  | nil => rfl
  | cons p pairs ih => rw [bareEntries, ih, List.map_cons]

end Spelling

/-! ### Statements -/

def keywords : List String :=
  ["global", "local", "template", "class", "do", "var", "let", "func", "if", "for", "while",
    "return", "break", "continue", "else", "elif"]

def StartsFree (ts : List Token) : Prop := ∀ t ∈ ts.head?, t.kind = .name → t.text ∉ keywords

def typeTokens (mark : TokenKind) (type : String) : List Token :=
  if type = "auto" then [] else [mark.token, wordToken type]

def semicolons (tss : List (List Token)) : List Token :=
  List.intercalate [TokenKind.semi.token] tss

namespace Spelling

variable (w : Spelling)

def targetTokens (id : Option String) (target : Node) : List Token :=
  match id with
  | some id => [wordToken id]
  | none => w.bare target

def defaultTokens : Node → List Token
  | .absent => []
  | e => TokenKind.equal.token :: w.bare e

def paramTokens (p : String × String × Node) : List Token :=
  wordToken p.1 :: typeTokens .colon p.2.1 ++ w.defaultTokens p.2.2

mutual

def statement : Node → List Token
  | .assign id e target b =>
    if b.declare then
      wordToken (if b.readOnly then "let" else "var") ::
        w.targetTokens id target ++ typeTokens .colon b.type ++ TokenKind.equal.token :: w.bare e
    else w.targetTokens id target ++ TokenKind.equal.token :: w.bare e
  | .augAssign id op e target => w.targetTokens id target ++ op.kind.token :: w.bare e
  | .func f params returns body =>
    wordToken "func" :: wordToken f ::
      enclosed .lparen (commas (params.map w.paramTokens)) .rparen ++
      typeTokens .arrow returns ++ enclosed .lbrace (semicolons (statements body)) .rbrace
  | .template name body =>
    wordToken "template" :: wordToken name ::
      enclosed .lbrace (semicolons (statements body)) .rbrace
  | .cls name base body =>
    wordToken "class" :: wordToken name ::
      (base.map fun b => [TokenKind.colon.token, wordToken b]).getD [] ++
        enclosed .lbrace (semicolons (statements body)) .rbrace
  | .block body => enclosed .lbrace (semicolons (statements body)) .rbrace
  | .ifStmt c a .absent => wordToken "if" :: enclosed .lparen (w.bare c) .rparen ++ statement a
  | .ifStmt c a b =>
    wordToken "if" :: enclosed .lparen (w.bare c) .rparen ++ statement a ++
      wordToken "else" :: statement b
  | .forStmt v e body =>
    wordToken "for" :: wordToken v :: wordToken "in" :: w.bare e ++ statement body
  | .whileStmt c body => wordToken "while" :: enclosed .lparen (w.bare c) .rparen ++ statement body
  | .returnStmt e => wordToken "return" :: enclosed .lparen (w.bare e) .rparen
  | .tryCatch a v b =>
    wordToken "do" :: statement a ++ wordToken "catch" :: wordToken v :: statement b
  | .breakStmt => [wordToken "break"]
  | .continueStmt => [wordToken "continue"]
  | .shell command => [⟨.shell, "$" ++ command, 1⟩]
  | .intent kind name => [wordToken kind, wordToken name]
  | .exprStmt e => w.bare e
  | _ => []

def statements : List Node → List (List Token)
  | [] => []
  | s :: ss => statement s :: statements ss

end

def print (ss : List Node) : List Token := semicolons (w.statements ss)

inductive Target : Node → Prop where
  | name (id : String) : Target (.name id)
  | member {a : Node} (field : String) : Target a → Target (.member a field)
  | index {a i : Node} : Target a → w.Expression i → Target (.binary a .index i)

inductive Statement : Node → Prop where
  | declaration {e : Node} (id type : String) (readOnly : Bool) : w.Expression e →
      Statement (.assign (some id) e .absent ⟨true, false, false, readOnly, type⟩)
  | assign {id : String} {e : Node} : id ∉ keywords → w.Expression e →
      Statement (.assign (some id) e .absent {})
  | assignTarget {e t : Node} : StartsFree (w.bare t) → (∀ id, t ≠ .name id) → w.Target t →
      w.Expression e → Statement (.assign none e t {})
  | augAssign {id : String} {op : AssignOp} {e : Node} : op ∈ [.add, .sub, .mul, .div] →
      id ∉ keywords → w.Expression e → Statement (.augAssign (some id) op e .absent)
  | augAssignTarget {op : AssignOp} {e t : Node} : op ∈ [.add, .sub, .mul, .div] →
      StartsFree (w.bare t) → (∀ id, t ≠ .name id) → w.Target t → w.Expression e →
      Statement (.augAssign none op e t)
  | func {params : List (String × String × Node)} {body : List Node} (f returns : String) :
      (∀ p ∈ params, p.2.2 ≠ .absent → w.Expression p.2.2) → (∀ s ∈ body, Statement s) →
      Statement (.func f params returns body)
  | template {body : List Node} (name : String) : (∀ s ∈ body, Statement s) →
      Statement (.template name body)
  | cls {body : List Node} (name : String) (base : Option String) : (∀ s ∈ body, Statement s) →
      Statement (.cls name base body)
  | ifThen {c : Node} {a : List Node} : w.Expression c → (∀ s ∈ a, Statement s) →
      Statement (.ifStmt c (.block a) .absent)
  | ifElse {c : Node} {a b : List Node} : w.Expression c → (∀ s ∈ a, Statement s) →
      (∀ s ∈ b, Statement s) → Statement (.ifStmt c (.block a) (.block b))
  | elseIf {c c' a' b' : Node} {a : List Node} : w.Expression c → (∀ s ∈ a, Statement s) →
      Statement (.ifStmt c' a' b') → Statement (.ifStmt c (.block a) (.ifStmt c' a' b'))
  | forStmt {e : Node} {body : List Node} (v : String) : w.Expression e →
      (∀ s ∈ body, Statement s) → Statement (.forStmt v e (.block body))
  | whileStmt {c : Node} {body : List Node} : w.Expression c → (∀ s ∈ body, Statement s) →
      Statement (.whileStmt c (.block body))
  | returnStmt {e : Node} : w.Expression e → Statement (.returnStmt e)
  | tryCatch {a b : List Node} (v : String) : (∀ s ∈ a, Statement s) → (∀ s ∈ b, Statement s) →
      Statement (.tryCatch (.block a) v (.block b))
  | breakStmt : Statement .breakStmt
  | continueStmt : Statement .continueStmt
  | shell {command : String} : Text.strip command = command → Statement (.shell command)
  | intent {kind : String} (name : String) : kind ∈ ["global", "local"] →
      Statement (.intent kind name)
  | exprStmt {e : Node} : StartsFree (w.bare e) → w.Expression e → Statement (.exprStmt e)

theorem statements_eq_map (ss : List Node) : w.statements ss = ss.map w.statement := by
  induction ss with
  | nil => rfl
  | cons s ss ih => rw [statements, ih, List.map_cons]

end Spelling

/-! ### Printed expressions are phrases -/

/-- Phrases with commas between them are a list of phrases. -/
theorem separated_commas {α : Type} {D : Phrase α} {f : α → List Token} (a : α) (as : List α)
    (h : ∀ b ∈ a :: as, D (f b) b) : Separated D (commas ((a :: as).map f)) (a :: as) := by
  induction as generalizing a with
  | nil => simpa [commas] using Separated.one (h a List.mem_cons_self)
  | cons b as ih =>
    have hrest := ih b fun c hc => h c (List.mem_cons_of_mem a hc)
    simpa [commas] using Separated.more (h a List.mem_cons_self) rfl hrest

theorem listed_commas {α : Type} {D : Phrase α} {f : α → List Token} (as : List α)
    (h : ∀ a ∈ as, D (f a) a) : Listed D (commas (as.map f)) as := by
  cases as with
  | nil => exact .none
  | cons a as => exact .some (separated_commas a as h)

theorem enclosed_phrase {α : Type} {D : Phrase α} {ts : List Token} {a : α} (h : D ts a)
    (opening closing : TokenKind) :
    Enclosed opening closing D (enclosed opening ts closing) a :=
  .intro rfl h rfl

/-- In the place of any level, the tokens of an expression are a phrase of that level. -/
theorem level_grouped {a : Node} {ts : List Token} (h : level a.precedence ts a) (l : Nat) :
    level l (a.grouped l ts) a := by
  unfold Node.grouped
  split
  · have hexpr : Expr ts a := level_mono (Nat.zero_le _) h
    exact level_of_primary (.group (enclosed_phrase hexpr _ _)) l
  · exact level_mono (by omega) h

/-- An operator makes a phrase of its own level, from a left operand of that level and a tighter
right one. -/
theorem level_binary {op : BinaryOp} (hop : op ∈ BinaryOp.known) (hindex : op ≠ .index)
    {ts us : List Token} {a b : Node} (ha : level op.precedence ts a)
    (hb : level (op.precedence + 1) us b) :
    level op.precedence (ts ++ op.token :: us) (.binary a op b) := by
  cases op with
  | or | and => exact Chain.more ha ⟨rfl, rfl⟩ hb
  | lt | gt | le | ge | eq | ne => exact Chain.more ha ⟨by decide, by decide⟩ hb
  | add | mul => exact Chain.more ha ⟨rfl, .inl ⟨rfl, rfl⟩⟩ hb
  | sub | div => exact Chain.more ha ⟨rfl, .inr ⟨rfl, rfl⟩⟩ hb
  | index => exact absurd rfl hindex
  | other s => simp [BinaryOp.known] at hop

theorem level_unary {op : UnaryOp} (hop : op ∈ [.not, .neg, .pos]) {ts : List Token} {a : Node}
    (ha : level op.precedence ts a) : level op.precedence (op.token :: ts) (.unary op a) := by
  cases op with
  | not => exact Prefixed.more ⟨rfl, rfl⟩ ha
  | neg => exact Prefixed.more ⟨rfl, .inr ⟨rfl, rfl⟩⟩ ha
  | pos => exact Prefixed.more ⟨rfl, .inl ⟨rfl, rfl⟩⟩ ha
  | other s => simp at hop

namespace Spelling

variable {w : Spelling}

theorem argument_bare {a : Node}
    (h : level a.argument.precedence (w.bare a.argument) a.argument) :
    Argument Expr (w.bare a) a := by
  have hexpr : Expr (w.bare a.argument) a.argument := level_mono (Nat.zero_le _) h
  unfold Node.argument at hexpr
  split at hexpr
  · exact .named rfl rfl hexpr
  · exact .positional hexpr

/-- The bare tokens of an expression spell it at the level of its operator. -/
theorem level_bare {e : Node} (h : w.Expression e) : level e.precedence (w.bare e) e := by
  induction h with
  | name id => exact Primary.name rfl
  | number hv => exact Primary.number rfl hv
  | text hs => exact Primary.text (.inl rfl) hs
  | @list items _ ih =>
    rw [bare, bareItems_eq_map]
    have hitems := listed_commas items fun a ha => level_mono (Nat.zero_le _) (ih a ha)
    exact Primary.list (enclosed_phrase hitems _ _)
  | @dict pairs hkeys _ ih =>
    rw [bare, bareEntries_eq_map]
    have hentry (p : String × Node) (hp : p ∈ pairs) : DictEntry Expr
        (⟨.string, w.text p.1, 1⟩ :: TokenKind.colon.token :: w.bare p.2) p :=
      .intro (.text (.inl rfl) (hkeys p hp)) rfl (level_mono (Nat.zero_le _) (ih p hp))
    exact Primary.dict (enclosed_phrase (listed_commas pairs hentry) _ _)
  | @binary a b op hop _ _ iha ihb =>
    rw [bare]
    split
    · next hindex =>
      subst hindex
      have hb : Expr (w.bare b) b := level_mono (Nat.zero_le _) ihb
      exact Postfixed.index (level_grouped iha 8) (enclosed_phrase hb _ _)
    · next hindex =>
      exact level_binary hop hindex (level_grouped iha _) (level_grouped ihb _)
  | unary hop _ ih => exact level_unary hop (level_grouped ih _)
  | @ternary c a b _ _ _ ihc iha ihb =>
    have ha : Expr (w.bare a) a := level_mono (Nat.zero_le _) iha
    have hb : Expr (w.bare b) b := level_mono (Nat.zero_le _) ihb
    exact Expr.intro (.choice (level_grouped ihc 1) rfl ha rfl hb)
  | member field _ ih => exact Postfixed.member (level_grouped ih 8) rfl rfl
  | @call f args _ _ ihf ihargs =>
    rw [bare, bareItems_eq_map]
    have hargs := listed_commas args fun a ha => argument_bare (ihargs a ha)
    exact Postfixed.call (level_grouped ihf 8) (enclosed_phrase hargs _ _)

/-- What an expression prints as is spelled by the grammar as that expression. -/
theorem expr_bare {e : Node} (h : w.Expression e) : Expr (w.bare e) e :=
  level_mono (Nat.zero_le _) (level_bare h)

end Spelling

end ScriptLang
