import ScriptLang.Failure
import ScriptLang.Node.Basic
import ScriptLang.Notice
import ScriptLang.Text.Blank

/-!
# Parsing

Recursive descent over a list of tokens. A syntax error is reported as a notice. When notices are
silenced the parser goes on after one as if the expected token had been there, until it needs
something that it did not read.

Loops and nesting are bounded by a natural number; the number of tokens is always enough, because
every iteration and every level of nesting reads a token.
-/

namespace ScriptLang

inductive ParseStop where
  /-- A notice was shown. -/
  | reported (n : Notice)
  /-- A notice was raised as an error. -/
  | raised (n : Notice)
  | failed (f : Failure)
  /-- The bound on loops and nesting was too small. -/
  | exhausted
  deriving DecidableEq, Repr

abbrev Parse := StateT (List Token) (Except ParseStop)

namespace Parse

/-- Shows a notice, which ends parsing unless notices are silenced. -/
def report (quiet : Bool) (n : Notice) : Parse Unit :=
  if quiet then pure () else throw (.reported n)

def describeCurrent (ts : List Token) : String := (ts.head?.map Token.describe).getD "None"

def eat (quiet : Bool) (kind : TokenKind) : Parse (Option Token) := do
  match ← get with
  | t :: ts =>
    if t.kind = kind then
      set ts
      pure (some t)
    else
      report quiet (.expectedToken kind.label (describeCurrent (t :: ts)))
      pure none
  | [] =>
    report quiet (.expectedToken kind.label "None")
    pure none

def eatText (quiet : Bool) (kind : TokenKind) : Parse String := do
  match ← eat quiet kind with
  | some t => pure t.text
  | none => throw (.failed .noTokenText)

def current : Parse (Option Token) := do return (← get).head?

def atKind (kind : TokenKind) : Parse Bool := do
  return (← get).head?.any fun t => t.kind == kind

def isWord (word : String) (t : Token) : Bool := t.kind == .name && t.text == word

def atWord (word : String) : Parse Bool := do return (← get).head?.any (isWord word)

def advance : Parse Unit := modify List.tail

def skipSemicolons : Parse Unit := modify fun ts => ts.dropWhile fun t => t.kind == .semi

/-! ### Literals -/

def digitsValue (cs : List Char) : Nat :=
  cs.foldl (fun n c => n * 10 + (Text.digitValue? c).getD 0) 0

def numberLiteral (s : String) : Except Failure Literal :=
  let cs := s.toList
  if cs.contains '.' then
    let whole := cs.takeWhile (· != '.')
    let fraction := (cs.dropWhile (· != '.')).tail
    .ok (.float (Number.ofDecimal false (digitsValue (whole ++ fraction))
      (-(fraction.length : Int))))
  else if cs.length > Number.digitLimit then .error (.tooManyDigits cs.length)
  else .ok (.int (digitsValue cs))

/-- The body of a string token between its quotes, one or three on each side. -/
def stringBody (s : String) : String :=
  let cs := s.toList
  let width := if Text.startsWith s "\"\"\"" || Text.startsWith s "'''" then 3 else 1
  String.ofList ((cs.drop width).take (cs.length - 2 * width))

/-- The body of a string token that is a key, which loses one quote on each side. -/
def keyBody (s : String) : String :=
  let cs := s.toList
  String.ofList ((cs.drop 1).take (cs.length - 2))

def decode (s : String) : Parse String :=
  match Text.unescapeText s with
  | .ok t => pure t
  | .error e => throw (.failed (.badEscape e))

/-! ### Expressions -/

/-- Operands joined by operators of one level, grouped to the left. -/
def chainFrom (operator? : Token → Option BinaryOp) (operand : Parse Node) :
    Nat → Node → Parse Node
  | 0, _ => throw .exhausted
  | n + 1, left => do
    match (← get).head?.bind operator? with
    | some op =>
      advance
      let right ← operand
      chainFrom operator? operand n (.binary left op right)
    | none => pure left

def chain (n : Nat) (operator? : Token → Option BinaryOp) (operand : Parse Node) : Parse Node := do
  let left ← operand
  chainFrom operator? operand n left

def orOperator? (t : Token) : Option BinaryOp := if t.kind = .or then some .or else none

def andOperator? (t : Token) : Option BinaryOp := if t.kind = .and then some .and else none

def comparison? (t : Token) : Option BinaryOp :=
  match t.kind with
  | .lt | .gt | .le | .ge | .eq | .ne => some (.ofSymbol t.text)
  | _ => none

def sumOperator? (t : Token) : Option BinaryOp :=
  if t.kind = .op ∧ t.text = "+" then some .add
  else if t.kind = .op ∧ t.text = "-" then some .sub
  else none

def productOperator? (t : Token) : Option BinaryOp :=
  if t.kind = .op ∧ t.text = "*" then some .mul
  else if t.kind = .op ∧ t.text = "/" then some .div
  else none

def signOperator? (t : Token) : Option UnaryOp :=
  if t.kind = .op ∧ t.text = "+" then some .pos
  else if t.kind = .op ∧ t.text = "-" then some .neg
  else none

def notOperator? (t : Token) : Option UnaryOp := if t.kind = .not then some .not else none

def leadingOperators (operator? : Token → Option UnaryOp) :
    List Token → List UnaryOp × List Token
  | [] => ([], [])
  | t :: ts =>
    match operator? t with
    | some op =>
      let (ops, rest) := leadingOperators operator? ts
      (op :: ops, rest)
    | none => ([], t :: ts)

def unaryLevel (operator? : Token → Option UnaryOp) (operand : Parse Node) : Parse Node := do
  let (ops, rest) := leadingOperators operator? (← get)
  set rest
  let node ← operand
  pure (ops.foldr Node.unary node)

def commaSeparated {α : Type} (item : Parse α) : Nat → Parse (List α)
  | 0 => throw .exhausted
  | n + 1 => do
    let x ← item
    if ← atKind .comma then
      advance
      let rest ← commaSeparated item n
      pure (x :: rest)
    else pure [x]

/-- Items up to a closing token, or none if the token follows at once. -/
def itemsUntil {α : Type} (n : Nat) (closing : TokenKind) (item : Parse α) :
    Parse (List α) := do
  match ← current with
  | some t => if t.kind = closing then pure [] else commaSeparated item n
  | none => pure []

def listLiteral (quiet : Bool) (n : Nat) (expr : Parse Node) : Parse Node := do
  let _ ← eat quiet .lbracket
  let items ← itemsUntil n .rbracket expr
  let _ ← eat quiet .rbracket
  pure (.list items)

/-- The key of a dictionary entry. A token that cannot be a key is reported and left unread; the
entry then keeps the key of the one before it. -/
def dictKey (quiet : Bool) (previous : Option String) : Parse (Option String) := do
  match ← current with
  | none =>
    report quiet .endOfInput
    throw (.raised .endOfInput)
  | some t =>
    match t.kind with
    | .string | .longString =>
      advance
      some <$> decode (keyBody t.text)
    | .name =>
      advance
      pure (some t.text)
    | _ =>
      report quiet (.badDictKey t.describe)
      pure previous

def dictEntries (quiet : Bool) (expr : Parse Node) :
    Nat → Option String → Parse (List (String × Node))
  | 0, _ => throw .exhausted
  | n + 1, previous => do
    let key ← dictKey quiet previous
    let _ ← eat quiet .colon
    let value ← expr
    match key with
    | none => throw (.failed (.unassigned "key"))
    | some k =>
      if ← atKind .comma then
        advance
        let rest ← dictEntries quiet expr n key
        pure ((k, value) :: rest)
      else pure [(k, value)]

def dictLiteral (quiet : Bool) (n : Nat) (expr : Parse Node) : Parse Node := do
  let _ ← eat quiet .lbrace
  let pairs ← match ← current with
    | some t => if t.kind = .rbrace then pure [] else dictEntries quiet expr n none
    | none => pure []
  let _ ← eat quiet .rbrace
  pure (.dict pairs)

def argument (quiet : Bool) (expr : Parse Node) : Parse Node := do
  match ← get with
  | t :: e :: _ =>
    if t.kind = .name ∧ e.kind = .equal then
      let name ← eatText quiet .name
      let _ ← eat quiet .equal
      let value ← expr
      pure (.keyword name value)
    else expr
  | _ => expr

def postfixes (quiet : Bool) (expr : Parse Node) : Nat → Node → Parse Node
  | 0, _ => throw .exhausted
  | n + 1, node => do
    match (← current).map Token.kind with
    | some .dot =>
      advance
      let name ← eatText quiet .name
      postfixes quiet expr n (.member node name)
    | some .lparen =>
      advance
      let args ← itemsUntil n .rparen (argument quiet expr)
      let _ ← eat quiet .rparen
      postfixes quiet expr n (.call node args)
    | some .lbracket =>
      advance
      let index ← expr
      let _ ← eat quiet .rbracket
      postfixes quiet expr n (.binary node .index index)
    | _ => pure node

/-- A token that starts no expression. If that is silenced, a member after it is still read
before the missing expression is missed. -/
def noPrimary (quiet : Bool) (t : Token) : Parse Node := do
  report quiet (.unexpectedToken t.describe)
  if t.kind = .dot then
    advance
    let _ ← eatText quiet .name
  throw (.failed (.unassigned "node"))

def primary (quiet : Bool) (n : Nat) (expr : Parse Node) : Parse Node := do
  match ← current with
  | none =>
    report quiet .endOfInput
    throw (.raised .endOfInput)
  | some t =>
    match t.kind with
    | .number =>
      advance
      match numberLiteral t.text with
      | .ok v => pure (.number v)
      | .error f => throw (.failed f)
    | .string | .longString =>
      advance
      .text <$> decode (stringBody t.text)
    | .lbracket => listLiteral quiet n expr
    | .lbrace => dictLiteral quiet n expr
    | .name =>
      advance
      pure (.name t.text)
    | .lparen =>
      advance
      let node ← expr
      let _ ← eat quiet .rparen
      pure node
    | _ => noPrimary quiet t

def atom (quiet : Bool) (n : Nat) (expr : Parse Node) : Parse Node := do
  let node ← primary quiet n expr
  postfixes quiet expr n node

def factor (quiet : Bool) (n : Nat) (expr : Parse Node) : Parse Node :=
  chain n productOperator? (unaryLevel signOperator? (atom quiet n expr))

def term (quiet : Bool) (n : Nat) (expr : Parse Node) : Parse Node :=
  chain n sumOperator? (factor quiet n expr)

def comparison (quiet : Bool) (n : Nat) (expr : Parse Node) : Parse Node :=
  chain n comparison? (term quiet n expr)

def conjunction (quiet : Bool) (n : Nat) (expr : Parse Node) : Parse Node :=
  chain n andOperator? (unaryLevel notOperator? (comparison quiet n expr))

def disjunction (quiet : Bool) (n : Nat) (expr : Parse Node) : Parse Node :=
  chain n orOperator? (conjunction quiet n expr)

def exprWith (quiet : Bool) (n : Nat) (expr : Parse Node) : Parse Node := do
  let condition ← disjunction quiet n expr
  if ← atKind .question then
    advance
    let ifTrue ← expr
    let _ ← eat quiet .colon
    let ifFalse ← expr
    pure (.ternary condition ifTrue ifFalse)
  else pure condition

def expr (quiet : Bool) : Nat → Parse Node
  | 0 => throw .exhausted
  | n + 1 => exprWith quiet n (expr quiet n)

/-! ### Statements -/

/-- Attributes and subscripts after a name, as far as they can be assigned to. -/
def lvalueFrom (quiet : Bool) (expr : Parse Node) : Nat → Node → Parse (Option Node)
  | 0, _ => throw .exhausted
  | n + 1, node => do
    match (← current).map Token.kind with
    | some .dot =>
      advance
      match ← current with
      | some t =>
        if t.kind = .name then
          advance
          lvalueFrom quiet expr n (.member node t.text)
        else pure none
      | none => pure none
    | some .lbracket =>
      advance
      let index ← expr
      let _ ← eat quiet .rbracket
      lvalueFrom quiet expr n (.binary node .index index)
    | some .lparen => pure none
    | _ => pure (some node)

def lvalue (quiet : Bool) (n : Nat) (expr : Parse Node) : Parse (Option Node) := do
  match ← current with
  | some t =>
    if t.kind = .name then
      advance
      lvalueFrom quiet expr n (.name t.text)
    else pure none
  | none => pure none

def assignOperator? : TokenKind → Option (Option AssignOp)
  | .equal => some none
  | .plusEq => some (some .add)
  | .minusEq => some (some .sub)
  | .multEq => some (some .mul)
  | .divEq => some (some .div)
  | _ => none

def assignment (target : Node) (op : Option AssignOp) (rhs : Node) : Node :=
  match target, op with
  | .name id, none => .assign (some id) rhs .absent {}
  | .name id, some op => .augAssign (some id) op rhs .absent
  | target, none => .assign none rhs target {}
  | target, some op => .augAssign none op rhs target

/-- An assignment, if the statement is one; otherwise nothing is read. -/
def assignment? (quiet : Bool) (n : Nat) (expr : Parse Node) : Parse (Option Node) := do
  let start ← get
  let target ← lvalue quiet n expr
  match target, (← current).bind fun t => assignOperator? t.kind with
  | some target, some op =>
    advance
    let rhs ← expr
    pure (some (assignment target op rhs))
  | _, _ =>
    set start
    pure none

/-- A type after a colon; without one it is `auto`. -/
def typeAfter (quiet : Bool) (marker : TokenKind) : Parse String := do
  if ← atKind marker then
    advance
    eatText quiet .name
  else pure "auto"

def declaration (quiet : Bool) (expr : Parse Node) (forceGlobal forceLocal : Bool) :
    Parse Node := do
  let readOnly ← atWord "let"
  advance
  let name ← eatText quiet .name
  let type ← typeAfter quiet .colon
  let _ ← eat quiet .equal
  let value ← expr
  pure (.assign (some name) value .absent ⟨true, forceGlobal, forceLocal, readOnly, type⟩)

def scopeStatement (quiet : Bool) (expr : Parse Node) (kind : String) : Parse Node := do
  advance
  let name ← eatText quiet .name
  if (← atWord "var") || (← atWord "let") then
    declaration quiet expr (kind == "global") (kind == "local")
  else pure (.intent kind name)

def parameter (quiet : Bool) (expr : Parse Node) : Parse (String × String × Node) := do
  let name ← eatText quiet .name
  let type ← typeAfter quiet .colon
  if ← atKind .equal then
    advance
    let default ← expr
    pure (name, type, default)
  else pure (name, type, .absent)

def statementsUntil (statement : Parse (Option Node)) : Nat → Parse (List Node)
  | 0 => throw .exhausted
  | n + 1 => do
    skipSemicolons
    match ← current with
    | none => pure []
    | some t =>
      if t.kind = .rbrace then pure []
      else
        let node ← statement
        skipSemicolons
        let rest ← statementsUntil statement n
        pure (node.toList ++ rest)

def braces (quiet : Bool) (n : Nat) (statement : Parse (Option Node)) : Parse (List Node) := do
  let _ ← eat quiet .lbrace
  let body ← statementsUntil statement n
  let _ ← eat quiet .rbrace
  pure body

def function (quiet : Bool) (n : Nat) (expr : Parse Node) (statement : Parse (Option Node)) :
    Parse Node := do
  advance
  let name ← eatText quiet .name
  let _ ← eat quiet .lparen
  let params ← itemsUntil n .rparen (parameter quiet expr)
  let _ ← eat quiet .rparen
  let returns ← typeAfter quiet .arrow
  let body ← braces quiet n statement
  pure (.func name params returns body)

def template (quiet : Bool) (n : Nat) (statement : Parse (Option Node)) : Parse Node := do
  advance
  let name ← eatText quiet .name
  let body ← braces quiet n statement
  pure (.template name body)

def classDecl (quiet : Bool) (n : Nat) (statement : Parse (Option Node)) : Parse Node := do
  advance
  let name ← eatText quiet .name
  let base ← if ← atKind .colon then
      advance
      some <$> eatText quiet .name
    else pure none
  let body ← braces quiet n statement
  pure (.cls name base body)

/-- A condition; parentheses right at its start are taken to surround all of it. -/
def condition (quiet : Bool) (expr : Parse Node) : Parse Node := do
  if ← atKind .lparen then
    advance
    let node ← expr
    let _ ← eat quiet .rparen
    pure node
  else expr

/-- A conditional after the word that opens it has been seen: `if`, or for a further branch the
name that follows `elif`. -/
def conditional (quiet : Bool) (n : Nat) (expr : Parse Node) (statement : Parse (Option Node)) :
    Nat → Parse Node
  | 0 => throw .exhausted
  | k + 1 => do
    let _ ← eat quiet .name
    let test ← condition quiet expr
    let thenBlock ← braces quiet n statement
    skipSemicolons
    if ← atWord "else" then
      advance
      if ← atWord "if" then
        let rest ← conditional quiet n expr statement k
        pure (.ifStmt test (.block thenBlock) rest)
      else
        let elseBlock ← braces quiet n statement
        pure (.ifStmt test (.block thenBlock) (.block elseBlock))
    else if ← atWord "elif" then
      advance
      let rest ← conditional quiet n expr statement k
      pure (.ifStmt test (.block thenBlock) rest)
    else pure (.ifStmt test (.block thenBlock) .absent)

def forLoop (quiet : Bool) (n : Nat) (expr : Parse Node) (statement : Parse (Option Node)) :
    Parse Node := do
  advance
  let binder ← eatText quiet .name
  if !(← atWord "in") then report quiet .expectedIn
  let _ ← eat quiet .name
  let iterable ← expr
  let body ← braces quiet n statement
  pure (.forStmt binder iterable (.block body))

def whileLoop (quiet : Bool) (n : Nat) (expr : Parse Node) (statement : Parse (Option Node)) :
    Parse Node := do
  advance
  let test ← condition quiet expr
  let body ← braces quiet n statement
  pure (.whileStmt test (.block body))

/-- A `do` block with its `catch`; without one there is no statement. -/
def guarded (quiet : Bool) (n : Nat) (statement : Parse (Option Node)) : Parse (Option Node) := do
  advance
  let tryBlock ← braces quiet n statement
  if ← atWord "catch" then
    advance
    let binder ← eatText quiet .name
    let catchBlock ← braces quiet n statement
    pure (some (.tryCatch (.block tryBlock) binder (.block catchBlock)))
  else
    report quiet .expectedCatch
    pure none

/-- The command of a shell line, without its mark and outer blanks. -/
def shellCommand (s : String) : String := Text.strip (String.ofList s.toList.tail)

def wordStatement (quiet : Bool) (n : Nat) (expr : Parse Node) (statement : Parse (Option Node))
    (word : String) : Parse (Option Node) := do
  match word with
  | "global" | "local" => some <$> scopeStatement quiet expr word
  | "template" => some <$> template quiet n statement
  | "class" => some <$> classDecl quiet n statement
  | "do" => guarded quiet n statement
  | "var" | "let" => some <$> declaration quiet expr false false
  | "func" => some <$> function quiet n expr statement
  | "if" => some <$> conditional quiet n expr statement (n + 1)
  | "for" => some <$> forLoop quiet n expr statement
  | "while" => some <$> whileLoop quiet n expr statement
  | "return" =>
    advance
    (some ∘ Node.returnStmt) <$> expr
  | "break" =>
    advance
    pure (some .breakStmt)
  | "continue" =>
    advance
    pure (some .continueStmt)
  | _ => (some ∘ Node.exprStmt) <$> expr

def statementWith (quiet : Bool) (n : Nat) (expr : Parse Node)
    (statement : Parse (Option Node)) : Parse (Option Node) := do
  match ← assignment? quiet n expr with
  | some node => pure (some node)
  | none =>
    match ← current with
    | some t =>
      match t.kind with
      | .name => wordStatement quiet n expr statement t.text
      | .shell =>
        advance
        pure (some (.shell (shellCommand t.text)))
      | _ => (some ∘ Node.exprStmt) <$> expr
    | none => (some ∘ Node.exprStmt) <$> expr

def statement (quiet : Bool) : Nat → Parse (Option Node)
  | 0 => throw .exhausted
  | n + 1 => statementWith quiet n (expr quiet n) (statement quiet n)

def programFrom (statement : Parse (Option Node)) : Nat → Parse (List Node)
  | 0 => throw .exhausted
  | n + 1 => do
    skipSemicolons
    match ← current with
    | none => pure []
    | some _ =>
      let node ← statement
      skipSemicolons
      let rest ← programFrom statement n
      pure (node.toList ++ rest)

/-- A bound that is enough for a list of tokens. -/
def bound (ts : List Token) : Nat := ts.length + 3

end Parse

def parseTokens (quiet : Bool) (ts : List Token) : Except ParseStop (List Node) :=
  (Prod.fst <$> (Parse.programFrom (Parse.statement quiet (Parse.bound ts)) (Parse.bound ts)).run
    ts)

def parseProgram (quiet : Bool) (code : String) : Except ParseStop (List Node) :=
  parseTokens quiet (tokenize code)

/-- The expression that a text embedded in a string spells; tokens left over are an error. -/
def parseEmbedded (quiet : Bool) (code : String) : Except ParseStop Node :=
  let ts := tokenize code
  match (Parse.expr quiet (Parse.bound ts)).run ts with
  | .error e => .error e
  | .ok (node, []) => .ok node
  | .ok (_, _ :: _) => .error (.raised (.badEmbedded code))

end ScriptLang
