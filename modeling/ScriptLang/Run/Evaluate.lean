import ScriptLang.Node.Describe
import ScriptLang.Run.Call

/-!
# Evaluating expressions

One step of evaluation for each kind of expression, against an engine for the parts.
-/

namespace ScriptLang

inductive TextPiece where
  | plain (c : Char)
  | embedded (source : String)
  deriving DecidableEq, Repr

/-- The characters of an embedded expression, which ends at the first closing parenthesis of the
same line. -/
def embeddedSource? (cs : List Char) : Option (List Char) :=
  let body := cs.takeWhile fun c => c != ')' && c != '\n'
  match cs.drop body.length with
  | ')' :: _ => some body
  | _ => none

/-- The pieces of a text, after `skip` characters that belong to an embedded expression. -/
def textPieces : (skip : Nat) → List Char → List TextPiece
  | _, [] => []
  | skip + 1, _ :: cs => textPieces skip cs
  | 0, '\\' :: '(' :: cs =>
    match embeddedSource? cs with
    | some body =>
      .embedded (Text.strip (String.ofList body)) :: textPieces (body.length + 2) ('(' :: cs)
    | none => .plain '\\' :: textPieces 0 ('(' :: cs)
  | 0, c :: cs => .plain c :: textPieces 0 cs

def Literal.value : Literal → Value
  | .int i => .int i
  | .float x => .float x

namespace Exec

/-- The text of a signal that an embedded expression ended with, unless it ends the program. -/
def signalText? (s : Signal) : HostExec (Option String) := do
  match s with
  | .raised v => some <$> text v
  | .returned v => some <$> text v
  | .broke | .continued => pure (some "")
  | .exit _ | .interrupted | .exhausted => pure none

/-- The expression that is embedded in a text; one that was read before is not read again. -/
def embeddedNode (source : String) : HostExec Node := do
  let m ← get
  match m.embedded.nodes.get? source with
  | some node => pure node
  | none =>
    match h : parseEmbedded m.isQuiet source with
    | .ok node =>
      set { m with embedded := m.embedded.insert h }
      pure node
    | .error stop => stopReading stop

def embeddedText (g : Engine) (e : ScopeId) (source : String) : Exec String :=
  tryCatch (do
    let node ← embeddedNode source
    let v ← g.evaluate node e
    text v) fun s => do
      match ← signalText? s with
      | some reason =>
        report (.failedEmbedded reason)
        pure ""
      | none => throw s

def interpolate (g : Engine) (e : ScopeId) : List TextPiece → Exec (List Char)
  | [] => pure []
  | .plain c :: rest => do return c :: (← interpolate g e rest)
  | .embedded source :: rest => do
    let s ← embeddedText g e source
    return s.toList ++ (← interpolate g e rest)

def evaluateText (g : Engine) (e : ScopeId) (s : String) : Exec Value := do
  return .text (String.ofList (← interpolate g e (textPieces 0 s.toList)))

def evaluateAll (g : Engine) (e : ScopeId) : List Node → Exec (List Value)
  | [] => pure []
  | node :: rest => do
    let v ← g.evaluate node e
    return v :: (← evaluateAll g e rest)

/-- The entries of a dictionary; a key written twice keeps its first place and its last value. -/
def evaluatePairs (g : Engine) (e : ScopeId) : Table Value → List (String × Node) →
    Exec (Table Value)
  | t, [] => pure t
  | t, (key, node) :: rest => do
    let v ← g.evaluate node e
    evaluatePairs g e (t.set key v) rest

def evaluateArgs (g : Engine) (e : ScopeId) : List Value → Table Value → List Node →
    Exec (List Value × Table Value)
  | pos, named, [] => pure (pos.reverse, named)
  | pos, named, .keyword name node :: rest => do
    let v ← g.evaluate node e
    evaluateArgs g e pos (named.set name v) rest
  | pos, named, node :: rest => do
    let v ← g.evaluate node e
    evaluateArgs g e (v :: pos) named rest

def indexed (v key : Value) : HostExec Value := do
  match ← item? v key with
  | some x => pure x
  | none =>
    let k ← text key
    let c ← text v
    report (.noEntry k c)
    pure .none

def member (v : Value) (name : String) : HostExec Value := do
  match ← attribute? v name with
  | some x => pure x
  | none =>
    report (.noAttribute name)
    pure .none

/-- The sum of two values, which is a text if one of them is. -/
def addOrJoin (v w : Value) : HostExec Value := do
  match v, w with
  | .text _, _ | _, .text _ =>
    let a ← text v
    let b ← text w
    pure (.text (a ++ b))
  | _, _ => add v w

def strictBinary (op : BinaryOp) (v w : Value) : HostExec Value := do
  match op with
  | .add => addOrJoin v w
  | .sub => sub v w
  | .mul => mul v w
  | .div => div v w
  | .lt | .gt | .le | .ge => compareBy op.symbol v w
  | .eq => return .bool (← equal v w)
  | .ne => return .bool !(← equal v w)
  | .index => indexed v w
  | .and | .or | .other _ =>
    report (.unknownOperator op.symbol)
    pure .none

/-- An operator between two expressions. The logical ones leave out the second operand if the first
decides; a subscript evaluates both operands a second time and uses those values. -/
def evaluateBinary (g : Engine) (e : ScopeId) (left : Node) (op : BinaryOp) (right : Node) :
    Exec Value := do
  let v ← g.evaluate left e
  match op with
  | .and => if ← truth v then g.evaluate right e else pure v
  | .or => if ← truth v then pure v else g.evaluate right e
  | .index =>
    let _ ← g.evaluate right e
    let collection ← g.evaluate left e
    let key ← g.evaluate right e
    indexed collection key
  | op =>
    let w ← g.evaluate right e
    strictBinary op v w

def strictUnary (op : UnaryOp) (v : Value) : HostExec Value := do
  match op with
  | .not => return .bool !(← truth v)
  | .neg => negate v
  | .pos => identity v
  | .other s =>
    report (.unknownUnary s)
    pure .none

/-- What is called: the value of a compound expression, else what the name stands for. -/
def callee (g : Engine) (e : ScopeId) : Node → Exec Value
  | .name id => lookup e id
  | .member object name => g.evaluate (.member object name) e
  | .binary left op right => g.evaluate (.binary left op right) e
  | .unary op operand => g.evaluate (.unary op operand) e
  | .ternary condition ifTrue ifFalse => g.evaluate (.ternary condition ifTrue ifFalse) e
  | node => do
    report (.unbound node.describe)
    pure .none

def evaluateCall (g : Engine) (e : ScopeId) (target : Node) (args : List Node) :
    Exec Value := do
  let f ← callee g e target
  let (pos, named) ← evaluateArgs g e [] [] args
  callingOr g f pos named do
    if ← isCallable f then g.apply f pos named
    else
      report .notCallable
      pure .none

/-- A member chain is first looked up as one dotted name. -/
def evaluateMember (g : Engine) (e : ScopeId) (object : Node) (name : String) : Exec Value := do
  let scopes := (← get).scopes
  match (Node.member object name).path?.bind fun p => scopes.get? e p with
  | some v => pure v
  | none =>
    let v ← g.evaluate object e
    member v name

def evaluateStep (g : Engine) (node : Node) (e : ScopeId) : Exec Value := do
  inScope e
  match node with
  | .member object name => evaluateMember g e object name
  | .number value => pure value.value
  | .text s => evaluateText g e s
  | .list items => do newList (← evaluateAll g e items)
  | .binary left op right => evaluateBinary g e left op right
  | .unary op operand => do strictUnary op (← g.evaluate operand e)
  | .call target args => evaluateCall g e target args
  | .name id => lookup e id
  | .dict pairs => do Value.ref <$> dictOfTable (← evaluatePairs g e [] pairs)
  | .ternary condition ifTrue ifFalse => do
    if ← truth (← g.evaluate condition e) then g.evaluate ifTrue e else g.evaluate ifFalse e
  | node =>
    report (.notEvaluable node.describe)
    pure .none

end Exec

end ScriptLang
