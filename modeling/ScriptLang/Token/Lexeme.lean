import ScriptLang.Text.Digit
import ScriptLang.Token.Basic

/-!
# Lexemes

A program text is cut into lexemes from the left. `scan` decides the kind and the extent of the
lexeme that starts with a given character; every character belongs to exactly one lexeme, since one
that starts nothing else is a lexeme of kind `mismatch`.
-/

namespace ScriptLang

structure Lexeme where
  kind : TokenKind
  text : List Char
  deriving DecidableEq, Repr

namespace Lexeme

def blockComment : List Char → Option Nat
  | [] => none
  | '*' :: '/' :: _ => some 2
  | _ :: cs => (blockComment cs).map (· + 1)

/-- The extent of a long string after its three opening quotes, the closing ones included. An
unescaped quote ends the body, and must then be one of three. -/
def longString (q : Char) : List Char → Option Nat
  | [] => none
  | ['\\'] => none
  | '\\' :: _ :: cs => (longString q cs).map (· + 2)
  | c :: cs =>
    if c == q then if cs.take 2 == [q, q] then some 3 else none
    else (longString q cs).map (· + 1)

/-- The extent of a string after its opening quote, the closing one included. A quote right after a
backslash closes the string only if no other quote does. -/
def shortString (q : Char) : List Char → Option Nat
  | [] => none
  | '\\' :: c :: cs =>
    if c == q then
      match shortString q cs with
      | some n => some (n + 2)
      | none => some 2
    else (shortString q (c :: cs)).map (· + 1)
  | c :: cs => if c == q then some 1 else (shortString q cs).map (· + 1)

def stringLexeme (q : Char) (cs : List Char) : TokenKind × Nat :=
  let long := if cs.take 2 == [q, q] then (longString q (cs.drop 2)).map (· + 2) else none
  match long with
  | some n => (.longString, n)
  | none =>
    match shortString q cs with
    | some n => (.string, n)
    | none => (.mismatch, 0)

def run (p : Char → Bool) (cs : List Char) : Nat := (cs.takeWhile p).length

/-- The extent of a number after its first digit: digits, and a point with digits after it. -/
def numberTail (cs : List Char) : Nat :=
  let whole := run Text.isDecimal cs
  match cs.drop whole with
  | '.' :: rest =>
    let fraction := run Text.isDecimal rest
    if fraction == 0 then whole else whole + 1 + fraction
  | _ => whole

def isNameStart (c : Char) : Bool := c.isAlpha || c == '@' || c == '_' || c == '%'

def isNameRest (c : Char) : Bool := isNameStart c || c.isDigit

def oneOrTwo (c : Char) (two one : TokenKind) (cs : List Char) : TokenKind × Nat :=
  if cs.head? == some c then (two, 1) else (one, 0)

def slashLexeme : List Char → TokenKind × Nat
  | '/' :: cs => (.comment, run (· != '\n') cs + 1)
  | '*' :: cs =>
    match blockComment cs with
    | some n => (.comment, n + 1)
    | none => (.op, 0)
  | '=' :: _ => (.divEq, 1)
  | _ => (.op, 0)

/-- The kind of the lexeme that starts with `c`, and its extent in the characters `cs` after it. -/
def scan (c : Char) (cs : List Char) : TokenKind × Nat :=
  match c with
  | '\n' => (.newline, 0)
  | ' ' | '\t' => (.skip, run (fun c => c == ' ' || c == '\t') cs)
  | '/' => slashLexeme cs
  | '#' => (.comment, run (· != '\n') cs)
  | '$' =>
    let n := run (· != '\n') cs
    if n == 0 then (.mismatch, 0) else (.shell, n)
  | '-' => if cs.head? == some '>' then (.arrow, 1) else oneOrTwo '=' .minusEq .op cs
  | '.' => (.dot, 0)
  | '+' => oneOrTwo '=' .plusEq .op cs
  | '*' => oneOrTwo '=' .multEq .op cs
  | '"' => stringLexeme '"' cs
  | '\'' => stringLexeme '\'' cs
  | '<' => oneOrTwo '=' .le .lt cs
  | '>' => oneOrTwo '=' .ge .gt cs
  | '=' => oneOrTwo '=' .eq .equal cs
  | '!' => oneOrTwo '=' .ne .not cs
  | '&' => oneOrTwo '&' .and .mismatch cs
  | '|' => oneOrTwo '|' .or .mismatch cs
  | ':' => (.colon, 0)
  | ',' => (.comma, 0)
  | '?' => (.question, 0)
  | '(' => (.lparen, 0)
  | ')' => (.rparen, 0)
  | '{' => (.lbrace, 0)
  | '}' => (.rbrace, 0)
  | '[' => (.lbracket, 0)
  | ']' => (.rbracket, 0)
  | ';' => (.semi, 0)
  | _ =>
    if Text.isDecimal c then (.number, numberTail cs)
    else if isNameStart c then (.name, run isNameRest cs)
    else (.mismatch, 0)

/-- The lexemes of a text of which `skip` characters belong to a lexeme already cut off. -/
def splitFrom : (skip : Nat) → List Char → List Lexeme
  | _, [] => []
  | skip + 1, _ :: cs => splitFrom skip cs
  | 0, c :: cs =>
    let (kind, extent) := scan c cs
    ⟨kind, c :: cs.take extent⟩ :: splitFrom extent cs

def split (s : String) : List Lexeme := splitFrom 0 s.toList

def newlines (l : Lexeme) : Nat := l.text.count '\n'

def toTokens (line : Nat) : List Lexeme → List Token
  | [] => []
  | l :: ls =>
    let rest := toTokens (line + l.newlines) ls
    if l.kind.isGap then rest else ⟨l.kind, String.ofList l.text, line⟩ :: rest

end Lexeme

def tokenize (s : String) : List Token := Lexeme.toTokens 1 (Lexeme.split s)

namespace Token

def depthChange (opening closing : TokenKind) (t : Token) : Int :=
  if t.kind = opening then 1 else if t.kind = closing then -1 else 0

def depth (opening closing : TokenKind) (ts : List Token) : Int :=
  ts.foldr (fun t n => depthChange opening closing t + n) 0

end Token

/-- Whether a program text has as many closing brackets as opening ones of each kind; the prompt
waits for more lines until it has. -/
def isComplete (s : String) : Bool :=
  let ts := tokenize s
  Token.depth .lbrace .rbrace ts == 0 && Token.depth .lparen .rparen ts == 0 &&
    Token.depth .lbracket .rbracket ts == 0

end ScriptLang
