/-!
# Tokens

The kinds of lexemes of a program and the tokens that the parser reads: a kind, the text as
written, and the line where it starts.
-/

namespace ScriptLang

inductive TokenKind where
  | newline | skip | comment | shell | arrow | dot
  | plusEq | minusEq | multEq | divEq
  | number | longString | string
  | le | ge | eq | ne | and | or | not | lt | gt
  | op | colon | equal | comma | question
  | lparen | rparen | lbrace | rbrace | lbracket | rbracket | semi
  | name | mismatch
  deriving DecidableEq, Repr, Inhabited

def TokenKind.label : TokenKind → String
  | .newline => "NEWLINE"
  | .skip => "SKIP"
  | .comment => "COMMENT"
  | .shell => "SHELL"
  | .arrow => "ARROW"
  | .dot => "DOT"
  | .plusEq => "PLUSEQ"
  | .minusEq => "MINUSEQ"
  | .multEq => "MULTEQ"
  | .divEq => "DIVEQ"
  | .number => "NUMBER"
  | .longString => "MLSTRING"
  | .string => "STRING"
  | .le => "LE"
  | .ge => "GE"
  | .eq => "EQ"
  | .ne => "NE"
  | .and => "AND"
  | .or => "OR"
  | .not => "NOT"
  | .lt => "LT"
  | .gt => "GT"
  | .op => "OP"
  | .colon => "COLON"
  | .equal => "EQUAL"
  | .comma => "COMMA"
  | .question => "QUESTION"
  | .lparen => "LPAREN"
  | .rparen => "RPAREN"
  | .lbrace => "LBRACE"
  | .rbrace => "RBRACE"
  | .lbracket => "LBRACKET"
  | .rbracket => "RBRACKET"
  | .semi => "SEMI"
  | .name => "ID"
  | .mismatch => "MISMATCH"

/-- Lexemes that separate tokens and are dropped. -/
def TokenKind.isGap : TokenKind → Bool
  | .newline | .skip | .comment => true
  | _ => false

structure Token where
  kind : TokenKind
  text : String
  line : Nat
  deriving DecidableEq, Repr, Inhabited

def Token.describe (t : Token) : String :=
  "Token(" ++ t.kind.label ++ ", " ++ t.text ++ ", line=" ++ toString t.line ++ ")"

end ScriptLang
