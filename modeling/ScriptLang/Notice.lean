import ScriptLang.Language
import ScriptLang.Text.Markup
import ScriptLang.Text.Quoted
import ScriptLang.Token.Lexeme

/-!
# Notices

The failures that the language itself reports, each with a number, a name, and a text in English
and Japanese. A text has placeholders in braces, which the particulars of a failure fill in.
-/

namespace ScriptLang

structure NoticeForm where
  number : String
  name : String
  english : String
  japanese : String
  deriving DecidableEq, Repr

namespace NoticeForm

def texts (f : NoticeForm) : List (String × String) := [("en", f.english), ("ja", f.japanese)]

def unknown : NoticeForm :=
  ⟨"0000", "UnknownError",
    "Unknown Error",
    "不明なエラー"⟩

def unexpectedCharacter : NoticeForm :=
  ⟨"0001", "SyntaxError",
    "Unexpected character \x7bvalue!r\x7d at line \x7bline_num\x7d.",
    "予想外の文字「\x7bvalue!r\x7d」が\x7bline_num\x7d行目に存在します。"⟩

def endOfInput : NoticeForm :=
  ⟨"0002", "SyntaxError",
    "Unexpected end of input.",
    "入力の終端に達しました。"⟩

def expectedToken : NoticeForm :=
  ⟨"0003", "SyntaxError",
    "Expected token \x7btoken_type\x7d but got \x7btoken\x7d.",
    "\x7btoken_type\x7dトークンが必要ですが、予想外のトークン\x7btoken\x7dトークンを受け取りました。"⟩

def expectedIn : NoticeForm :=
  ⟨"0004", "SyntaxError",
    "Expected 'in' in for loop.",
    "for文には「in」が必要です"⟩

def expectedCatch : NoticeForm :=
  ⟨"0005", "SyntaxError",
    "Expected 'catch' after 'do' block.",
    "'do' ブロックの後に 'catch' が必要です。"⟩

def unexpectedToken : NoticeForm :=
  ⟨"0006", "SyntaxError",
    "Unexpected token \x7btoken\x7d.",
    "予想外のトークン: \x7btoken\x7d"⟩

def badDictKey : NoticeForm :=
  ⟨"0007", "KeyError",
    "Invalid dictionary key: \x7bkey_token\x7d.",
    "辞書のキーが無効です: \x7bkey_token\x7d"⟩

def unbound : NoticeForm :=
  ⟨"0008", "ScopeError",
    "Cannot find '\x7bname\x7d' in scope.",
    "'\x7bname\x7d'がスコープに見つかりません。"⟩

def argumentMismatch : NoticeForm :=
  ⟨"0009", "ArgumentError",
    "Function argument count mismatch.",
    "関数で定義されている引数の設定と、実際に受け取った引数が一致しません。"⟩

def returnType : NoticeForm :=
  ⟨"0010", "TypeError",
    "Return type mismatch in function '\x7bself.decl.name\x7d': expected '\x7breturn_type\x7d', got '\x7btype(e.value).__name__\x7d'",
    "関数 '\x7bself.decl.name\x7d' の戻り値の型が一致しません: '\x7breturn_type\x7d' を期待していましたが、'\x7btype(e.value).__name__\x7d' でした。"⟩

def initialiserArguments : NoticeForm :=
  ⟨"0011", "ArgumentError",
    "__init__ expects \x7blen(params)-1\x7d arg(s)",
    "__init__ は \x7blen(params)-1\x7d 個の引数を要求します"⟩

def badEmbedded : NoticeForm :=
  ⟨"0012", "ExpressionError",
    "Invalid embedded expression: \x7bexpr_src\x7d",
    "埋め込み式が不正です: \x7bexpr_src\x7d"⟩

def failedEmbedded : NoticeForm :=
  ⟨"0013", "InterpolationError",
    "String interpolation failed: \x7be\x7d",
    "文字列埋め込みの評価に失敗しました: \x7be\x7d"⟩

def notAList : NoticeForm :=
  ⟨"0014", "TypeError",
    "Expected '\x7bid\x7d' to be a list.",
    "'\x7bid\x7d' の種類はlistではありません。"⟩

def fileMissing : NoticeForm :=
  ⟨"0015", "ImportError",
    "File not found: \x7bfile_path\x7d.",
    "ファイルが存在しません: \x7bfile_path\x7d"⟩

def librariesMissing : NoticeForm :=
  ⟨"0016", "ImportError",
    "Cannot find Module(s)/Library(s): [\x7b', '.join(not_founds)\x7d]",
    "次のモジュール/ライブラリを検出できませんでした: [\x7b', '.join(not_founds)\x7d]"⟩

def variableType : NoticeForm :=
  ⟨"0017", "TypeError",
    "Type mismatch for variable '\x7bnode.name\x7d': expected '\x7bexpected_type\x7d', got '\x7btype(value).__name__\x7d'",
    "変数 '\x7bnode.name\x7d' の型が一致しません: 期待された型 '\x7bexpected_type\x7d' に対して、実際は '\x7btype(value).__name__\x7d' でした。"⟩

def notATemplate : NoticeForm :=
  ⟨"0018", "TypeError",
    "Base \x7bnode.base\x7d is not template",
    "基底 \x7bnode.base\x7d は template ではありません"⟩

def notIterable : NoticeForm :=
  ⟨"0019", "TypeError",
    "The expression in for loop is not iterable.",
    "渡されたデータはfor文で使用できません。イテラブルである必要があります。"⟩

def noAttribute : NoticeForm :=
  ⟨"0020", "KeyError",
    "Object has no attribute '\x7bnode.name\x7d'",
    "属性 '\x7bnode.name\x7d' は存在しません"⟩

def noEntry : NoticeForm :=
  ⟨"0021", "KeyError",
    "Cannot access index/key '\x7bindex\x7d' on \x7bcollection\x7d",
    "\x7bcollection\x7d に対してインデックス/キー '\x7bindex\x7d' を取得できません"⟩

def unknownOperator : NoticeForm :=
  ⟨"0022", "SyntaxError",
    "Unknown operator: \x7bnode.op\x7d.",
    "未知の演算子: \x7bnode.op\x7d"⟩

def unknownUnary : NoticeForm :=
  ⟨"0023", "SyntaxError",
    "Unknown unary operator \x7bnode.op\x7d.",
    "未知の単項演算子: \x7bnode.op\x7d"⟩

def notCallable : NoticeForm :=
  ⟨"0024", "TypeError",
    "Attempting to call a non-callable object.",
    "呼び出し不可能なオブジェクトを呼び出そうとしました。"⟩

def notEvaluable : NoticeForm :=
  ⟨"0025", "EvaluationError",
    "Cannot evaluate node \x7bnode\x7d.",
    "\x7bnode\x7d を処理できません。"⟩

def unboundFunction : NoticeForm :=
  ⟨"0026", "ScopeError",
    "Cannot find function '\x7bname\x7d' in scope.",
    "関数 '\x7bname\x7d' がスコープ内に存在しません。"⟩

def readOnly : NoticeForm :=
  ⟨"0027", "ConstAssignmentError",
    "Cannot assign to read-only variable '\x7bname\x7d'.",
    "読み取り専用変数 '\x7bname\x7d' には代入できません。"⟩

def all : List NoticeForm :=
  [unknown, unexpectedCharacter, endOfInput, expectedToken, expectedIn, expectedCatch,
   unexpectedToken, badDictKey, unbound, argumentMismatch, returnType, initialiserArguments,
   badEmbedded, failedEmbedded, notAList, fileMissing, librariesMissing, variableType,
   notATemplate, notIterable, noAttribute, noEntry, unknownOperator, unknownUnary,
   notCallable, notEvaluable, unboundFunction, readOnly]

/-- The form with a given number, written with an `E` before it; any other text gives the form of
an unknown failure. -/
def find (id : String) : NoticeForm := (all.find? fun f => "E" ++ f.number == id).getD unknown

end NoticeForm

inductive Notice where
  | unknown
  | unexpectedCharacter (shown line : String)
  | endOfInput
  | expectedToken (kind found : String)
  | expectedIn
  | expectedCatch
  | unexpectedToken (found : String)
  | badDictKey (found : String)
  | unbound (name : String)
  | argumentMismatch
  | returnType (function expected actual : String)
  | initialiserArguments (count : String)
  | badEmbedded (source : String)
  | failedEmbedded (reason : String)
  | notAList (name : String)
  | fileMissing (path : String)
  | librariesMissing (names : String)
  | variableType (name expected actual : String)
  | notATemplate (name : String)
  | notIterable
  | noAttribute (name : String)
  | noEntry (index collection : String)
  | unknownOperator (op : String)
  | unknownUnary (op : String)
  | notCallable
  | notEvaluable (node : String)
  | unboundFunction (name : String)
  | readOnly (name : String)
  deriving DecidableEq, Repr, Inhabited

namespace Notice

def form : Notice → NoticeForm
  | .unknown => .unknown
  | .unexpectedCharacter _ _ => .unexpectedCharacter
  | .endOfInput => .endOfInput
  | .expectedToken _ _ => .expectedToken
  | .expectedIn => .expectedIn
  | .expectedCatch => .expectedCatch
  | .unexpectedToken _ => .unexpectedToken
  | .badDictKey _ => .badDictKey
  | .unbound _ => .unbound
  | .argumentMismatch => .argumentMismatch
  | .returnType _ _ _ => .returnType
  | .initialiserArguments _ => .initialiserArguments
  | .badEmbedded _ => .badEmbedded
  | .failedEmbedded _ => .failedEmbedded
  | .notAList _ => .notAList
  | .fileMissing _ => .fileMissing
  | .librariesMissing _ => .librariesMissing
  | .variableType _ _ _ => .variableType
  | .notATemplate _ => .notATemplate
  | .notIterable => .notIterable
  | .noAttribute _ => .noAttribute
  | .noEntry _ _ => .noEntry
  | .unknownOperator _ => .unknownOperator
  | .unknownUnary _ => .unknownUnary
  | .notCallable => .notCallable
  | .notEvaluable _ => .notEvaluable
  | .unboundFunction _ => .unboundFunction
  | .readOnly _ => .readOnly

/-- The placeholders and what they are replaced by. -/
def items : Notice → List (String × String)
  | .unexpectedCharacter shown line =>
    [("value!r", shown), ("line_num", line)]
  | .expectedToken kind found =>
    [("token_type", kind), ("token", found)]
  | .unexpectedToken found =>
    [("token", found)]
  | .badDictKey found =>
    [("key_token", found)]
  | .unbound name =>
    [("name", name)]
  | .returnType function expected actual =>
    [("self.decl.name", function), ("return_type", expected), ("type(e.value).__name__", actual)]
  | .initialiserArguments count =>
    [("len(params)-1", count)]
  | .badEmbedded source =>
    [("expr_src", source)]
  | .failedEmbedded reason =>
    [("e", reason)]
  | .notAList name =>
    [("id", name)]
  | .fileMissing path =>
    [("file_path", path)]
  | .librariesMissing names =>
    [("', '.join(not_founds)", names)]
  | .variableType name expected actual =>
    [("node.name", name), ("expected_type", expected), ("type(value).__name__", actual)]
  | .notATemplate name =>
    [("node.base", name)]
  | .noAttribute name =>
    [("node.name", name)]
  | .noEntry index collection =>
    [("index", index), ("collection", collection)]
  | .unknownOperator op =>
    [("node.op", op)]
  | .unknownUnary op =>
    [("node.op", op)]
  | .notEvaluable node =>
    [("node", node)]
  | .unboundFunction name =>
    [("name", name)]
  | .readOnly name =>
    [("name", name)]
  | _ => []

/-- Notices that list library names, whose brackets must not read as markup. -/
def isEscaped : Notice → Bool
  | .librariesMissing _ => true
  | _ => false

def texts (n : Notice) : List (String × String) :=
  n.form.texts.map fun entry =>
    let text := fillIn n.items entry.2
    (entry.1, if n.isEscaped then Text.escapeMarkup text else text)

/-- The line that shows a failure: where it arose, how grave it is, its number, name and text. -/
def headline (location level number name text : String) : String :=
  "<" ++ location ++ ":" ++ level ++ number ++ "> " ++ name ++ ": " ++ text

def render (reader : Option String) (n : Notice) : String :=
  headline "YPSH" "C" n.form.number n.form.name ((pickText reader n.texts).getD "No Description")

end Notice

def Lexeme.stray (l : Lexeme) (line : Nat) : Notice :=
  .unexpectedCharacter (Text.quote (String.ofList l.text)) (toString line)

/-- The tokens among lexemes that start on a given line, and a notice for each stray character. -/
def Lexeme.sift (line : Nat) : List Lexeme → List Token × List Notice
  | [] => ([], [])
  | l :: ls =>
    let (tokens, notices) := sift (line + l.newlines) ls
    if l.kind.isGap then (tokens, notices)
    else if l.kind = .mismatch then (tokens, l.stray line :: notices)
    else (⟨l.kind, String.ofList l.text, line⟩ :: tokens, notices)

def tokenizeReporting (s : String) : List Token × List Notice := Lexeme.sift 1 (Lexeme.split s)

end ScriptLang
