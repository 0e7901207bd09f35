import ScriptLang.Text.Escape
import ScriptLang.Text.Quoted
import ScriptLang.Number.Decimal

/-!
# Failures

What can go wrong inside an operation, as opposed to the notices that the language itself reports.
`Failure.message` gives the wording, `Failure.category` the family a failure belongs to.
-/

namespace ScriptLang

inductive Category where
  | wrongType | badValue | badIndex | noKey | noAttribute | zeroDivision | overflow
  | endOfInput | unassigned | badEscape | fileMissing | fileExists | notADirectory | isADirectory
  | moduleMissing | download | network | status | badArchive | badJson | execution | syntaxFault
  | system | unreadable
  deriving DecidableEq, Repr

inductive Failure where
  /-- A token that should be there was needed for its text. -/
  | noTokenText
  /-- A part of the syntax tree was needed before anything was read into it. -/
  | unassigned (part : String)
  | tooManyDigits (count : Nat)
  | tooLongToWrite
  | badEscape (e : Text.EscapeError)
  | operands (op left right : String)
  | concatenation (kind given : String)
  | repeatCount (kind : String)
  | notOrdered (op left right : String)
  | unaryOperand (op kind : String)
  | divisionByZero
  | floatDivisionByZero
  | integerModuloByZero
  | floatModuloByZero
  | tooLargeForFloat
  | quotientTooLarge
  | notIterable (kind : String)
  | noLength (kind : String)
  | noAttribute (kind name : String)
  | unhashable (kind : String)
  | notIndexInteger (kind : String)
  | keyMissing (key : String)
  | textNeeded (kind : String)
  | environmentText (kind : String)
  | formatting
  | emptySeparator
  | joinItem (index : Nat) (kind : String)
  | substringMissing
  | emptyPop
  | popRange
  | removeMissing
  | itemMissing (shown : String)
  | indexRange (kind : String)
  | emptyExtremum (name : String)
  | extremumArguments (name : String)
  | badInteger (base : Nat) (shown : String)
  | badFloat (shown : String)
  | integerSource (kind : String)
  | floatSource (kind : String)
  | baseWithoutText
  | infiniteToInteger
  | nanToInteger
  | notSerializable (kind : String)
  | jsonKey (kind : String)
  | circular
  | dictElement (index : Nat)
  | dictElementLength (index length : Nat)
  | tooLargeForDate
  | dateRange
  | negativeCount
  | noClosingQuote
  | byteRange
  | endOfInput
  | importSpecName
  | importSpecKind
  | moduleMissing (name : String)
  | fileMissing (path : String)
  | notADirectory (path : String)
  | isADirectory (path : String)
  | fileExists (path : String)
  | unreachable (reason : String)
  | httpStatus (code : Nat)
  | noConnection (reason : String)
  | refusedStatus (code : Nat) (address : String)
  | notAnArchive
  | archiveItem (name : String)
  | unsupportedProcessor (name : String)
  | unsupportedSystem (name : String)
  | badJson (reason : String) (line column position : Nat)
  /-- A failure whose wording is fixed by the operation that raised it. -/
  | other (category : Category) (text : String)
  deriving DecidableEq, Repr

namespace Failure

def category : Failure → Category
  | noTokenText | noAttribute .. => .noAttribute
  | unassigned .. => .unassigned
  | badEscape .. => .badEscape
  | operands .. | concatenation .. | repeatCount .. | notOrdered .. | unaryOperand ..
  | notIterable .. | noLength .. | unhashable .. | notIndexInteger .. | textNeeded ..
  | environmentText .. | formatting | joinItem .. | extremumArguments .. | integerSource ..
  | floatSource .. | baseWithoutText | notSerializable .. | jsonKey .. | dictElement ..
  | importSpecKind => .wrongType
  | tooManyDigits .. | tooLongToWrite | emptySeparator | substringMissing | removeMissing
  | itemMissing .. | emptyExtremum .. | badInteger .. | badFloat .. | nanToInteger | circular
  | dictElementLength .. | negativeCount | noClosingQuote | byteRange
  | importSpecName => .badValue
  | divisionByZero | floatDivisionByZero | integerModuloByZero | floatModuloByZero => .zeroDivision
  | tooLargeForFloat | quotientTooLarge | infiniteToInteger | tooLargeForDate | dateRange =>
    .overflow
  | keyMissing .. => .noKey
  | emptyPop | popRange | indexRange .. => .badIndex
  | endOfInput => .endOfInput
  | moduleMissing .. => .moduleMissing
  | fileMissing .. => .fileMissing
  | notADirectory .. => .notADirectory
  | isADirectory .. => .isADirectory
  | fileExists .. => .fileExists
  | unreachable .. => .download
  | httpStatus .. | unsupportedProcessor .. | unsupportedSystem .. => .execution
  | noConnection .. => .network
  | refusedStatus .. => .status
  | notAnArchive => .badArchive
  | archiveItem .. => .noKey
  | badJson .. => .badJson
  | other category _ => category

private def quoted (s : String) : String := "'" ++ s ++ "'"

def message : Failure → String
  | noTokenText => "'NoneType' object has no attribute 'value'"
  | unassigned part =>
    "cannot access local variable '" ++ part ++ "' where it is not associated with a value"
  | tooManyDigits count =>
    "Exceeds the limit (4300 digits) for integer string conversion: value has " ++
      toString count ++ " digits; use sys.set_int_max_str_digits() to increase the limit"
  | tooLongToWrite =>
    "Exceeds the limit (4300 digits) for integer string conversion; " ++
      "use sys.set_int_max_str_digits() to increase the limit"
  | badEscape e => e.message
  | operands op left right =>
    "unsupported operand type(s) for " ++ op ++ ": " ++ quoted left ++ " and " ++ quoted right
  | concatenation kind given =>
    "can only concatenate " ++ kind ++ " (not \"" ++ given ++ "\") to " ++ kind
  | repeatCount kind => "can't multiply sequence by non-int of type " ++ quoted kind
  | notOrdered op left right =>
    quoted op ++ " not supported between instances of " ++ quoted left ++ " and " ++ quoted right
  | unaryOperand op kind => "bad operand type for unary " ++ op ++ ": " ++ quoted kind
  | divisionByZero => "division by zero"
  | floatDivisionByZero => "float division by zero"
  | integerModuloByZero => "integer modulo by zero"
  | floatModuloByZero => "float modulo"
  | tooLargeForFloat => "int too large to convert to float"
  | quotientTooLarge => "integer division result too large for a float"
  | notIterable kind => quoted kind ++ " object is not iterable"
  | noLength kind => "object of type " ++ quoted kind ++ " has no len()"
  | noAttribute kind name => quoted kind ++ " object has no attribute " ++ quoted name
  | unhashable kind => "unhashable type: " ++ quoted kind
  | notIndexInteger kind => quoted kind ++ " object cannot be interpreted as an integer"
  | keyMissing key => key
  | textNeeded kind => "expected string or bytes-like object, got " ++ quoted kind
  | environmentText kind => "str expected, not " ++ kind
  | formatting => "not all arguments converted during string formatting"
  | emptySeparator => "empty separator"
  | joinItem index kind =>
    "sequence item " ++ toString index ++ ": expected str instance, " ++ kind ++ " found"
  | substringMissing => "substring not found"
  | emptyPop => "pop from empty list"
  | popRange => "pop index out of range"
  | removeMissing => "list.remove(x): x not in list"
  | itemMissing shown => shown ++ " is not in list"
  | indexRange kind => kind ++ " index out of range"
  | emptyExtremum name => name ++ "() arg is an empty sequence"
  | extremumArguments name => name ++ " expected at least 1 argument, got 0"
  | badInteger base shown =>
    "invalid literal for int() with base " ++ toString base ++ ": " ++ shown
  | badFloat shown => "could not convert string to float: " ++ shown
  | integerSource kind =>
    "int() argument must be a string, a bytes-like object or a real number, not " ++ quoted kind
  | floatSource kind => "float() argument must be a string or a real number, not " ++ quoted kind
  | baseWithoutText => "int() can't convert non-string with explicit base"
  | infiniteToInteger => "cannot convert float infinity to integer"
  | nanToInteger => "cannot convert float NaN to integer"
  | notSerializable kind => "Object of type " ++ kind ++ " is not JSON serializable"
  | jsonKey kind => "keys must be str, int, float, bool or None, not " ++ kind
  | circular => "Circular reference detected"
  | dictElement index =>
    "cannot convert dictionary update sequence element #" ++ toString index ++ " to a sequence"
  | dictElementLength index length =>
    "dictionary update sequence element #" ++ toString index ++ " has length " ++
      toString length ++ "; 2 is required"
  | tooLargeForDate => "Python int too large to convert to C int"
  | dateRange => "date value out of range"
  | negativeCount => "negative count"
  | noClosingQuote => "No closing quotation"
  | byteRange => "byte must be in range(0, 256)"
  | endOfInput => "EOF when reading a line"
  | importSpecName => "import spec dict must have 'lib' (str)"
  | importSpecKind => "import accepts string or dict spec"
  | moduleMissing name => "No module named " ++ quoted name
  | fileMissing path => "[Errno 2] No such file or directory: " ++ Text.quote path
  | notADirectory path => "[Errno 20] Not a directory: " ++ Text.quote path
  | isADirectory path => "[Errno 21] Is a directory: " ++ Text.quote path
  | unreachable reason => "<urlopen error " ++ reason ++ ">"
  | fileExists path => "[Errno 17] File exists: " ++ Text.quote path
  | httpStatus code => "Failed to download: HTTP " ++ toString code
  | noConnection reason => reason
  | refusedStatus code address => toString code ++ " for url: " ++ address
  | notAnArchive => "File is not a zip file"
  | archiveItem name =>
    Text.quote ("There is no item named " ++ Text.quote name ++ " in the archive")
  | unsupportedProcessor name => "Unsupported CPU: " ++ name
  | unsupportedSystem name => "Unsupported OS: " ++ name
  | badJson reason line column position =>
    reason ++ ": line " ++ toString line ++ " column " ++ toString column ++ " (char " ++
      toString position ++ ")"
  | other _ text => text

end Failure

end ScriptLang
