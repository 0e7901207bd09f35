import ScriptLang.Datum
import ScriptLang.Number.Reading

/-!
# Data read from JSON

The reader goes through the text once. Where it cannot go on it tells what it expected, and at which
line, column and character; characters are counted from zero, lines and columns from one.
-/

namespace ScriptLang.Json

/-- What went wrong, and how many characters were left then. -/
structure Problem where
  reason : String
  left : Nat
  deriving DecidableEq, Repr

/-- Why reading stopped: the text is no JSON, or it holds a number that is too long. -/
inductive Stop where
  | expected (p : Problem)
  | failed (f : Failure)

def isSpace (c : Char) : Bool := c == ' ' || c == '\t' || c == '\n' || c == '\r'

def skip (cs : List Char) : List Char := cs.dropWhile isSpace

private def stop {α : Type} (reason : String) (rest : List Char) : Except Stop α :=
  .error (.expected ⟨reason, rest.length⟩)

def hexValue? (c : Char) : Option Nat :=
  if '0' ≤ c && c ≤ '9' then some (c.toNat - 48)
  else if 'a' ≤ c && c ≤ 'f' then some (c.toNat - 87)
  else if 'A' ≤ c && c ≤ 'F' then some (c.toNat - 55)
  else none

/-- The unit that four hexadecimal digits spell; more text has to follow them. -/
def unit? (cs : List Char) : Option Nat :=
  if cs.length ≤ 4 then none
  else ((cs.take 4).mapM hexValue?).map fun ds => ds.foldl (fun n d => n * 16 + d) 0

/-- The character after a backslash, if it stands for one by itself. -/
def escaped? : Char → Option Char
  | '"' => some '"'
  | '\\' => some '\\'
  | '/' => some '/'
  | 'b' => some '\x08'
  | 'f' => some '\x0c'
  | 'n' => some '\n'
  | 'r' => some '\r'
  | 't' => some '\t'
  | _ => none

/-- The second half of a pair of units, if one follows. -/
def lowUnit? (cs : List Char) : Option Nat :=
  match cs with
  | '\\' :: 'u' :: cs => (unit? cs).filter fun n => 0xdc00 ≤ n && n < 0xe000
  | _ => none

/-- The rest of a string whose opening quote had `opened` characters after and including it; `skips`
characters of an escape are still to be passed over. -/
def string (opened : Nat) : (skips : Nat) → List Char → Except Stop (List Char × List Char)
  | _, [] => .error (.expected ⟨"Unterminated string starting at", opened⟩)
  | skips + 1, _ :: cs => string opened skips cs
  | 0, '"' :: cs => .ok ([], cs)
  | 0, '\\' :: cs =>
    match cs with
    | [] => .error (.expected ⟨"Unterminated string starting at", opened⟩)
    | 'u' :: ds =>
      match unit? ds with
      | none => stop "Invalid \\uXXXX escape" cs
      | some n =>
        match if 0xd800 ≤ n && n < 0xdc00 then lowUnit? (ds.drop 4) else none with
        | some low => do
          let (text, rest) ← string opened 11 cs
          .ok (Char.ofNat (0x10000 + (n - 0xd800) * 0x400 + (low - 0xdc00)) :: text, rest)
        | none => do
          let (text, rest) ← string opened 5 cs
          .ok (Char.ofNat n :: text, rest)
    | c :: _ =>
      match escaped? c with
      | none => stop "Invalid \\escape" ('\\' :: cs)
      | some d => do
        let (text, rest) ← string opened 1 cs
        .ok (d :: text, rest)
  | 0, c :: cs =>
    if c.toNat < 0x20 then stop "Invalid control character at" (c :: cs)
    else do
      let (text, rest) ← string opened 0 cs
      .ok (c :: text, rest)

private def digits (cs : List Char) : List Char × List Char := cs.span Char.isDigit

/-- The parts of a number at the head of a text: whether it is whole, its characters, the rest. -/
def number? (cs : List Char) : Option (Bool × List Char × List Char) :=
  let (sign, rest) := match cs with
    | '-' :: rest => (['-'], rest)
    | rest => ([], rest)
  let whole := match rest with
    | '0' :: rest => some (['0'], rest)
    | rest =>
      let (ds, rest) := digits rest
      if ds.isEmpty then none else some (ds, rest)
  whole.map fun (ds, rest) =>
    let (fraction, rest) := match rest with
      | '.' :: tail =>
        let (fs, tail) := digits tail
        if fs.isEmpty then ([], rest) else ('.' :: fs, tail)
      | rest => ([], rest)
    let (exponent, rest) := match rest with
      | e :: tail =>
        if e == 'e' || e == 'E' then
          let (sign, tail) := match tail with
            | '+' :: t => (['+'], t)
            | '-' :: t => (['-'], t)
            | t => ([], t)
          let (es, tail) := digits tail
          if es.isEmpty then ([], rest) else (e :: sign ++ es, tail)
        else ([], rest)
      | [] => ([], rest)
    (fraction.isEmpty && exponent.isEmpty, sign ++ ds ++ fraction ++ exponent, rest)

def words : List (String × Datum) :=
  [("null", .none), ("true", .bool true), ("false", .bool false),
   ("NaN", .float Number.Parts.nan.toFloat),
   ("Infinity", .float (Number.Parts.infinite false).toFloat),
   ("-Infinity", .float (Number.Parts.infinite true).toFloat)]

private def numeral (isWhole : Bool) (text : String) : Except Stop Datum :=
  let value := if isWhole then Datum.int <$> Number.readInt 10 text text
    else Datum.float <$> Number.readFloat text text
  value.mapError .failed

def atom (cs : List Char) : Except Stop (Datum × List Char) :=
  match words.find? fun w => w.1.toList.isPrefixOf cs with
  | some (w, d) => .ok (d, cs.drop w.length)
  | none =>
    match number? cs with
    | some (isWhole, text, rest) => do
      let d ← numeral isWhole (String.ofList text)
      .ok (d, rest)
    | none => stop "Expecting value" cs

mutual

def value : (fuel : Nat) → List Char → Except Stop (Datum × List Char)
  | 0, cs => stop "Expecting value" cs
  | fuel + 1, cs =>
    match cs with
    | '"' :: rest => do
      let (text, rest) ← string cs.length 0 rest
      .ok (.text (String.ofList text), rest)
    | '{' :: rest =>
      match skip rest with
      | '}' :: rest => .ok (.dict [], rest)
      | rest => do
        let (entries, rest) ← entries fuel rest
        .ok (.dict (entries.foldl (fun t e => Table.set t e.1 e.2) []), rest)
    | '[' :: rest =>
      match skip rest with
      | ']' :: rest => .ok (.list [], rest)
      | rest => do
        let (items, rest) ← items fuel rest
        .ok (.list items, rest)
    | cs => atom cs

def items : (fuel : Nat) → List Char → Except Stop (List Datum × List Char)
  | 0, cs => stop "Expecting value" cs
  | fuel + 1, cs => do
    let (d, rest) ← value fuel cs
    match skip rest with
    | ']' :: rest => .ok ([d], rest)
    | ',' :: rest => do
      let (ds, rest) ← items fuel (skip rest)
      .ok (d :: ds, rest)
    | rest => stop "Expecting ',' delimiter" rest

def entries : (fuel : Nat) → List Char → Except Stop (List (String × Datum) × List Char)
  | 0, cs => stop "Expecting value" cs
  | fuel + 1, cs =>
    match cs with
    | '"' :: rest => do
      let (key, rest) ← string cs.length 0 rest
      match skip rest with
      | ':' :: rest => do
        let (d, rest) ← value fuel (skip rest)
        match skip rest with
        | '}' :: rest => .ok ([(String.ofList key, d)], rest)
        | ',' :: rest => do
          let (es, rest) ← entries fuel (skip rest)
          .ok ((String.ofList key, d) :: es, rest)
        | rest => stop "Expecting ',' delimiter" rest
      | rest => stop "Expecting ':' delimiter" rest
    | cs => stop "Expecting property name enclosed in double quotes" cs

end

def document (cs : List Char) : Except Stop Datum :=
  if cs.head? == some '\ufeff' then stop "Unexpected UTF-8 BOM (decode using utf-8-sig)" cs
  else do
    let (d, rest) ← value (2 * cs.length + 1) (skip cs)
    match skip rest with
    | [] => .ok d
    | rest => stop "Extra data" rest

def Problem.failure (p : Problem) (cs : List Char) : Failure :=
  let position := cs.length - p.left
  let before := cs.take position
  .badJson p.reason (before.count '\n' + 1) ((before.reverse.takeWhile (· != '\n')).length + 1)
    position

def read (s : String) : Except Failure Datum :=
  match document s.toList with
  | .ok d => .ok d
  | .error (.expected p) => .error (p.failure s.toList)
  | .error (.failed f) => .error f

end ScriptLang.Json
