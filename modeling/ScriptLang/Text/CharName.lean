import ScriptLang.Text.NameTable
import ScriptLang.Text.Search

/-!
# Characters by name

The names of Chinese characters end in their number and those of Korean syllables in their letters;
the others are listed. Listed names are read in either case of letters.
-/

namespace ScriptLang.Text

/-- The first and last numbers of the blocks of Chinese characters that have their own names. -/
def ideographs : List (Nat × Nat) :=
  [(0x3400, 0x4dbf), (0x4e00, 0x9fff), (0x20000, 0x2a6df), (0x2a700, 0x2b738), (0x2b740, 0x2b81d),
   (0x2b820, 0x2cea1), (0x2ceb0, 0x2ebe0), (0x30000, 0x3134a)]

/-- The first and last numbers of the blocks of Chinese characters that are variants of others. -/
def variantIdeographs : List (Nat × Nat) :=
  [(0xf900, 0xfa6d), (0xfa70, 0xfad9), (0x2f800, 0x2fa1d)]

def afterFront? (front name : String) : Option String :=
  if startsWith name front then some (String.ofList (name.toList.drop front.length)) else none

private def upperHex? (c : Char) : Option Nat :=
  if '0' ≤ c && c ≤ '9' then some (c.toNat - 48)
  else if 'A' ≤ c && c ≤ 'F' then some (c.toNat - 55)
  else none

/-- The number that four or five hexadecimal digits write, if it lies in one of some blocks. -/
def numbered? (blocks : List (Nat × Nat)) (digits : String) : Option Nat := do
  if digits.length != 4 && digits.length != 5 then none
  let ds ← digits.toList.mapM upperHex?
  let n := ds.foldl (fun n d => n * 16 + d) 0
  if blocks.any fun b => b.1 ≤ n && n ≤ b.2 then some n else none

def initialLetters : List String :=
  ["G", "GG", "N", "D", "DD", "R", "M", "B", "BB", "S", "SS", "", "J", "JJ", "C", "K", "T", "P",
   "H"]

def medialLetters : List String :=
  ["A", "AE", "YA", "YAE", "EO", "E", "YEO", "YE", "O", "WA", "WAE", "OE", "YO", "U", "WEO", "WE",
   "WI", "YU", "EU", "YI", "I"]

def finalLetters : List String :=
  ["", "G", "GG", "GS", "N", "NJ", "NH", "D", "L", "LG", "LM", "LB", "LS", "LT", "LP", "LH", "M",
   "B", "BS", "S", "SS", "NG", "J", "C", "K", "T", "P", "H"]

/-- The longest of some letters that a text starts with: its place among them, and what follows. -/
def longestLetter? (letters : List String) (s : String) : Option (Nat × String) :=
  let found := letters.zipIdx.filterMap fun (l, i) => (afterFront? l s).map fun rest => (i, rest)
  found.foldl (fun best next => match best with
    | some b => if next.2.length < b.2.length then some next else some b
    | none => some next) none

def syllable? (letters : String) : Option Nat := do
  let (l, rest) ← longestLetter? initialLetters letters
  let (v, rest) ← longestLetter? medialLetters rest
  let (t, rest) ← longestLetter? finalLetters rest
  if rest.isEmpty then some (0xac00 + (l * 21 + v) * 28 + t) else none

/-- The names that a short form stands for, two if it has a star. -/
def fullNames (short : String) : List String :=
  let starred := if short.toList.contains '*' then ["LATIN CAPITAL LETTER ", "LATIN SMALL LETTER "]
    else [""]
  starred.map fun front => String.join (short.toList.map fun c =>
    if c == '*' then front else (nameParts.lookup c).getD c.toString)

def NameBlock.find? (b : NameBlock) (name : String) : Option Nat :=
  (((b.lines.flatMap (splitOn · ",")).flatMap fullNames).findIdx? (· == name)).map (b.first + ·)

def listed? (name : String) : Option Nat :=
  if name.isEmpty then none
  else
    (NameBlock.all.findSome? fun b => b.find? name) <|>
      ((otherNames.find? fun e => (splitOn e.2 ",").contains name).map Prod.fst) <|>
      ((afterFront? "CJK COMPATIBILITY IDEOGRAPH-" name).bind (numbered? variantIdeographs))

def charNamed? (name : String) : Option Nat :=
  match afterFront? "HANGUL SYLLABLE " name, afterFront? "CJK UNIFIED IDEOGRAPH-" name with
  | some letters, _ => syllable? letters
  | none, some digits => numbered? ideographs digits
  | none, none => listed? (String.ofList (name.toList.map Char.toUpper))

end ScriptLang.Text
