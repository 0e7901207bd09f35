/-!
# Byte encoding of text

A character is one to four bytes; decoding reads the longest valid stretch and reports the rest.
-/

namespace ScriptLang.Text

def charBytes (c : Char) : List Nat :=
  let n := c.toNat
  if n < 0x80 then [n]
  else if n < 0x800 then [0xc0 + n / 0x40, 0x80 + n % 0x40]
  else if n < 0x10000 then [0xe0 + n / 0x1000, 0x80 + n / 0x40 % 0x40, 0x80 + n % 0x40]
  else [0xf0 + n / 0x40000, 0x80 + n / 0x1000 % 0x40, 0x80 + n / 0x40 % 0x40, 0x80 + n % 0x40]

def bytes (s : String) : List Nat := s.toList.flatMap charBytes

/-- Whether a byte goes on with a character. -/
def isTail (b : Nat) : Bool := 0x80 ≤ b && b < 0xc0

/-- The character at the head of a byte sequence and the number of its bytes after the first. -/
def headChar? : List Nat → Option (Char × Nat)
  | [] => none
  | b :: bs =>
    if b < 0x80 then some (Char.ofNat b, 0)
    else match bs with
      | c :: cs =>
        if 0xc2 ≤ b && b < 0xe0 && isTail c then
          some (Char.ofNat ((b - 0xc0) * 0x40 + (c - 0x80)), 1)
        else match cs with
          | d :: ds =>
            let n := (b - 0xe0) * 0x1000 + (c - 0x80) * 0x40 + (d - 0x80)
            if 0xe0 ≤ b && b < 0xf0 && isTail c && isTail d && 0x800 ≤ n &&
                !(0xd800 ≤ n && n < 0xe000) then
              some (Char.ofNat n, 2)
            else match ds with
              | e :: _ =>
                let m := (b - 0xf0) * 0x40000 + (c - 0x80) * 0x1000 + (d - 0x80) * 0x40 +
                  (e - 0x80)
                if 0xf0 ≤ b && b < 0xf5 && isTail c && isTail d && isTail e && 0x10000 ≤ m &&
                    m < 0x110000 then
                  some (Char.ofNat m, 3)
                else none
              | [] => none
          | [] => none
      | [] => none

/-- Bytes read as characters; `skip` bytes of a character are still to be dropped. A byte that
starts no character is handed to `stray`. -/
def decodeFrom (stray : Nat → List Char) : Nat → List Nat → List Char
  | _, [] => []
  | skip + 1, _ :: bs => decodeFrom stray skip bs
  | 0, b :: bs =>
    match headChar? (b :: bs) with
    | some (c, n) => c :: decodeFrom stray n bs
    | none => stray b ++ decodeFrom stray 0 bs

/-- What is wrong with the first byte that starts no character, from byte `pos` on; `skip` bytes of
a character are still to be passed over. -/
def decodingFault (pos : Nat) : Nat → List Nat → String
  | _, [] => ""
  | skip + 1, _ :: bs => decodingFault (pos + 1) skip bs
  | 0, b :: bs =>
    match headChar? (b :: bs) with
    | some (_, n) => decodingFault (pos + 1) n bs
    | none =>
      let hex := String.ofList (Nat.toDigits 16 b)
      let one := "'utf-8' codec can't decode byte 0x" ++ hex ++ " in position " ++ toString pos
      if b < 0xc2 || 0xf5 ≤ b then one ++ ": invalid start byte"
      else
        let wanted := if b < 0xe0 then 1 else if b < 0xf0 then 2 else 3
        let least := if b == 0xe0 then 0xa0 else if b == 0xf0 then 0x90 else 0x80
        let most := if b == 0xed then 0x9f else if b == 0xf4 then 0x8f else 0xbf
        let tails := match bs with
          | c :: cs =>
            if least ≤ c && c ≤ most then 1 + ((cs.take (wanted - 1)).takeWhile isTail).length
            else 0
          | [] => 0
        let reason := if tails < bs.length then ": invalid continuation byte"
          else ": unexpected end of data"
        if tails == 0 then one ++ reason
        else "'utf-8' codec can't decode bytes in position " ++ toString pos ++ "-" ++
          toString (pos + tails) ++ reason

/-- The text of a byte sequence, bytes that are part of no character left out. -/
def ofBytes (bs : List Nat) : String := String.ofList (decodeFrom (fun _ => []) 0 bs)

end ScriptLang.Text
