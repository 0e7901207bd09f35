/-!
# Letter case

Upper and lower case of single characters. Most letters move by a fixed distance within a run of
letters; a few have an upper case of several characters.
-/

namespace ScriptLang.Text

/-- Every `stride`-th character from `first` to `last` moves by `shift`. -/
structure CaseRun where
  first : Nat
  last : Nat
  stride : Nat
  shift : Int

def CaseRun.apply? (r : CaseRun) (n : Nat) : Option Nat :=
  if r.first ≤ n && n ≤ r.last && (n - r.first) % r.stride == 0 then
    some ((n : Int) + r.shift).toNat
  else none

/-- The way back for the characters that a run moves. -/
def CaseRun.back (r : CaseRun) : CaseRun :=
  ⟨(r.first + r.shift).toNat, (r.last + r.shift).toNat, r.stride, -r.shift⟩

def CaseRun.alone (moves : List (Nat × Int)) : List CaseRun :=
  moves.map fun (n, shift) => ⟨n, n, 1, shift⟩

def moveBy (runs : List CaseRun) (n : Nat) : Nat := (runs.findSome? fun r => r.apply? n).getD n

/-- Runs of small letters, each of them right after its capital letter. -/
private def alternating : List (Nat × Nat) :=
  [(0x101, 0x12f), (0x133, 0x137), (0x13a, 0x148), (0x14b, 0x177), (0x17a, 0x17e), (0x183, 0x185),
   (0x188, 0x188), (0x18c, 0x18c), (0x192, 0x192), (0x199, 0x199), (0x1a1, 0x1a5), (0x1a8, 0x1a8),
   (0x1ad, 0x1ad), (0x1b0, 0x1b0), (0x1b4, 0x1b6), (0x1b9, 0x1b9), (0x1bd, 0x1bd), (0x1ce, 0x1dc),
   (0x1df, 0x1ef), (0x1f5, 0x1f5), (0x1f9, 0x21f), (0x223, 0x233), (0x23c, 0x23c), (0x242, 0x242),
   (0x247, 0x24f), (0x371, 0x373), (0x377, 0x377), (0x3d9, 0x3ef), (0x3f8, 0x3f8), (0x3fb, 0x3fb),
   (0x461, 0x481), (0x48b, 0x4bf), (0x4c2, 0x4ce), (0x4d1, 0x52f), (0x1e01, 0x1e95),
   (0x1ea1, 0x1eff), (0x2184, 0x2184), (0x2c61, 0x2c61), (0x2c68, 0x2c6c), (0x2c73, 0x2c73),
   (0x2c76, 0x2c76), (0x2c81, 0x2ce3), (0x2cec, 0x2cee), (0x2cf3, 0x2cf3), (0xa641, 0xa66d),
   (0xa681, 0xa69b), (0xa723, 0xa72f), (0xa733, 0xa76f), (0xa77a, 0xa77c), (0xa77f, 0xa787),
   (0xa78c, 0xa78c), (0xa791, 0xa793), (0xa797, 0xa7a9), (0xa7b5, 0xa7c3), (0xa7c8, 0xa7ca),
   (0xa7d1, 0xa7d1), (0xa7d7, 0xa7d9), (0xa7f6, 0xa7f6)]

/-- Small letters that move to the capital letters of which they are the lower case. -/
private def letterPairs : List CaseRun :=
  alternating.map (fun (first, last) => ⟨first, last, 2, -1⟩) ++
    [⟨0x61, 0x7a, 1, -32⟩, ⟨0xe0, 0xf6, 1, -32⟩, ⟨0xf8, 0xfe, 1, -32⟩, ⟨0x23f, 0x240, 1, 10815⟩,
     ⟨0x256, 0x257, 1, -205⟩, ⟨0x28a, 0x28b, 1, -217⟩, ⟨0x37b, 0x37d, 1, 130⟩,
     ⟨0x3ad, 0x3af, 1, -37⟩, ⟨0x3b1, 0x3c1, 1, -32⟩, ⟨0x3c3, 0x3cb, 1, -32⟩, ⟨0x3cd, 0x3ce, 1, -63⟩,
     ⟨0x430, 0x44f, 1, -32⟩, ⟨0x450, 0x45f, 1, -80⟩, ⟨0x561, 0x586, 1, -48⟩,
     ⟨0x10d0, 0x10fa, 1, 3008⟩, ⟨0x10fd, 0x10ff, 1, 3008⟩, ⟨0x13f8, 0x13fd, 1, -8⟩,
     ⟨0x1f00, 0x1f07, 1, 8⟩, ⟨0x1f10, 0x1f15, 1, 8⟩, ⟨0x1f20, 0x1f27, 1, 8⟩, ⟨0x1f30, 0x1f37, 1, 8⟩,
     ⟨0x1f40, 0x1f45, 1, 8⟩, ⟨0x1f51, 0x1f57, 2, 8⟩, ⟨0x1f60, 0x1f67, 1, 8⟩,
     ⟨0x1f70, 0x1f71, 1, 74⟩, ⟨0x1f72, 0x1f75, 1, 86⟩, ⟨0x1f76, 0x1f77, 1, 100⟩,
     ⟨0x1f78, 0x1f79, 1, 128⟩, ⟨0x1f7a, 0x1f7b, 1, 112⟩, ⟨0x1f7c, 0x1f7d, 1, 126⟩,
     ⟨0x1fb0, 0x1fb1, 1, 8⟩, ⟨0x1fd0, 0x1fd1, 1, 8⟩, ⟨0x1fe0, 0x1fe1, 1, 8⟩,
     ⟨0x2170, 0x217f, 1, -16⟩, ⟨0x24d0, 0x24e9, 1, -26⟩, ⟨0x2c30, 0x2c5f, 1, -48⟩,
     ⟨0x2d00, 0x2d25, 1, -7264⟩, ⟨0xab70, 0xabbf, 1, -38864⟩, ⟨0xff41, 0xff5a, 1, -32⟩,
     ⟨0x10428, 0x1044f, 1, -40⟩, ⟨0x104d8, 0x104fb, 1, -40⟩, ⟨0x10597, 0x105a1, 1, -39⟩,
     ⟨0x105a3, 0x105b1, 1, -39⟩, ⟨0x105b3, 0x105b9, 1, -39⟩, ⟨0x105bb, 0x105bc, 1, -39⟩,
     ⟨0x10cc0, 0x10cf2, 1, -64⟩, ⟨0x118c0, 0x118df, 1, -32⟩, ⟨0x16e60, 0x16e7f, 1, -32⟩,
     ⟨0x1e922, 0x1e943, 1, -34⟩] ++
  CaseRun.alone
    [(0xff, 121), (0x180, 195), (0x195, 97), (0x19a, 163), (0x19e, 130), (0x1bf, 56), (0x1c6, -2),
     (0x1c9, -2), (0x1cc, -2), (0x1dd, -79), (0x1f3, -2), (0x250, 10783), (0x251, 10780),
     (0x252, 10782), (0x253, -210), (0x254, -206), (0x259, -202), (0x25b, -203), (0x25c, 42319),
     (0x260, -205), (0x261, 42315), (0x263, -207), (0x265, 42280), (0x266, 42308), (0x268, -209),
     (0x269, -211), (0x26a, 42308), (0x26b, 10743), (0x26c, 42305), (0x26f, -211), (0x271, 10749),
     (0x272, -213), (0x275, -214), (0x27d, 10727), (0x280, -218), (0x282, 42307), (0x283, -218),
     (0x287, 42282), (0x288, -218), (0x289, -69), (0x28c, -71), (0x292, -219), (0x29d, 42261),
     (0x29e, 42258), (0x3ac, -38), (0x3cc, -64), (0x3d7, -8), (0x3f2, 7), (0x3f3, -116),
     (0x4cf, -15), (0x1d79, 35332), (0x1d7d, 3814), (0x1d8e, 35384), (0x1fe5, 7), (0x214e, -28),
     (0x2c65, -10795), (0x2c66, -10792), (0x2d27, -7264), (0x2d2d, -7264), (0xa794, 48),
     (0xab53, -928)]

/-- Letters that are not the lower case of their upper case. -/
private def upperRuns : List CaseRun :=
  [⟨0x1c83, 0x1c84, 1, -6242⟩] ++ CaseRun.alone
    [(0xb5, 743), (0x131, -232), (0x17f, -300), (0x1c5, -1), (0x1c8, -1), (0x1cb, -1), (0x1f2, -1),
     (0x345, 84), (0x3c2, -31), (0x3d0, -62), (0x3d1, -57), (0x3d5, -47), (0x3d6, -54),
     (0x3f0, -86), (0x3f1, -80), (0x3f5, -96), (0x1c80, -6254), (0x1c81, -6253), (0x1c82, -6244),
     (0x1c85, -6243), (0x1c86, -6236), (0x1c87, -6181), (0x1c88, 35266), (0x1e9b, -59),
     (0x1fbe, -7205)]

/-- Letters that are not the upper case of their lower case. -/
private def lowerRuns : List CaseRun :=
  [⟨0x1f88, 0x1f8f, 1, -8⟩, ⟨0x1f98, 0x1f9f, 1, -8⟩, ⟨0x1fa8, 0x1faf, 1, -8⟩] ++ CaseRun.alone
    [(0x1c5, 1), (0x1c8, 1), (0x1cb, 1), (0x1f2, 1), (0x3f4, -60), (0x1e9e, -7615), (0x1fbc, -9),
     (0x1fcc, -9), (0x1ffc, -9), (0x2126, -7517), (0x212a, -8383), (0x212b, -8262)]

/-- The first of eight Greek letters with an iota below, and of their capital letters without it. -/
private def iotaRows : List (Nat × Nat) :=
  [(0x1f80, 0x1f08), (0x1f88, 0x1f08), (0x1f90, 0x1f28), (0x1f98, 0x1f28), (0x1fa0, 0x1f68),
   (0x1fa8, 0x1f68)]

private def upperExpansions : List (Char × String) :=
  [('ß', "SS"), ('ŉ', "ʼN"), ('ǰ', "J̌"), ('ΐ', "Ϊ́"), ('ΰ', "Ϋ́"), ('և', "ԵՒ"), ('ẖ', "H̱"),
   ('ẗ', "T̈"), ('ẘ', "W̊"), ('ẙ', "Y̊"), ('ẚ', "Aʾ"), ('ὐ', "Υ̓"), ('ὒ', "Υ̓̀"), ('ὔ', "Υ̓́"),
   ('ὖ', "Υ̓͂"), ('ᾲ', "ᾺΙ"), ('ᾳ', "ΑΙ"), ('ᾴ', "ΆΙ"), ('ᾶ', "Α͂"), ('ᾷ', "Α͂Ι"), ('ᾼ', "ΑΙ"),
   ('ῂ', "ῊΙ"), ('ῃ', "ΗΙ"), ('ῄ', "ΉΙ"), ('ῆ', "Η͂"), ('ῇ', "Η͂Ι"), ('ῌ', "ΗΙ"), ('ῒ', "Ϊ̀"),
   ('ΐ', "Ϊ́"), ('ῖ', "Ι͂"), ('ῗ', "Ϊ͂"), ('ῢ', "Ϋ̀"), ('ΰ', "Ϋ́"), ('ῤ', "Ρ̓"), ('ῦ', "Υ͂"),
   ('ῧ', "Ϋ͂"), ('ῲ', "ῺΙ"), ('ῳ', "ΩΙ"), ('ῴ', "ΏΙ"), ('ῶ', "Ω͂"), ('ῷ', "Ω͂Ι"), ('ῼ', "ΩΙ"),
   ('ﬀ', "FF"), ('ﬁ', "FI"), ('ﬂ', "FL"), ('ﬃ', "FFI"), ('ﬄ', "FFL"), ('ﬅ', "ST"), ('ﬆ', "ST"),
   ('ﬓ', "ՄՆ"), ('ﬔ', "ՄԵ"), ('ﬕ', "ՄԻ"), ('ﬖ', "ՎՆ"), ('ﬗ', "ՄԽ")] ++
    iotaRows.flatMap fun row => (List.range 8).map fun i =>
      (Char.ofNat (row.1 + i), String.ofList [Char.ofNat (row.2 + i), 'Ι'])

def upperOf (c : Char) : List Char :=
  if c.toNat < 128 then [c.toUpper]
  else match upperExpansions.lookup c with
    | some s => s.toList
    | none => [Char.ofNat (moveBy (letterPairs ++ upperRuns) c.toNat)]

/-- The lower case of a character, apart from its place in a word. -/
def lowerOf (c : Char) : List Char :=
  if c.toNat < 128 then [c.toLower]
  else if c.toNat == 0x130 then [Char.ofNat 0x69, Char.ofNat 0x307]
  else [Char.ofNat (moveBy (letterPairs.map CaseRun.back ++ lowerRuns) c.toNat)]

/-- A letter for the purpose of word ends: it has another case. -/
def isCased (c : Char) : Bool := upperOf c != [c] || lowerOf c != [c]

/-- The capital sigma is a final sigma after a letter and not before one. -/
private def lowerWalk (afterLetter : Bool) : List Char → List Char
  | [] => []
  | c :: rest =>
    let low :=
      if c.toNat == 0x3A3 then
        if afterLetter && !(rest.head?.map isCased).getD false then [Char.ofNat 0x3C2]
        else [Char.ofNat 0x3C3]
      else lowerOf c
    low ++ lowerWalk (isCased c) rest

def upper (s : String) : String := String.ofList (s.toList.flatMap upperOf)

def lower (s : String) : String := String.ofList (lowerWalk false s.toList)

end ScriptLang.Text
