import Mathlib.Tactic.SplitIfs
import ScriptLang.Text.Utf8

/-!
# Reading what was written after other bytes

Bytes of a text are read back as that text. If the text starts with an ASCII character, this holds
after any other bytes too, for such a character ends whatever stands before it.
-/

namespace ScriptLang.Text

variable {stray : Nat → List Char}

theorem isTail_eq_false {a : Nat} (ha : a < 0x80) : isTail a = false := by
  simp only [isTail, Bool.and_eq_false_iff, decide_eq_false_iff_not]
  omega

/-- An ASCII byte takes no part in a character that starts before it. -/
theorem headChar?_append (b : Nat) (bs : List Nat) {a : Nat} (ha : a < 0x80) (rest : List Nat) :
    headChar? (b :: (bs ++ a :: rest)) = headChar? (b :: bs) := by
  have htail := isTail_eq_false ha
  rcases bs with _ | ⟨c, _ | ⟨d, _ | ⟨e, bs⟩⟩⟩
  · rcases rest with _ | ⟨_, _ | ⟨_, _⟩⟩ <;> simp [headChar?, htail]
  · rcases rest with _ | ⟨_, _⟩ <;> simp [headChar?, htail]
  · simp [headChar?, htail]
  · simp [headChar?]

/-- A character has no more bytes than there are. -/
theorem le_length_of_headChar? {b n : Nat} {bs : List Nat} {c : Char}
    (h : headChar? (b :: bs) = some (c, n)) : n ≤ bs.length := by
  rcases bs with _ | ⟨_, _ | ⟨_, _ | ⟨_, _⟩⟩⟩ <;> simp only [headChar?] at h <;> grind

theorem decodeFrom_cons (b : Nat) (bs : List Nat) :
    decodeFrom stray 0 (b :: bs) = match headChar? (b :: bs) with
      | some (c, n) => c :: decodeFrom stray n bs
      | none => stray b ++ decodeFrom stray 0 bs := rfl

/-- Bytes before an ASCII byte are read as if nothing came after them. -/
theorem decodeFrom_append {skip : Nat} {bs : List Nat} (hskip : skip ≤ bs.length) {a : Nat}
    (ha : a < 0x80) (rest : List Nat) :
    decodeFrom stray skip (bs ++ a :: rest) =
      decodeFrom stray skip bs ++ decodeFrom stray 0 (a :: rest) := by
  induction bs generalizing skip with
  | nil => simp_all [decodeFrom]
  | cons b bs ih =>
    cases skip with
    | succ skip => simpa only [List.cons_append, decodeFrom] using ih (by simpa using hskip)
    | zero =>
      rw [List.cons_append, decodeFrom_cons, decodeFrom_cons b bs, headChar?_append b bs ha rest]
      rcases h : headChar? (b :: bs) with _ | ⟨c, n⟩
      · simp only [ih (Nat.zero_le _), List.append_assoc]
      · simp only [ih (le_length_of_headChar? h), List.cons_append]

theorem decodeFrom_skip (stray : Nat → List Char) (bs rest : List Nat) :
    decodeFrom stray bs.length (bs ++ rest) = decodeFrom stray 0 rest := by
  induction bs with
  | nil => rfl
  | cons _ _ ih => simpa only [List.length_cons, List.cons_append, decodeFrom] using ih

/-- Two bytes that make a character are read as it. -/
theorem headChar?_two {b c : Nat} (hb : 0xc2 ≤ b ∧ b < 0xe0) (hc : 0x80 ≤ c ∧ c < 0xc0)
    (rest : List Nat) :
    headChar? (b :: c :: rest) = some (Char.ofNat ((b - 0xc0) * 0x40 + (c - 0x80)), 1) := by
  rw [headChar?.eq_def]
  dsimp only
  rw [if_neg (by omega), if_pos (by simp [isTail, hb, hc])]

theorem headChar?_three {b c d n : Nat} (hb : 0xe0 ≤ b ∧ b < 0xf0) (hc : 0x80 ≤ c ∧ c < 0xc0)
    (hd : 0x80 ≤ d ∧ d < 0xc0) (hn : n = (b - 0xe0) * 0x1000 + (c - 0x80) * 0x40 + (d - 0x80))
    (hscalar : 0x800 ≤ n ∧ (n < 0xd800 ∨ 0xe000 ≤ n)) (rest : List Nat) :
    headChar? (b :: c :: d :: rest) = some (Char.ofNat n, 2) := by
  rw [headChar?.eq_def]
  dsimp only
  rw [if_neg (by omega), if_neg (by simp; omega), ← hn,
    if_pos (by simp [isTail, hb, hc, hd]; omega)]

theorem headChar?_four {b c d e n : Nat} (hb : 0xf0 ≤ b ∧ b < 0xf5) (hc : 0x80 ≤ c ∧ c < 0xc0)
    (hd : 0x80 ≤ d ∧ d < 0xc0) (he : 0x80 ≤ e ∧ e < 0xc0)
    (hn : n = (b - 0xf0) * 0x40000 + (c - 0x80) * 0x1000 + (d - 0x80) * 0x40 + (e - 0x80))
    (hscalar : 0x10000 ≤ n ∧ n < 0x110000) (rest : List Nat) :
    headChar? (b :: c :: d :: e :: rest) = some (Char.ofNat n, 3) := by
  rw [headChar?.eq_def]
  dsimp only
  rw [if_neg (by omega), if_neg (by simp; omega), if_neg (by simp; omega), ← hn,
    if_pos (by simp [isTail, hb, hc, hd, he, hscalar])]

/-- A character is read from its own bytes. -/
theorem headChar?_charBytes (c : Char) (rest : List Nat) :
    headChar? (charBytes c ++ rest) = some (c, (charBytes c).length - 1) := by
  have hc : c.toNat < 0xd800 ∨ 0xdfff < c.toNat ∧ c.toNat < 0x110000 := c.valid
  have hread {n : Nat} (h : n = c.toNat) : Char.ofNat n = c := by rw [h, Char.ofNat_toNat]
  simp only [charBytes]
  split_ifs with h₁ h₂ h₃ <;> simp only [List.cons_append, List.nil_append]
  · simp [headChar?, h₁]
  · rw [headChar?_two (by omega) (by omega), hread (by omega)]
    rfl
  · rw [headChar?_three (by omega) (by omega) (by omega) (n := c.toNat) (by omega) (by omega),
      hread rfl]
    rfl
  · rw [headChar?_four (by omega) (by omega) (by omega) (by omega) (n := c.toNat) (by omega)
      (by omega), hread rfl]
    rfl

theorem charBytes_ne_nil (c : Char) : charBytes c ≠ [] := by
  simp only [charBytes]
  split_ifs <;> simp

/-- The bytes of characters are read as these characters. -/
theorem decodeFrom_flatMap_charBytes (stray : Nat → List Char) (cs : List Char) :
    decodeFrom stray 0 (cs.flatMap charBytes) = cs := by
  induction cs with
  | nil => rfl
  | cons c cs ih =>
    obtain ⟨b, bs, hbytes⟩ := List.exists_cons_of_ne_nil (charBytes_ne_nil c)
    have hhead := headChar?_charBytes c (cs.flatMap charBytes)
    rw [hbytes, List.cons_append, List.length_cons, Nat.add_sub_cancel] at hhead
    rw [List.flatMap_cons, hbytes, List.cons_append, decodeFrom_cons, hhead]
    simp only [decodeFrom_skip, ih]

/-- A text that starts with an ASCII character is read back after any bytes. -/
theorem toList_ofBytes_append {c : Char} (hc : c.toNat < 0x80) (bs : List Nat) (cs : List Char) :
    (ofBytes (bs ++ bytes (String.ofList (c :: cs)))).toList =
      (ofBytes bs).toList ++ c :: cs := by
  have hbytes : charBytes c = [c.toNat] := by simp only [charBytes, if_pos hc]
  have hread := decodeFrom_flatMap_charBytes (fun _ => []) (c :: cs)
  rw [List.flatMap_cons, hbytes, List.singleton_append] at hread
  simp only [ofBytes, bytes, String.toList_ofList, List.flatMap_cons, hbytes, List.singleton_append]
  rw [decodeFrom_append (Nat.zero_le _) hc, hread]

end ScriptLang.Text
