import ScriptLang.Proofs.Parse.Expr

/-!
# Escaped texts

A text is written in a string by putting a backslash before each of its backslashes and double
quotes. Decoding takes the backslashes away again, but it works on the bytes of the encoding, each
of which it reads as a character of its own. So the text comes back as it was if all its characters
are ASCII, and a text with any other character comes back longer.
-/

namespace ScriptLang

namespace Text

def escapeChar (c : Char) : List Char := if c = '\\' ∨ c = '"' then ['\\', c] else [c]

def escape (s : String) : String := String.ofList (s.toList.flatMap escapeChar)

/-- The bytes of a text, each read as a character. -/
def byteText (s : String) : String := String.ofList ((bytes s).map Char.ofNat)

/-! ### Bytes of characters -/

theorem charBytes_of_lt {c : Char} (h : c.toNat < 0x80) : charBytes c = [c.toNat] := by
  simp [charBytes, h]

theorem le_of_mem_charBytes {c : Char} (h : ¬ c.toNat < 0x80) {b : Nat} (hb : b ∈ charBytes c) :
    0x80 ≤ b := by
  simp only [charBytes, h, if_false] at hb
  split at hb
  · simp only [List.mem_cons, List.not_mem_nil, or_false] at hb
    omega
  · split at hb <;> simp only [List.mem_cons, List.not_mem_nil, or_false] at hb <;> omega

/-- A character has at least one byte, and only an ASCII character has no other. -/
theorem length_charBytes (c : Char) :
    1 ≤ (charBytes c).length ∧ ((charBytes c).length = 1 ↔ c.toNat < 0x80) := by
  by_cases h : c.toNat < 0x80
  · simp [charBytes_of_lt h, h]
  · simp only [charBytes, h, if_false]
    split
    · simp
    · split <;> simp

/-- No byte of a character other than the backslash is one. -/
theorem ne_of_mem_charBytes {c : Char} (hc : c ≠ '\\') {b : Nat} (hb : b ∈ charBytes c) :
    b ≠ 0x5c := by
  by_cases h : c.toNat < 0x80
  · rw [charBytes_of_lt h, List.mem_singleton] at hb
    rintro rfl
    exact hc (Char.toNat_inj.1 hb.symm)
  · have := le_of_mem_charBytes h hb
    omega

theorem length_le_length_bytes (cs : List Char) :
    cs.length ≤ (cs.flatMap charBytes).length := by
  induction cs with
  | nil => exact Nat.le_refl _
  | cons c cs ih =>
    have hc := (length_charBytes c).1
    simp only [List.flatMap_cons, List.length_append, List.length_cons]
    omega

/-- A text has as many bytes as characters exactly if it is plain ASCII. -/
theorem length_bytes_eq_iff (cs : List Char) :
    (cs.flatMap charBytes).length = cs.length ↔ ∀ c ∈ cs, c.toNat < 0x80 := by
  induction cs with
  | nil => simp
  | cons c cs ih =>
    obtain ⟨hpos, hone⟩ := length_charBytes c
    have hle := length_le_length_bytes cs
    rw [List.forall_mem_cons, ← ih, ← hone, List.flatMap_cons, List.length_append,
      List.length_cons]
    omega

/-- The bytes of a text are its characters exactly if these are ASCII characters. -/
theorem byteText_eq_self_iff (s : String) : byteText s = s ↔ ∀ c ∈ s.toList, c.toNat < 0x80 := by
  constructor
  · intro h
    have hlen := congrArg (fun t => t.toList.length) h
    simp only [byteText, bytes, String.toList_ofList, List.length_map] at hlen
    exact (length_bytes_eq_iff _).1 hlen
  · intro h
    have hbytes (cs : List Char) (hcs : ∀ c ∈ cs, c.toNat < 0x80) :
        (cs.flatMap charBytes).map Char.ofNat = cs := by
      induction cs with
      | nil => rfl
      | cons c cs ih =>
        rw [List.forall_mem_cons] at hcs
        rw [List.flatMap_cons, charBytes_of_lt hcs.1, List.singleton_append, List.map_cons,
          Char.ofNat_toNat, ih hcs.2]
    rw [byteText, bytes, hbytes _ h, String.ofList_toList]

/-! ### Decoding -/

/-- Bytes that are no backslashes stand for themselves. -/
theorem unescapeFrom_append {bs : List Nat} (h : ∀ b ∈ bs, b ≠ 0x5c) (pos : Nat)
    (rest : List Nat) : unescapeFrom pos 0 (bs ++ rest) =
      (unescapeFrom (pos + bs.length) 0 rest).map (bs ++ ·) := by
  induction bs generalizing pos with
  | nil =>
    rw [List.nil_append, List.length_nil, Nat.add_zero]
    cases unescapeFrom pos 0 rest <;> rfl
  | cons b bs ih =>
    rw [List.forall_mem_cons] at h
    rw [List.cons_append, unescapeFrom, if_neg (by simpa using h.1), ih h.2, List.length_cons,
      Nat.add_right_comm, Nat.add_assoc]
    cases unescapeFrom (pos + (bs.length + 1)) 0 rest <;> rfl

/-- A backslash before a backslash or a quote is dropped. -/
theorem unescapeFrom_escaped {b : Nat} (h : b = 0x5c ∨ b = 0x22) (pos : Nat) (rest : List Nat) :
    unescapeFrom pos 0 (0x5c :: b :: rest) = (unescapeFrom (pos + 2) 0 rest).map ([b] ++ ·) := by
  obtain rfl | rfl := h <;> rfl

/-- By induction on the characters: each is written as one escape or as its bytes. -/
theorem unescapeFrom_escape (cs : List Char) (pos : Nat) :
    unescapeFrom pos 0 ((cs.flatMap escapeChar).flatMap charBytes) =
      .ok (cs.flatMap charBytes) := by
  induction cs generalizing pos with
  | nil => rfl
  | cons c cs ih =>
    rw [List.flatMap_cons, List.flatMap_append, List.flatMap_cons]
    by_cases hc : c = '\\' ∨ c = '"'
    · have hb : c.toNat = 0x5c ∨ c.toNat = 0x22 := hc.imp (congrArg _) (congrArg _)
      have hbytes : (escapeChar c).flatMap charBytes = [0x5c, c.toNat] := by
        obtain rfl | rfl := hc <;> rfl
      rw [hbytes, List.cons_append, List.singleton_append, unescapeFrom_escaped hb, ih,
        charBytes_of_lt (by omega)]
      rfl
    · have hbytes : (escapeChar c).flatMap charBytes = charBytes c := by simp [escapeChar, hc]
      rw [hbytes, unescapeFrom_append fun b hb => ne_of_mem_charBytes (fun h => hc (.inl h)) hb, ih]
      rfl

/-- A written text is read back as its bytes, each as a character of its own. -/
theorem unescapeText_escape (s : String) : unescapeText (escape s) = .ok (byteText s) := by
  rw [unescapeText, unescape, bytes, escape, String.toList_ofList, unescapeFrom_escape]
  rfl

end Text

namespace Parse

open Grammar

/-! ### String tokens -/

/-- What is written between the quotes of a string and of a key, if it does not start with a
quote. -/
theorem body_quoted {s : String} (h : s.toList.head? ≠ some '"') :
    stringBody ("\"" ++ s ++ "\"") = s ∧ keyBody ("\"" ++ s ++ "\"") = s := by
  have hchars : ("\"" ++ s ++ "\"").toList = '"' :: (s.toList ++ ['"']) := by simp
  have hwidth : (Text.startsWith ("\"" ++ s ++ "\"") "\"\"\"" ||
      Text.startsWith ("\"" ++ s ++ "\"") "'''") = false := by
    rw [Text.startsWith, Text.startsWith, hchars]
    cases hs : s.toList with
    | nil => rfl
    | cons c cs =>
      have hc : ('"' == c) = false := by
        rw [hs] at h
        exact beq_false_of_ne fun hq => h (congrArg some hq.symm)
      simp [List.isPrefixOf, hc]
  have hbody : (('"' :: (s.toList ++ ['"'])).drop 1).take
      (('"' :: (s.toList ++ ['"'])).length - 2) = s.toList := by simp
  constructor
  · rw [stringBody, hchars, hwidth]
    exact (congrArg String.ofList hbody).trans String.ofList_toList
  · rw [keyBody, hchars]
    exact (congrArg String.ofList hbody).trans String.ofList_toList

/-- A written text does not start with a bare quote. -/
theorem head?_escape (s : String) : (Text.escape s).toList.head? ≠ some '"' := by
  rw [Text.escape, String.toList_ofList]
  cases s.toList with
  | nil => exact nofun
  | cons c cs =>
    rw [List.flatMap_cons, Text.escapeChar]
    split
    · exact nofun
    · next hc => exact fun h => hc (.inr (Option.some.inj h))

end Parse

open Grammar Parse in
/-- What an escaped text is decoded to, on its own, as a string and as a key of a dictionary: the
bytes of the text. This is the text itself exactly if all its characters are ASCII. -/
theorem decode_escaped (s : String) (line n : Nat) (previous : Option String) :
    let token : Token := ⟨.string, "\"" ++ Text.escape s ++ "\"", line⟩
    Text.unescapeText (Text.escape s) = .ok (Text.byteText s) ∧
    (Parse.expr false (n + 2)).run [token] = .ok (.text (Text.byteText s), []) ∧
    (dictKey false previous).run [token] = .ok (some (Text.byteText s), []) ∧
    (Text.byteText s = s ↔ ∀ c ∈ s.toList, c.toNat < 0x80) := by
  intro token
  obtain ⟨hstring, hkey⟩ := body_quoted (head?_escape s)
  have hdecoded := Text.unescapeText_escape s
  refine ⟨hdecoded, ?_, ?_, Text.byteText_eq_self_iff s⟩
  · have hprimary : Primary Expr [token] (.text (Text.byteText s)) :=
      .text (.inl rfl) (by rw [hstring, hdecoded])
    have hrun : (Parse.expr false (n + 2)).run ([token] ++ []) =
        .ok (.text (Text.byteText s), []) :=
      (reads_expr (n + 2)).complete (by simp) (level_of_primary hprimary 0) (by simp [Stops])
    exact hrun
  · exact run_dictKey_eq_ok.2 ⟨token, _, rfl, .text (.inl rfl) (by rw [hkey, hdecoded]), rfl⟩

example : Text.byteText "é\"" = "Ã©\"" := by decide

end ScriptLang
