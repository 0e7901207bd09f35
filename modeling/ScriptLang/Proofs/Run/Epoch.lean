import Mathlib.Data.Nat.Log
import Mathlib.Tactic.IntervalCases
import Mathlib.Tactic.Linarith
import Mathlib.Tactic.Ring
import ScriptLang.Proofs.Run.Basic
import ScriptLang.Run.Interpreter

/-!
# Moments as texts and back

A moment is decoded from its binary text exactly, but it is encoded through doubles: its seconds are
rounded, their product with a thousand is rounded, and the fraction is cut off. Where the first
rounding goes down by more than the second one makes up for, a millisecond is lost.
-/

namespace ScriptLang

namespace Number

/-! ### Binary texts -/

def IsBinary (cs : List Char) : Prop := ∀ c ∈ cs, c = '0' ∨ c = '1'

theorem isBinary_toDigits (n : Nat) : IsBinary (Nat.toDigits 2 n) := by
  have hdigit (k : Nat) (hk : k < 2) : IsBinary [k.digitChar] := by
    interval_cases k <;> simp [IsBinary]
  induction n using Nat.strongRecOn with
  | ind n ih =>
    rw [Nat.toDigits_eq_if Nat.one_lt_two]
    split_ifs with h
    · exact hdigit n h
    · exact List.forall_mem_append.2 ⟨ih (n / 2) (by omega), hdigit _ (Nat.mod_lt n Nat.two_pos)⟩

theorem digitsFrom?_binary {cs : List Char} (h : IsBinary cs) {fresh : Bool}
    (hne : fresh = true → cs ≠ []) :
    digitsFrom? 2 fresh cs = some (cs.map fun c => c.toNat - '0'.toNat) := by
  induction cs generalizing fresh with
  | nil =>
    have hfresh : fresh = false := by simpa using hne
    rw [hfresh]
    rfl
  | cons c cs ih =>
    obtain ⟨hc, hcs⟩ := List.forall_mem_cons.1 h
    have hrest : digitsFrom? 2 false cs = _ := ih hcs nofun
    have hdigit : (c == '_') = false ∧ digitOf? 2 c = some (c.toNat - '0'.toNat) := by
      rcases hc with rfl | rfl <;> exact ⟨rfl, rfl⟩
    rw [digitsFrom?, hdigit.1, hdigit.2, hrest]
    rfl

/-- A binary text is read as the number that its digits write. -/
theorem readInt_binary {cs : List Char} (h : IsBinary cs) (hne : cs ≠ []) (shown : String) :
    readInt 2 (String.ofList cs) shown = .ok (Nat.ofDigitChars 2 cs 0 : Nat) := by
  have hfirst {cs : List Char} (h : IsBinary cs) :
      cs.dropWhile Text.isBlank = cs ∧ signed cs = (false, cs) := by
    cases cs with
    | nil => exact ⟨rfl, rfl⟩
    | cons c cs => rcases h c List.mem_cons_self with rfl | rfl <;> exact ⟨rfl, rfl⟩
  have htrim : Text.trimWhere Text.isBlank cs = cs := by
    rw [Text.trimWhere, (hfirst h).1, (hfirst fun c hc => h c (List.mem_reverse.1 hc)).1,
      List.reverse_reverse]
  have hmark (c : Char) (hc : c ∈ cs) : (baseMark 2).contains c = false := by
    rcases h c hc with rfl | rfl <;> rfl
  have hunmarked : unmarked 2 cs = cs := by
    unfold unmarked
    split
    · rw [hmark _ (by simp)]
      rfl
    · rw [hmark _ (by simp)]
      rfl
    · rfl
  rw [readInt, String.toList_ofList, htrim, (hfirst h).2]
  dsimp only
  rw [hunmarked, digitsFrom?_binary h fun _ => hne]
  simp [isPowerOfTwo, List.foldl_map, Nat.ofDigitChars_eq_foldl, Nat.mul_comm]

/-- A number in binary is read back from its text. -/
theorem readInt_binaryText (width n : Nat) (shown : String) :
    readInt 2 (Moment.binaryText width n) shown = .ok n := by
  have hzeros (k : Nat) : IsBinary (List.replicate k '0') :=
    fun c hc => .inl (List.eq_of_mem_replicate hc)
  rw [Moment.binaryText, if_neg (Int.not_lt.2 (Int.natCast_nonneg n)), Int.natAbs_natCast,
    List.nil_append, readInt_binary (List.forall_mem_append.2 ⟨hzeros _, isBinary_toDigits n⟩)
      (by simp [Nat.toDigits_ne_nil])]
  simp [Nat.ofDigitChars_append, Nat.ofDigitChars_replicate_zero, Nat.ofDigitChars_toDigits]

/-! ### Rounding -/

variable {c num den e : Nat}

/-- A rounded quotient is off by half a unit at most. -/
theorem roundDiv_near (num : Nat) (hden : 0 < den) :
    2 * num ≤ 2 * (roundDiv num den * den) + den ∧
      2 * (roundDiv num den * den) ≤ 2 * num + den := by
  have hnum := Nat.div_add_mod' num den
  have hrest := Nat.mod_lt num hden
  rw [roundDiv]
  split_ifs
  · omega
  · rw [Nat.add_mul]
    omega
  · rcases Nat.mod_two_eq_zero_or_one (num / den) with h | h <;> rw [h, Nat.add_mul] <;> omega

/-- A rounded quotient reaches an even number from half a unit below it on. -/
theorem le_roundDiv_iff (hc : c % 2 = 0) (hden : 0 < den) :
    c ≤ roundDiv num den ↔ 2 * (c * den) ≤ 2 * num + den := by
  have hnum := Nat.div_add_mod' num den
  have hrest := Nat.mod_lt num hden
  rw [roundDiv]
  obtain h | h | h : c ≤ num / den ∨ c = num / den + 1 ∨ num / den + 2 ≤ c := by omega
  · have hle := Nat.mul_le_mul_right den h
    split_ifs <;> omega
  · rw [h, Nat.add_mul]
    split_ifs <;> omega
  · have hle := Nat.mul_le_mul_right den h
    rw [Nat.add_mul] at hle
    split_ifs <;> omega

theorem log2_mul_pow (hnum : num ≠ 0) (k : Nat) : (num * 2 ^ k).log2 = num.log2 + k := by
  induction k with
  | zero => simp
  | succ k ih => rw [Nat.pow_succ', Nat.mul_left_comm, Nat.log2_two_mul (by positivity), ih]; rfl

theorem scaled_neg (num den : Nat) (he : 0 < e) :
    scaled num den (-(e : Int)) = (num * 2 ^ e, den) := by
  rw [scaled, if_neg (by omega), Int.neg_neg, Int.toNat_natCast]
  rfl

/-- The exponent is the one at which the mantissa has 53 digits. -/
theorem exponentOf_eq (hnum : num ≠ 0) (hden : 0 < den) (hpos : 0 < e) (he : e ≤ 1074)
    (hlow : den * 2 ^ 52 ≤ num * 2 ^ e) (hhigh : num * 2 ^ e < den * 2 ^ 53) :
    exponentOf num den = -(e : Int) := by
  have hlogs := Nat.log_mono_right (b := 2) hlow
  have hlogs' := Nat.log_mono_right (b := 2) hhigh.le
  simp only [← Nat.log2_eq_log_two, log2_mul_pow hnum, log2_mul_pow hden.ne'] at hlogs hlogs'
  rw [exponentOf]
  obtain h | h : (num.log2 : Int) - den.log2 - 53 = -(e : Int) ∨
      (num.log2 : Int) - den.log2 - 53 = -((e + 1 : Nat) : Int) := by omega
  · have hsmall : num * 2 ^ e / den < Nat.pow 2 53 := Nat.div_lt_of_lt_mul hhigh
    simp only [h, scaled_neg num den hpos, if_pos hsmall]
    omega
  · have hlarge : ¬ num * 2 ^ (e + 1) / den < Nat.pow 2 53 := by
      rw [Nat.div_lt_iff_lt_mul hden, Nat.pow_succ, ← Nat.mul_assoc, Nat.pow_eq]
      omega
    simp only [h, scaled_neg num den (Nat.succ_pos e), if_neg hlarge]
    omega

/-- The double nearest to a ratio that is not rounded up to the next power of two. -/
theorem ratio_nearest (negative : Bool) (hden : 0 < den) (hpos : 0 < e) (he : e ≤ 1074)
    (hlow : den * 2 ^ 52 ≤ num * 2 ^ e) (hhigh : num * 2 ^ e + den ≤ den * 2 ^ 53) :
    (nearest negative num den).ratio? = some (negative, roundDiv (num * 2 ^ e) den, 2 ^ e) := by
  have hnum : num ≠ 0 := by
    rintro rfl
    omega
  have hsmall : roundDiv (num * 2 ^ e) den ≠ Nat.pow 2 53 := fun h => by
    have hle := (le_roundDiv_iff (by rfl) hden).1 h.ge
    rw [Nat.pow_eq] at hle
    omega
  have hnearest : nearest negative num den =
      .finite negative (roundDiv (num * 2 ^ e) den) (-(e : Int)) := by
    simp only [nearest, exponentOf_eq hnum hden hpos he hlow (by omega), scaled_neg num den hpos,
      beq_iff_eq, if_neg hnum, if_neg hsmall]
    exact if_neg (by omega)
  rw [hnearest, Parts.ratio?, if_neg (by omega), Int.neg_neg, Int.toNat_natCast]
  rfl

end Number

namespace Moment

open Number

variable {n e : Nat}

/-! ### Milliseconds through seconds -/

/-- The milliseconds of a moment, by the mantissa `m` of its seconds: the product with a thousand is
rounded to steps `2 ^ s` times as large. -/
theorem exists_epochMillis_eq (he : e ≤ 1074) (hlow : 1000 * 2 ^ 52 ≤ n * 2 ^ e)
    (hhigh : n * 2 ^ e + 1000 ≤ 1000 * 2 ^ 53) :
    ∃ m, n * 2 ^ e ≤ 1000 * m + 500 ∧ 1000 * m ≤ n * 2 ^ e + 500 ∧
      ∀ {f s}, f + s = e → 0 < f → 2 ^ s * 2 ^ 52 ≤ 1000 * m → 1000 * m + 2 ^ s ≤ 2 ^ s * 2 ^ 53 →
        ∃ k : Nat, epochMillis ⟨epochBase + 1000 * n, true⟩ = k ∧
          ∀ c, c ≤ k ↔ 2 * (c * 2 ^ e) ≤ 2 * (1000 * m) + 2 ^ s := by
  obtain ⟨hnear, hnear'⟩ := roundDiv_near (1000 * n * 2 ^ e) (by omega : 0 < 1000000)
  refine ⟨roundDiv (1000 * n * 2 ^ e) 1000000, by linarith, by linarith, ?_⟩
  intro f s hfs hf hlow' hhigh'
  have hseconds : (nearest false (1000 * n) 1000000).ratio? = _ :=
    ratio_nearest false (by omega) (by omega) he (by linarith) (by linarith)
  generalize roundDiv (1000 * n * 2 ^ e) 1000000 = m at *
  have hunit := Nat.two_pow_pos f
  have hsplit : 2 ^ e = 2 ^ f * 2 ^ s := by rw [← hfs, Nat.pow_add]
  have hproduct : (nearest false (m * 1000) (2 ^ e)).ratio? = _ :=
    ratio_nearest false (Nat.two_pow_pos e) hf (by omega)
      (by rw [hsplit]; linarith [Nat.mul_le_mul_left (2 ^ f) hlow'])
      (by rw [hsplit]; linarith [Nat.mul_le_mul_left (2 ^ f) hhigh'])
  refine ⟨roundDiv (m * 1000 * 2 ^ f) (2 ^ e) / 2 ^ f, ?_, fun c => ?_⟩
  · have hmicros : ((epochBase + 1000 * n : Nat) : Int) - epochBase = (1000 * n : Nat) := by omega
    simp only [epochMillis, hmicros, Int.natAbs_natCast, Int.natCast_nonneg, Int.not_lt.2,
      decide_false, hseconds, Option.bind_some, hproduct]
    rfl
  · have heven : c * 2 ^ f % 2 = 0 :=
      Nat.mod_eq_zero_of_dvd (Dvd.dvd.mul_left (dvd_pow_self 2 hf.ne') c)
    rw [Nat.le_div_iff_mul_le hunit, le_roundDiv_iff heven (Nat.two_pow_pos e), hsplit]
    calc
      _ ↔ 2 ^ f * (2 * (c * (2 ^ f * 2 ^ s))) ≤ 2 ^ f * (2 * (1000 * m) + 2 ^ s) := by ring_nf
      _ ↔ _ := Nat.mul_le_mul_left_iff hunit

/-- At the scale `2 ^ e` the seconds have their 53 digits and are rounded down by more than half a
step of the product. -/
def LosesAt (n e : Nat) : Prop :=
  1000 * 2 ^ 52 ≤ n * 2 ^ e ∧ n * 2 ^ e < 1024 * 2 ^ 52 ∧
    256 < n * 2 ^ e % 1000 ∧ n * 2 ^ e % 1000 < 500

instance (n e : Nat) : Decidable (LosesAt n e) := inferInstanceAs (Decidable (_ ∧ _))

/-- The moments whose last millisecond is lost. -/
def LosesMilli (n : Nat) : Prop := ∃ e, LosesAt n e

/-- At each scale the milliseconds come out right or one too small, as the rounding falls. -/
theorem epochMillis_of_scale (hn : n < 2 ^ 48) (hlow : 1000 * 2 ^ 52 ≤ n * 2 ^ e)
    (hhigh : n * 2 ^ e < 1000 * 2 ^ 53) :
    epochMillis ⟨epochBase + 1000 * n, true⟩ = (if LosesAt n e then n - 1 else n : Nat) := by
  have he : 14 ≤ e := by
    by_contra h
    have hle : n * 2 ^ e ≤ n * 2 ^ 13 :=
      Nat.mul_le_mul_left n (Nat.pow_le_pow_right Nat.two_pos (by omega))
    omega
  have he' : e ≤ 62 := by
    by_contra h
    have hle : 1 * 2 ^ 63 ≤ n * 2 ^ e :=
      Nat.mul_le_mul (Nat.pos_of_ne_zero fun h => by simp [h] at hlow)
        (Nat.pow_le_pow_right Nat.two_pos (by omega))
    omega
  have hunit : 16384 ≤ 2 ^ e := Nat.pow_le_pow_right Nat.two_pos he
  -- a multiple of so large a power of two is neither close to the next one nor halfway
  have hmod : n * 2 ^ e % 16384 = 0 :=
    Nat.mod_eq_zero_of_dvd (Dvd.dvd.mul_left (Nat.pow_dvd_pow 2 he) n)
  have hup : (n + 1) * 2 ^ e = n * 2 ^ e + 2 ^ e := Nat.succ_mul ..
  have hdown : (n - 1) * 2 ^ e = n * 2 ^ e - 2 ^ e := Nat.sub_one_mul ..
  obtain ⟨m, hnear, hnear', hmillis⟩ := exists_epochMillis_eq (by omega) hlow (by omega)
  have hround : m = n * 2 ^ e / 1000 ∨ m = n * 2 ^ e / 1000 + 1 := by omega
  rcases Nat.lt_or_ge (n * 2 ^ e) (1024 * 2 ^ 52) with hfine | hcoarse
  · obtain ⟨k, hk, hle⟩ := hmillis (s := 9) (Nat.sub_add_cancel (by omega)) (by omega) (by omega)
      (by omega)
    have hself := hle n
    have hnext := hle (n + 1)
    have hprevious := hle (n - 1)
    rw [hk]
    split_ifs with h <;> simp only [LosesAt] at h <;> omega
  · obtain ⟨k, hk, hle⟩ := hmillis (s := 10) (Nat.sub_add_cancel (by omega)) (by omega) (by omega)
      (by omega)
    have hself := hle n
    have hnext := hle (n + 1)
    rw [hk, if_neg fun h => absurd h.2.1 (Nat.not_lt.2 hcoarse)]
    omega

/-- Some scale fits the seconds. -/
theorem exists_scale (hpos : 0 < n) (hn : n < 2 ^ 48) :
    ∃ e, 1000 * 2 ^ 52 ≤ n * 2 ^ e ∧ n * 2 ^ e < 1000 * 2 ^ 53 := by
  obtain ⟨e, hlow, hleast⟩ := Nat.findX (⟨62, by omega⟩ : ∃ e, 1000 * 2 ^ 52 ≤ n * 2 ^ e)
  cases e with
  | zero => omega
  | succ e =>
    have hless := hleast e (Nat.lt_succ_self e)
    refine ⟨e + 1, hlow, ?_⟩
    rw [Nat.pow_succ, ← Nat.mul_assoc]
    omega

/-- Milliseconds come back from seconds, but for the one that may be lost. -/
theorem epochMillis_eq (hn : n < 2 ^ 48) :
    (LosesMilli n → epochMillis ⟨epochBase + 1000 * n, true⟩ = (n - 1 : Nat)) ∧
      (¬ LosesMilli n → epochMillis ⟨epochBase + 1000 * n, true⟩ = n) := by
  refine ⟨fun ⟨e, he⟩ => ?_, fun hkept => ?_⟩
  · rw [epochMillis_of_scale hn he.1 (by have := he.2.1; omega), if_pos he]
  · rcases Nat.eq_zero_or_pos n with rfl | hpos
    · decide +kernel
    · obtain ⟨e, hlow, hhigh⟩ := exists_scale hpos hn
      rw [epochMillis_of_scale hn hlow hhigh, if_neg fun he => hkept ⟨e, he⟩]

/-- Milliseconds whose moment can be shown are below `2 ^ 48`. -/
theorem ofEpochMillis_eq (h : epochBase + 1000 * n < limit) :
    n < 2 ^ 48 ∧ ofEpochMillis n = .ok ⟨epochBase + 1000 * n, true⟩ := by
  have hbase : epochBase = 63082281600000000 := rfl
  have hlimit : limit = 315537897600000000 := rfl
  have hdays : Int.fdiv (n * 1000) dayMicros = n * 1000 / 86400000000 :=
    Int.fdiv_eq_ediv_of_nonneg _ (Int.natCast_nonneg _)
  simp only [ofEpochMillis, hdays, hbase, hlimit, Nat.pow_eq] at h ⊢
  clear hbase hlimit hdays
  refine ⟨by omega, ?_⟩
  rw [if_neg, if_neg, if_neg]
  · congr 2
    omega
  · simp only [Bool.or_eq_true, decide_eq_true_eq]
    omega
  · omega
  · simp only [Bool.or_eq_true, decide_eq_true_eq]
    omega

end Moment

namespace Exec

open Moment

def recodeEpoch (g : Engine) (f : Builtin) (s : String) : Exec Value := do
  let moment ← applyBuiltin g .epochMoment [.text s] []
  applyBuiltin g f [moment] []

theorem run_epochMoment {s : String} {n : Int} {moment : Moment}
    (hn : Number.readInt 2 s (Text.quote s) = .ok n) (hmoment : ofEpochMillis n = .ok moment)
    (g : Engine) (m : Machine) :
    (applyBuiltin g .epochMoment [.text s] []).run m = (.ok (.moment moment), m) := by
  have happly : applyBuiltin g .epochMoment [.text s] [] = liftM (decodeEpoch (.text s)) := rfl
  have hread : toIntegerIn (.text s) (.int 2) =
      ofExcept (Number.readInt 2 s (Text.quote s)) := by
    rw [toIntegerIn]
    rfl
  have hdecode : (decodeEpoch (.text s)).run m.toHost = (.ok (.moment moment), m.toHost) := by
    rw [decodeEpoch, hread, hn]
    change (Value.moment <$> ofExcept (ofEpochMillis n) : HostExec Value).run m.toHost = _
    rw [hmoment]
    rfl
  rw [happly, run_host_of_ok hdecode]

/-- A text comes back from its moment exactly if the moment keeps its last millisecond, at both
widths; otherwise the text is that of the millisecond before. -/
theorem recodeEpoch_iff {n : Nat} (h : epochBase + 1000 * n < limit) {f : Builtin} {width : Nat}
    (hf : (f, width) ∈ [(Builtin.epoch48, 48), (.epoch64, 64)]) (g : Engine) (m : Machine) :
    (LosesMilli n → (recodeEpoch g f (binaryText width n)).run m =
      (.ok (.text (binaryText width (n - 1 : Nat))), m)) ∧
    ((recodeEpoch g f (binaryText width n)).run m = (.ok (.text (binaryText width n)), m) ↔
      ¬ LosesMilli n) := by
  obtain ⟨hn, hmoment⟩ := ofEpochMillis_eq h
  obtain ⟨hlost, hkept⟩ := epochMillis_eq hn
  have hrun : (recodeEpoch g f (binaryText width n)).run m =
      (.ok (.text (binaryText width (epochMillis ⟨epochBase + 1000 * n, true⟩))), m) := by
    rw [recodeEpoch, run_bind, run_epochMoment (Number.readInt_binaryText width n _) hmoment]
    simp only [List.mem_cons, Prod.mk.injEq, List.not_mem_nil, or_false] at hf
    rcases hf with ⟨rfl, rfl⟩ | ⟨rfl, rfl⟩ <;> rfl
  by_cases hloses : LosesMilli n
  · rw [hrun, hlost hloses]
    refine ⟨fun _ => rfl, iff_of_false (fun hsame => ?_) (not_not_intro hloses)⟩
    have hread := Number.readInt_binaryText width (n - 1) ""
    rw [Value.text.inj (Except.ok.inj (Prod.mk.inj hsame).1), Number.readInt_binaryText,
      Except.ok.injEq, Int.natCast_inj] at hread
    obtain ⟨e, hlow, -⟩ := hloses
    obtain rfl : n = 0 := by omega
    omega
  · rw [hrun, hkept hloses]
    exact ⟨(absurd · hloses), iff_of_true rfl hloses⟩

/-- The moment that is 1001 milliseconds after the epoch comes back as 1000. -/
theorem recodeEpoch_loses_millisecond :
    (epochBase + 1000 * 1001 < limit ∧ LosesMilli 1001) ∧
      (recodeEpoch (Engine.ofDepth 1) .epoch64 (binaryText 64 1001)).run default =
        (.ok (.text (binaryText 64 1000)), default) := by
  have hloses : LosesMilli 1001 := ⟨52, by decide⟩
  exact ⟨⟨by decide, hloses⟩, (recodeEpoch_iff (n := 1001) (by decide) (by simp) _ _).1 hloses⟩

end Exec

end ScriptLang
