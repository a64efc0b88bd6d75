import Mathlib.Data.Rat.Floor
import Mathlib.Tactic.Positivity
import Mathlib.Tactic.FieldSimp
import Mathlib.Tactic.Linarith
import Mathlib.Tactic.Ring

/-!
# Double-precision numbers

A number in the binary64 format, by its bits: its exact value as a rational number, the conversion
of a natural number and of a quotient of two, which round to the nearest and on a tie to the even
one, and the least integer that is not below a number. A power of two is never rounded below itself
(`two_pow_le_value_ofNat`), and a natural number below `2 ^ 53` is not rounded at all
(`value_ofNat`).
-/

namespace Binary64

/-! ## The format -/

/-- The bits of the exponent. -/
def exponentBits (bits : UInt64) : Nat := bits.toNat / 2 ^ 52 % 2 ^ 11

/-- The bits of the fraction. -/
def fractionBits (bits : UInt64) : Nat := bits.toNat % 2 ^ 52

/-- The sign. -/
def negative (bits : UInt64) : Bool := 2 ^ 63 ≤ bits.toNat

/-- The number is neither infinite nor no number. -/
def isFinite (bits : UInt64) : Bool := exponentBits bits ≠ 2047

/-- It is no number. -/
def isNaN (bits : UInt64) : Bool := exponentBits bits = 2047 ∧ fractionBits bits ≠ 0

/-- A number is a multiple of `2 ^ -shift`. -/
def shift : Nat := 1075

/-- The magnitude of a finite number in units of `2 ^ -shift`. -/
def scaled (bits : UInt64) : Nat :=
  if exponentBits bits = 0 then fractionBits bits * 2
  else (2 ^ 52 + fractionBits bits) * 2 ^ exponentBits bits

/-- The exact value of a finite number. -/
def value (bits : UInt64) : ℚ :=
  if negative bits then -(scaled bits / 2 ^ shift) else scaled bits / 2 ^ shift

/-! ## Rounding -/

/-- The quotient rounded to the nearest natural number, and to an even one if two are as near. -/
def roundHalfEven (n d : Nat) : Nat :=
  if 2 * (n % d) < d ∨ 2 * (n % d) = d ∧ n / d % 2 = 0 then n / d else n / d + 1

/-- The positive number with this significand, between `2 ^ 52` and `2 ^ 53`, in units of `2 ^
-shift` to be multiplied by `2 ^ exponent`. -/
def encode (significand exponent : Nat) : UInt64 :=
  .ofNat (exponent * 2 ^ 52 + (significand - 2 ^ 52))

/-- A natural number. -/
def ofNat (n : Nat) : UInt64 :=
  if n = 0 then 0
  else if n.log2 ≤ 52 then encode (n * 2 ^ (52 - n.log2)) (n.log2 + 1023)
  else encode (roundHalfEven n (2 ^ (n.log2 - 52))) (n.log2 + 1023)

/-- An integer. -/
def ofInt : Int → UInt64
  | .ofNat n => ofNat n
  | .negSucc n => ofNat (n + 1) ||| 0x8000000000000000

/-- How far a quotient is shifted to have a significand of 53 bits. -/
def quotientShift (n d : Nat) : Nat :=
  let places := 52 + d.log2 - n.log2
  if n * 2 ^ places / d < 2 ^ 52 then places + 1 else places

/-- The quotient of two natural numbers. -/
def ofQuotient (n d : Nat) : UInt64 :=
  if n = 0 then 0
  else encode (roundHalfEven (n * 2 ^ quotientShift n d) d) (shift - quotientShift n d)

/-- The least integer that is not below a number, if that is positive, and 1 if that is less: as
much of it as 64 bits hold. -/
def ceilMaxOne (bits : UInt64) : Nat :=
  if isNaN bits ∨ negative bits then 1
  else if isFinite bits then min (max ((scaled bits + (2 ^ shift - 1)) / 2 ^ shift) 1) (2 ^ 64 - 1)
  else 2 ^ 64 - 1

/-! ## What is exact -/

/-- A quotient is not rounded below its floor, nor by more than one. -/
theorem roundHalfEven_mem (n d : Nat) :
    n / d ≤ roundHalfEven n d ∧ roundHalfEven n d ≤ n / d + 1 := by
  unfold roundHalfEven
  split
  · exact ⟨Nat.le_refl _, Nat.le_succ _⟩
  · exact ⟨Nat.le_succ _, Nat.le_refl _⟩

/-- The exponent and the fraction of a number that is put together. A significand of `2 ^ 53`
counts as `2 ^ 52` with the next exponent. -/
theorem scaled_encode {significand exponent : Nat} (hlow : 2 ^ 52 ≤ significand)
    (hhigh : significand ≤ 2 ^ 53) (hpos : 0 < exponent) (hexponent : exponent < 2000) :
    negative (encode significand exponent) = false ∧
      isFinite (encode significand exponent) = true ∧
      scaled (encode significand exponent) = significand * 2 ^ exponent := by
  have hbits : (encode significand exponent).toNat
      = exponent * 2 ^ 52 + (significand - 2 ^ 52) := by
    rw [encode, UInt64.toNat_ofNat_of_lt']
    show _ < 2 ^ 64
    omega
  have hsign : negative (encode significand exponent) = false := by
    rw [negative, hbits, decide_eq_false_iff_not]
    omega
  rcases Nat.lt_or_ge significand (2 ^ 53) with hlt | hge
  · have hexp : exponentBits (encode significand exponent) = exponent := by
      rw [exponentBits, hbits]
      omega
    have hfrac : fractionBits (encode significand exponent) = significand - 2 ^ 52 := by
      rw [fractionBits, hbits]
      omega
    refine ⟨hsign, ?_, ?_⟩
    · rw [isFinite, hexp, decide_eq_true_iff]
      omega
    · rw [scaled, hexp, hfrac, if_neg (by omega), Nat.add_sub_cancel' hlow]
  · obtain rfl : significand = 2 ^ 53 := Nat.le_antisymm hhigh hge
    have hexp : exponentBits (encode (2 ^ 53) exponent) = exponent + 1 := by
      rw [exponentBits, hbits]
      omega
    have hfrac : fractionBits (encode (2 ^ 53) exponent) = 0 := by
      rw [fractionBits, hbits]
      omega
    refine ⟨hsign, ?_, ?_⟩
    · rw [isFinite, hexp, decide_eq_true_iff]
      omega
    · have hpow : 2 ^ (exponent + 1) = 2 * 2 ^ exponent := Nat.pow_succ'
      rw [scaled, hexp, hfrac, if_neg (by omega), hpow]
      omega

/-- The parts of a natural number: it lies between two powers of two. -/
theorem log2_bounds {n : Nat} (hn : n ≠ 0) : 2 ^ n.log2 ≤ n ∧ n < 2 ^ (n.log2 + 1) :=
  ⟨Nat.log2_self_le hn, Nat.lt_log2_self⟩

/-- A natural number is converted to a finite number; it is not rounded below the power of two
under it, and where it has 53 bits not at all. -/
theorem scaled_ofNat {n : Nat} (hn : n ≠ 0) (hlt : n < 2 ^ 64) :
    negative (ofNat n) = false ∧ isFinite (ofNat n) = true ∧
      2 ^ n.log2 * 2 ^ shift ≤ scaled (ofNat n) ∧
      (n < 2 ^ 53 → scaled (ofNat n) = n * 2 ^ shift) := by
  obtain ⟨hlow, hhigh⟩ := log2_bounds hn
  have hlog : n.log2 < 64 := (Nat.log2_lt hn).2 hlt
  rw [ofNat, if_neg hn]
  split
  · next hsmall =>
    have hsplit : 2 ^ n.log2 * 2 ^ (52 - n.log2) = 2 ^ 52 := by
      rw [← Nat.pow_add, Nat.add_sub_cancel' hsmall]
    have hsplit' : 2 ^ (n.log2 + 1) * 2 ^ (52 - n.log2) = 2 ^ 53 := by
      rw [← Nat.pow_add, show n.log2 + 1 + (52 - n.log2) = 53 by omega]
    have hunit : 2 ^ (52 - n.log2) * 2 ^ (n.log2 + 1023) = 2 ^ shift := by
      rw [← Nat.pow_add, show 52 - n.log2 + (n.log2 + 1023) = shift by unfold shift; omega]
    obtain ⟨hsign, hfinite, hscaled⟩ := @scaled_encode (n * 2 ^ (52 - n.log2))
      (n.log2 + 1023)
      (by rw [← hsplit]; exact Nat.mul_le_mul_right _ hlow)
      (by rw [← hsplit']; exact Nat.mul_le_mul_right _ (Nat.le_of_lt hhigh)) (by omega)
      (by omega)
    rw [Nat.mul_assoc, hunit] at hscaled
    refine ⟨hsign, hfinite, ?_, fun _ => hscaled⟩
    rw [hscaled]
    exact Nat.mul_le_mul_right _ hlow
  · next hlarge =>
    have hpos : 0 < 2 ^ (n.log2 - 52) := Nat.two_pow_pos _
    have hsplit : 2 ^ n.log2 = 2 ^ 52 * 2 ^ (n.log2 - 52) := by
      rw [← Nat.pow_add, show 52 + (n.log2 - 52) = n.log2 by omega]
    have hsplit' : 2 ^ (n.log2 + 1) = 2 ^ 53 * 2 ^ (n.log2 - 52) := by
      rw [← Nat.pow_add, show 53 + (n.log2 - 52) = n.log2 + 1 by omega]
    have hquot : 2 ^ 52 ≤ n / 2 ^ (n.log2 - 52) ∧ n / 2 ^ (n.log2 - 52) < 2 ^ 53 :=
      ⟨(Nat.le_div_iff_mul_le hpos).2 (hsplit ▸ hlow),
        (Nat.div_lt_iff_lt_mul hpos).2 (hsplit' ▸ hhigh)⟩
    obtain ⟨hround, hround'⟩ := roundHalfEven_mem n (2 ^ (n.log2 - 52))
    obtain ⟨hsign, hfinite, hscaled⟩ := @scaled_encode (roundHalfEven n (2 ^ (n.log2 - 52)))
      (n.log2 + 1023) (hquot.1.trans hround) (hround'.trans hquot.2) (by omega) (by omega)
    have hunit : 2 ^ n.log2 * 2 ^ shift = 2 ^ 52 * 2 ^ (n.log2 + 1023) := by
      rw [← Nat.pow_add, ← Nat.pow_add,
        show n.log2 + shift = 52 + (n.log2 + 1023) by unfold shift; omega]
    refine ⟨hsign, hfinite, ?_, fun hlt53 => ?_⟩
    · rw [hscaled, hunit]
      exact Nat.mul_le_mul_right _ (hquot.1.trans hround)
    · exact absurd (Nat.lt_succ_iff.1 ((Nat.log2_lt hn).2 hlt53)) hlarge

/-- A natural number of 53 bits is not rounded. -/
theorem value_ofNat {n : Nat} (hlt : n < 2 ^ 53) : value (ofNat n) = n := by
  rcases Nat.eq_zero_or_pos n with rfl | hpos
  · norm_num [value, ofNat, negative, scaled, exponentBits, fractionBits]
  · obtain ⟨hsign, -, -, hscaled⟩ := scaled_ofNat (Nat.ne_of_gt hpos) (by omega)
    have hshift : (2 : ℚ) ^ shift ≠ 0 := by positivity
    rw [value, hsign, if_neg Bool.false_ne_true, hscaled hlt, Nat.cast_mul, Nat.cast_pow,
      Nat.cast_ofNat, mul_div_cancel_right₀ _ hshift]

/-- A natural number is not rounded below the power of two under it. -/
theorem two_pow_le_value_ofNat {n : Nat} (hn : n ≠ 0) (hlt : n < 2 ^ 64) :
    (2 : ℚ) ^ n.log2 ≤ value (ofNat n) := by
  obtain ⟨hsign, -, hle, -⟩ := scaled_ofNat hn hlt
  have hshift : (0 : ℚ) < 2 ^ shift := by positivity
  rw [value, hsign, if_neg Bool.false_ne_true, le_div_iff₀ hshift]
  exact_mod_cast hle

/-- A quotient is rounded to the nearest. -/
theorem roundHalfEven_near (n : Nat) {d : Nat} (hd : 0 < d) :
    2 * (roundHalfEven n d * d) ≤ 2 * n + d ∧ 2 * n ≤ 2 * (roundHalfEven n d * d) + d := by
  have hsplit := Nat.div_add_mod n d
  rw [Nat.mul_comm] at hsplit
  unfold roundHalfEven
  split
  · next hbelow => omega
  · next habove =>
    have hmod := Nat.mod_lt n hd
    rw [Nat.add_mul, Nat.one_mul]
    omega

/-- A quotient is shifted to 53 bits. -/
theorem quotientShift_spec {n d : Nat} (hn : n ≠ 0) (hd : d ≠ 0) (hlog : n.log2 ≤ 52 + d.log2) :
    2 ^ 52 ≤ n * 2 ^ quotientShift n d / d ∧ n * 2 ^ quotientShift n d / d < 2 ^ 53 := by
  obtain ⟨hlow, hhigh⟩ := log2_bounds hn
  obtain ⟨hlow', hhigh'⟩ := log2_bounds hd
  have hpos : 0 < d := Nat.pos_of_ne_zero hd
  have hplaces : 2 ^ n.log2 * 2 ^ (52 + d.log2 - n.log2) = 2 ^ 52 * 2 ^ d.log2 := by
    rw [← Nat.pow_add, ← Nat.pow_add, Nat.add_sub_cancel' hlog]
  have hfrom : 2 ^ 52 * 2 ^ d.log2 ≤ n * 2 ^ (52 + d.log2 - n.log2) :=
    hplaces ▸ Nat.mul_le_mul_right _ hlow
  have hto : n * 2 ^ (52 + d.log2 - n.log2) < 2 ^ 53 * 2 ^ d.log2 := by
    have := Nat.mul_lt_mul_of_pos_right hhigh (Nat.two_pow_pos (52 + d.log2 - n.log2))
    rw [Nat.pow_succ, Nat.mul_right_comm, hplaces] at this
    omega
  unfold quotientShift
  dsimp only
  split
  · next hshort =>
    rw [Nat.div_lt_iff_lt_mul hpos] at hshort
    have hdouble : n * 2 ^ (52 + d.log2 - n.log2 + 1) = 2 * (n * 2 ^ (52 + d.log2 - n.log2)) := by
      ring
    rw [hdouble, Nat.le_div_iff_mul_le hpos, Nat.div_lt_iff_lt_mul hpos]
    rw [Nat.pow_succ] at hhigh'
    constructor <;> omega
  · next hlong =>
    refine ⟨Nat.le_of_not_lt hlong, ?_⟩
    rw [Nat.div_lt_iff_lt_mul hpos]
    exact Nat.lt_of_lt_of_le hto (Nat.mul_le_mul_left _ hlow')

/-- A quotient is finite, and rounded by no more than `2 ^ -53` of it. -/
theorem value_ofQuotient {n d : Nat} (hn : n ≠ 0) (hd : d ≠ 0) (hlog : n.log2 ≤ 52 + d.log2)
    (hlog' : d.log2 < 1000) :
    isFinite (ofQuotient n d) = true ∧ |value (ofQuotient n d) - n / d| ≤ n / d / 2 ^ 53 := by
  obtain ⟨hquot, hquot'⟩ := quotientShift_spec hn hd hlog
  have hplaces : quotientShift n d < shift := by
    unfold quotientShift shift
    dsimp only
    split <;> omega
  obtain ⟨hround, hround'⟩ := roundHalfEven_mem (n * 2 ^ quotientShift n d) d
  obtain ⟨hnear, hnear'⟩ := roundHalfEven_near (n * 2 ^ quotientShift n d) (Nat.pos_of_ne_zero hd)
  obtain ⟨hsign, hfinite, hscaled⟩ := @scaled_encode
    (roundHalfEven (n * 2 ^ quotientShift n d) d) (shift - quotientShift n d) (hquot.trans hround)
    (hround'.trans hquot') (Nat.sub_pos_of_lt hplaces) (by unfold shift; omega)
  rw [ofQuotient, if_neg hn]
  refine ⟨hfinite, ?_⟩
  rw [value, hsign, if_neg Bool.false_ne_true, hscaled]
  generalize roundHalfEven (n * 2 ^ quotientShift n d) d = rounded at *
  generalize quotientShift n d = places at *
  have hvalue :
      ((rounded * 2 ^ (shift - places) : Nat) : ℚ) / 2 ^ shift = rounded / 2 ^ places := by
    rw [Nat.cast_mul, Nat.cast_pow, Nat.cast_ofNat, ← Nat.sub_add_cancel (Nat.le_of_lt hplaces),
      pow_add, Nat.add_sub_cancel, mul_comm (2 ^ (shift - places)) (2 ^ places : ℚ),
      mul_div_mul_right _ _ (by positivity)]
  have hd' : (0 : ℚ) < d := by exact_mod_cast Nat.pos_of_ne_zero hd
  have hp : (0 : ℚ) < 2 ^ places := by positivity
  have hlow : (2 ^ 52 : ℚ) * d ≤ n * 2 ^ places := by
    exact_mod_cast (Nat.le_div_iff_mul_le (Nat.pos_of_ne_zero hd)).1 hquot
  have hnearQ : (2 : ℚ) * (rounded * d) ≤ 2 * (n * 2 ^ places) + d := by exact_mod_cast hnear
  have hnearQ' : (2 : ℚ) * (n * 2 ^ places) ≤ 2 * (rounded * d) + d := by exact_mod_cast hnear'
  have hdiff : (rounded / 2 ^ places - n / d : ℚ)
      = (rounded * d - n * 2 ^ places) / (2 ^ places * d) := by
    field_simp
  have hbound : (n / d / 2 ^ 53 : ℚ) = (n * 2 ^ places / 2 ^ 53) / (2 ^ places * d) := by
    field_simp
  rw [hvalue, hdiff, hbound, abs_div, abs_of_pos (mul_pos hp hd')]
  refine div_le_div_of_nonneg_right ?_ (mul_pos hp hd').le
  rw [abs_le]
  constructor <;> linarith

/-! ## The least integer above -/

/-- A quotient that is rounded up. -/
theorem natCast_div_add (n : Nat) {d : Nat} (hd : 0 < d) :
    (((n + (d - 1)) / d : Nat) : ℤ) = ⌈(n / d : ℚ)⌉ := by
  symm
  have hd' : (0 : ℚ) < d := by exact_mod_cast hd
  have hbelow : (n + (d - 1)) / d * d < n + d := by
    have := Nat.div_mul_le_self (n + (d - 1)) d
    omega
  have habove : n ≤ (n + (d - 1)) / d * d := by
    have := Nat.lt_div_mul_add hd (a := n + (d - 1))
    omega
  rw [Int.ceil_eq_iff, lt_div_iff₀ hd', div_le_iff₀ hd', Int.cast_natCast, sub_mul, one_mul,
    sub_lt_iff_lt_add]
  exact ⟨by exact_mod_cast hbelow, by exact_mod_cast habove⟩

/-- A finite number is rounded up, to an integer between 1 and what 64 bits hold. -/
theorem ceilMaxOne_eq {bits : UInt64} (h : isFinite bits = true) :
    (ceilMaxOne bits : ℤ) = min (max ⌈value bits⌉ 1) (2 ^ 64 - 1) := by
  have hnan : isNaN bits = false := by
    rw [isFinite, decide_eq_true_iff] at h
    rw [isNaN, decide_eq_false_iff_not]
    exact fun hboth => h hboth.1
  have hbits : ((2 ^ 64 - 1 : Nat) : ℤ) = 2 ^ 64 - 1 := by norm_num
  rw [ceilMaxOne, hnan, h]
  cases hsign : negative bits with
  | true =>
    have hle : ⌈value bits⌉ ≤ 0 := by
      rw [value, hsign, if_pos rfl, Int.ceil_le, Int.cast_zero, neg_nonpos]
      positivity
    rw [if_pos (.inr rfl), max_eq_right (hle.trans zero_le_one)]
    norm_num
  | false =>
    have hceil := natCast_div_add (scaled bits) (Nat.two_pow_pos shift)
    rw [if_neg (by simp), if_pos rfl, value, hsign, if_neg Bool.false_ne_true]
    rw [Nat.cast_pow, Nat.cast_ofNat] at hceil
    rw [← hceil, Nat.cast_min, Nat.cast_max, Nat.cast_one, hbits]

/-- A natural number is rounded up from its double as from itself, to what 32 bits hold. -/
theorem ceilMaxOne_ofNat {n : Nat} (hlt : n < 2 ^ 64) :
    min (ceilMaxOne (ofNat n)) (2 ^ 32 - 1) = min (max n 1) (2 ^ 32 - 1) := by
  have hfinite : isFinite (ofNat n) = true := by
    rcases Nat.eq_zero_or_pos n with rfl | hpos
    · rfl
    · exact (scaled_ofNat (Nat.ne_of_gt hpos) hlt).2.1
  have hceil := ceilMaxOne_eq hfinite
  rcases Nat.lt_or_ge n (2 ^ 53) with hsmall | hlarge
  · rw [value_ofNat hsmall, Int.ceil_natCast] at hceil
    omega
  · have hn : n ≠ 0 := by omega
    have hlog : 53 ≤ n.log2 := (Nat.le_log2 hn).2 hlarge
    have hvalue : ((2 ^ 53 : ℤ) : ℚ) ≤ value (ofNat n) := by
      refine le_trans ?_ (two_pow_le_value_ofNat hn hlt)
      exact_mod_cast Nat.pow_le_pow_right (Nat.zero_lt_two) hlog
    have hle : (2 ^ 53 : ℤ) ≤ ⌈value (ofNat n)⌉ :=
      Int.cast_le.1 (hvalue.trans (Int.le_ceil _))
    omega

/-- A negative integer is not rounded up to more than 1. -/
theorem ceilMaxOne_negSucc (n : Nat) : ceilMaxOne (ofInt (.negSucc n)) = 1 := by
  have hsign : negative (ofInt (.negSucc n)) = true := by
    rw [negative, decide_eq_true_iff, ofInt, UInt64.toNat_or]
    have hbit : (0x8000000000000000 : UInt64).toNat = 2 ^ 63 := rfl
    exact hbit ▸ Nat.right_le_or
  rw [ceilMaxOne, if_pos (.inr hsign)]

end Binary64
