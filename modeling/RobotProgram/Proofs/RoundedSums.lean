import RobotProgram.Proofs.NumberOrder
import RobotProgram.Proofs.Significands

/-!
# Rounded sums

A finite floating-point number is unpacked into a sign, a significand and the place of its last bit.
Sums and differences of such numbers are exact at the lower of two places, and are then rounded: the
significand is shifted until it is short enough, with a bit for the first place that is cut and one
for all others (`Cut`), and these two bits are enough to round it like the exact quotient
(`Cut.roundedMantissa`).

So, in units of the least positive number, a sum is the exact sum rounded to 53 significant bits
(`Measures.add`, `Measures.sub`). No place below the least one is ever needed, and a number that is
too large is left to the packing.
-/

namespace RobotProgram.Number

open Float.Model (Format UnpackedFloat totalExponent)
open Float.Model.UnpackedFloat (Accuracy ExtendedMantissa Sign)

/-! ### Shifted significands -/

/-- A significand without its last places, with a bit for the first of them and one for the others:
whether the part that is cut is at least a half, and whether it is neither nothing nor a half. -/
structure Cut (em : ExtendedMantissa) (m k : ℕ) : Prop where
  mantissa : em.mantissa = m / 2 ^ k
  round : em.roundBit = true ↔ 2 ^ k ≤ 2 * (m % 2 ^ k)
  sticky : em.stickyBit = true ↔ m % 2 ^ k ≠ 0 ∧ 2 * (m % 2 ^ k) ≠ 2 ^ k

/-- Shifting by one place cuts one place more. -/
theorem Cut.shiftRightOne {em : ExtendedMantissa} {m k : ℕ} (h : Cut em m k) :
    Cut em.shiftRightOne m (k + 1) := by
  have hlt : m % 2 ^ k < 2 ^ k := Nat.mod_lt _ (Nat.two_pow_pos k)
  have hnext : m % 2 ^ (k + 1) = m % 2 ^ k + 2 ^ k * (m / 2 ^ k % 2) := by
    rw [pow_succ, Nat.mod_mul]
  have hbit := Nat.mod_two_eq_zero_or_one (m / 2 ^ k)
  have hpow : 2 ^ (k + 1) = 2 * 2 ^ k := by ring
  have hround := h.round
  have hsticky := h.sticky
  refine ⟨?_, ?_, ?_⟩
  · rw [ExtendedMantissa.shiftRightOne, h.mantissa, pow_succ, Nat.div_div_eq_div_mul]
  · simp only [ExtendedMantissa.shiftRightOne, h.mantissa, bne_iff_ne]
    obtain hzero | hone := hbit
    · rw [hnext, hzero, hpow]
      omega
    · rw [hnext, hone, hpow]
      omega
  · simp only [ExtendedMantissa.shiftRightOne, Bool.or_eq_true, hround, hsticky]
    obtain hzero | hone := hbit
    · rw [hnext, hzero, hpow]
      omega
    · rw [hnext, hone, hpow]
      omega

/-- Shifting a significand cuts its last places. -/
theorem cut_shiftRight (m k : ℕ) :
    Cut (ExtendedMantissa.ofMantissaAndAccuracy m .exact >>> k) m k := by
  induction k with
  | zero => exact ⟨(Nat.div_one m).symm, by simp [Nat.mod_one, HShiftRight.hShiftRight, Nat.repeat,
      ExtendedMantissa.ofMantissaAndAccuracy], by simp [Nat.mod_one, HShiftRight.hShiftRight,
      Nat.repeat, ExtendedMantissa.ofMantissaAndAccuracy]⟩
  | succ k ih => exact ih.shiftRightOne

/-- A cut significand is rounded like the quotient. -/
theorem Cut.roundedMantissa {em : ExtendedMantissa} {m k : ℕ} (h : Cut em m k) :
    em.roundedMantissa = roundDiv m (2 ^ k) := by
  obtain ⟨q, round, sticky⟩ := em
  obtain ⟨rfl, hround, hsticky⟩ := h
  have hlt : m % 2 ^ k < 2 ^ k := Nat.mod_lt _ (Nat.two_pow_pos k)
  simp only at hround hsticky
  simp only [ExtendedMantissa.roundedMantissa, ExtendedMantissa.accuracy, roundDiv]
  cases round <;> cases sticky <;>
    simp only [Accuracy.roundToNearestEven, Bool.false_eq_true, false_iff, true_iff]
      at hround hsticky ⊢ <;>
    split_ifs <;> omega

/-! ### Rounded numbers -/

/-- An unpacked number is a finite number that is laid out normally, given in units of the least
positive one. -/
def Measures (u : UnpackedFloat) (n : ℤ) : Prop :=
  ∃ d, ofUnpacked u = .finite d ∧ d.Normal ∧ d.units = n

/-- The units of a number, by its sign. -/
theorem units_eq_apply (s : Sign) (m p : ℕ) :
    Dyadic.units ⟨isNegative s, m, (p : ℤ) - 1074⟩ = s.apply (m * 2 ^ p : ℕ) := by
  cases s <;> simp [Dyadic.units, isNegative, Sign.apply]

/-- An unpacked zero measures zero. -/
theorem measures_zero (s : Sign) : Measures (.zero s) 0 :=
  ⟨_, rfl, ⟨by simp, le_rfl, .inr rfl⟩, by simp [Dyadic.units]⟩

/-- An unpacked number measures its mantissa, shifted by its place, with its sign. -/
theorem measures_finite (s : Sign) {m p : ℕ} (hpos : 0 < m) (hlt : m < 2 ^ 53)
    (hleading : 2 ^ 52 ≤ m ∨ p = 0) :
    Measures (.finite s m ((p : ℤ) - 1074) hpos) (s.apply (m * 2 ^ p : ℕ)) := by
  refine ⟨_, rfl, ⟨hlt, by simp, hleading.imp_right ?_⟩, units_eq_apply s m p⟩
  rintro rfl
  rfl

/-- Shifting a number to the left adds to its logarithm. -/
theorem log2_mul_two_pow {m : ℕ} (hm : m ≠ 0) (p : ℕ) : (m * 2 ^ p).log2 = m.log2 + p := by
  have hpos := Nat.two_pow_pos p
  rw [Nat.log2_eq_iff (by positivity), add_right_comm, pow_add, pow_add]
  exact ⟨Nat.mul_le_mul_right _ (Nat.log2_self_le hm),
    Nat.mul_lt_mul_of_pos_right Nat.lt_log2_self hpos⟩

/-- The last place of a number is where its significand ends. -/
theorem targetExponent_eq {m : ℕ} (hm : m ≠ 0) (p : ℕ) :
    Format.binary64.targetExponent (totalExponent m ((p : ℤ) - 1074)) =
      (lastPlace (m * 2 ^ p : ℕ) : ℤ) - 1074 := by
  have hmin : Format.binary64.minExponent = -1074 := rfl
  have hbits : Format.binary64.mantissaBits = 53 := rfl
  rw [lastPlace, Int.natAbs_natCast, log2_mul_two_pow hm, Format.targetExponent, totalExponent,
    hmin, hbits]
  omega

/-- Lowering an exponent shifts the mantissa, if the new one is lower. -/
theorem decreaseExponent_eq (m p q : ℕ) :
    UnpackedFloat.decreaseExponent m ((p : ℤ) - 1074) ((q : ℤ) - 1074) =
      (m * 2 ^ (p - q), ((min p q : ℕ) : ℤ) - 1074) := by
  have hshift : ((p : ℤ) - 1074 - (q - 1074)).toNat = p - q := by omega
  rw [UnpackedFloat.decreaseExponent, hshift, Nat.shiftLeft_eq]
  refine congrArg (Prod.mk _) ?_
  omega

/-- A significand that is short enough is not shifted. -/
theorem shiftToTargetExponent_of_lt {m : ℕ} (hm : m < 2 ^ 53) (p : ℕ) :
    UnpackedFloat.shiftToTargetExponent .binary64 m ((p : ℤ) - 1074) .exact =
      (⟨m, false, false⟩, (p : ℤ) - 1074) := by
  have hmin : Format.binary64.minExponent = -1074 := rfl
  have hbits : Format.binary64.mantissaBits = 53 := rfl
  have hlog : m.log2 ≤ 52 := by
    obtain rfl | hne := eq_or_ne m 0
    · decide
    · have := (Nat.log2_lt hne).mpr hm
      omega
  have hshift : (Format.binary64.targetExponent (totalExponent m ((p : ℤ) - 1074)) -
      ((p : ℤ) - 1074)).toNat = 0 := by
    rw [Format.targetExponent, totalExponent, hmin, hbits]
    omega
  rw [UnpackedFloat.shiftToTargetExponent, UnpackedFloat.shiftToExponent, hshift]
  simp [HShiftRight.hShiftRight, Nat.repeat, ExtendedMantissa.ofMantissaAndAccuracy]

/-- A significand that was rounded up to the next power of two is shifted by one place. -/
theorem shiftToTargetExponent_top (p : ℕ) :
    UnpackedFloat.shiftToTargetExponent .binary64 (2 ^ 53) ((p : ℤ) - 1074) .exact =
      (⟨2 ^ 52, false, false⟩, ((p + 1 : ℕ) : ℤ) - 1074) := by
  have hmin : Format.binary64.minExponent = -1074 := rfl
  have hbits : Format.binary64.mantissaBits = 53 := rfl
  have hshift : (Format.binary64.targetExponent (totalExponent (2 ^ 53) ((p : ℤ) - 1074)) -
      ((p : ℤ) - 1074)).toNat = 1 := by
    rw [Format.targetExponent, totalExponent, hmin, hbits, Nat.log2_two_pow]
    omega
  rw [UnpackedFloat.shiftToTargetExponent, UnpackedFloat.shiftToExponent, hshift]
  refine congrArg (Prod.mk _) ?_
  push_cast
  ring

/-- A common factor of a division does not matter for its rounding. -/
theorem roundDiv_mul_mul (m d : ℕ) {c : ℕ} (hc : 0 < c) :
    roundDiv (m * c) (d * c) = roundDiv m d := by
  have hquotient : m * c / (d * c) = m / d := Nat.mul_div_mul_right m d hc
  have hremainder : m * c % (d * c) = m % d * c := Nat.mul_mod_mul_right c m d
  have hbelow : 2 * (m % d * c) < d * c ↔ 2 * (m % d) < d := by
    rw [← mul_assoc, Nat.mul_lt_mul_right hc]
  have habove : d * c < 2 * (m % d * c) ↔ d < 2 * (m % d) := by
    rw [← mul_assoc, Nat.mul_lt_mul_right hc]
  simp only [roundDiv, hquotient, hremainder, hbelow, habove]

/-- A number is rounded to 53 significant bits. -/
theorem measures_roundWithAccuracy (s : Sign) {m p : ℕ} (hm : m ≠ 0)
    (hp : p ≤ lastPlace (m * 2 ^ p : ℕ)) :
    Measures (UnpackedFloat.roundWithAccuracy .binary64 s m ((p : ℤ) - 1074) .exact)
      (s.apply (rounded (m * 2 ^ p : ℕ))) := by
  obtain ⟨q, hq⟩ : ∃ q, lastPlace (m * 2 ^ p : ℕ) = q := ⟨_, rfl⟩
  obtain ⟨r, hr⟩ : ∃ r, roundDiv m (2 ^ (q - p)) = r := ⟨_, rfl⟩
  rw [hq] at hp
  have hfirst : UnpackedFloat.shiftToTargetExponent .binary64 m ((p : ℤ) - 1074) .exact =
      (ExtendedMantissa.ofMantissaAndAccuracy m .exact >>> (q - p), (q : ℤ) - 1074) := by
    rw [UnpackedFloat.shiftToTargetExponent, targetExponent_eq hm, hq,
      UnpackedFloat.shiftToExponent]
    have hshift : ((q : ℤ) - 1074 - (p - 1074)).toNat = q - p := by omega
    rw [hshift]
    refine congrArg (Prod.mk _) ?_
    omega
  have hrounded : rounded (m * 2 ^ p : ℕ) = (r * 2 ^ q : ℕ) := by
    have hsplit : 2 ^ q = 2 ^ (q - p) * 2 ^ p := by rw [← pow_add, Nat.sub_add_cancel hp]
    rw [rounded_natCast hq, hsplit, roundDiv_mul_mul _ _ (Nat.two_pow_pos p), hr]
  rw [UnpackedFloat.roundWithAccuracy, hfirst]
  dsimp only
  rw [(cut_shiftRight m (q - p)).roundedMantissa, hr, hrounded]
  -- The rounded significand has at most one bit more, which is then in the next place.
  have hpow : (0 : ℤ) < 2 ^ q := by positivity
  have hbound := abs_lt_two_pow (m * 2 ^ p : ℕ)
  rw [Nat.abs_cast, hq, pow_add] at hbound
  have hhigh : r ≤ 2 ^ 53 := by
    have hle := rounded_le_mul (n := (m * 2 ^ p : ℕ)) (k := 2 ^ 53) (by rw [hq]; exact hbound.le)
    rw [hrounded, hq] at hle
    push_cast at hle
    exact_mod_cast le_of_mul_le_mul_right hle hpow
  have hleading : 2 ^ 52 ≤ r ∨ q = 0 := by
    obtain rfl | hpos := q.eq_zero_or_pos
    · exact .inr rfl
    · have hlow := two_pow_le_abs (n := (m * 2 ^ p : ℕ)) (by omega)
      rw [Nat.abs_cast, hq, pow_add] at hlow
      have hle := mul_le_rounded (n := (m * 2 ^ p : ℕ)) (k := 2 ^ 52) (by rwa [hq])
      rw [hrounded, hq] at hle
      push_cast at hle
      exact .inl (by exact_mod_cast le_of_mul_le_mul_right hle hpow)
  obtain hlt | rfl := hhigh.lt_or_eq
  · rw [shiftToTargetExponent_of_lt hlt]
    dsimp only
    obtain rfl | hne := r.eq_zero_or_pos
    · have hzero : s.apply ((0 * 2 ^ q : ℕ) : ℤ) = 0 := by cases s <;> simp [Sign.apply]
      rw [hzero]
      exact measures_zero s
    · rw [dif_neg hne.ne']
      exact measures_finite s hne hlt hleading
  · have hnext : (2 ^ 53 * 2 ^ q : ℕ) = 2 ^ 52 * 2 ^ (q + 1) := by ring
    rw [hnext, shiftToTargetExponent_top]
    exact measures_finite s (by norm_num) (by norm_num) (.inl le_rfl)

/-- Rounding a mantissa measures the rounded number. -/
theorem measures_round (s : Sign) {m : ℕ} (hm : m ≠ 0) (p : ℕ) :
    Measures (UnpackedFloat.round .binary64 s m ((p : ℤ) - 1074))
      (s.apply (rounded (m * 2 ^ p : ℕ))) := by
  obtain ⟨q, hq⟩ : ∃ q, lastPlace (m * 2 ^ p : ℕ) = q := ⟨_, rfl⟩
  have hsame : m * 2 ^ (p - q) * 2 ^ min p q = m * 2 ^ p := by
    rw [mul_assoc, ← pow_add]
    congr 2
    omega
  rw [UnpackedFloat.round, targetExponent_eq hm, hq, decreaseExponent_eq, ← hsame]
  refine measures_roundWithAccuracy s (by positivity) ?_
  rw [hsame, hq]
  exact min_le_right p q

/-- A sum of significands is rounded, with its sign. -/
theorem measures_normalize (M : ℤ) (p : ℕ) (zero : Sign) :
    Measures (UnpackedFloat.normalize .binary64 M ((p : ℤ) - 1074) zero)
      (rounded (M * 2 ^ p)) := by
  unfold UnpackedFloat.normalize
  obtain hneg | rfl | hpos := lt_trichotomy M 0
  · have hsize : ((-M).toNat * 2 ^ p : ℕ) = -(M * 2 ^ p) := by
      push_cast
      rw [Int.toNat_of_nonneg (by omega), neg_mul]
    have hround := measures_round .negative (m := (-M).toNat) (by omega) p
    rw [hsize, rounded_neg, Sign.apply, neg_neg] at hround
    rwa [Int.compare_eq_lt.mpr hneg]
  · rw [zero_mul, rounded_of_fits fits_zero]
    exact measures_zero zero
  · have hsize : (M.toNat * 2 ^ p : ℕ) = M * 2 ^ p := by
      push_cast
      rw [Int.toNat_of_nonneg hpos.le]
    have hround := measures_round .positive (m := M.toNat) (by omega) p
    rw [hsize, Sign.apply] at hround
    rwa [Int.compare_eq_gt.mpr hpos]

/-! ### Sums of unpacked numbers -/

/-- An unpacked number that is measured is zero, or has a significand and a place. -/
theorem Measures.cases {u : UnpackedFloat} {n : ℤ} (h : Measures u n) :
    (∃ s, u = .zero s ∧ n = 0) ∨
      ∃ (s : Sign) (m p : ℕ) (hpos : 0 < m), u = .finite s m ((p : ℤ) - 1074) hpos ∧
        n = s.apply (m * 2 ^ p : ℕ) ∧ m < 2 ^ 53 := by
  obtain ⟨d, hd, hnormal, rfl⟩ := h
  obtain ⟨s, rfl, hzero⟩ | ⟨s, hpos, rfl, hs⟩ := of_ofUnpacked_eq_finite hd
  · exact .inl ⟨s, rfl, by simp [Dyadic.units, hzero]⟩
  · obtain ⟨negative, m, e⟩ := d
    obtain ⟨p, rfl⟩ : ∃ p : ℕ, e = (p : ℤ) - 1074 :=
      ⟨(e + 1074).toNat, by have := hnormal.least; simp only at this; omega⟩
    obtain rfl : isNegative s = negative := hs
    exact .inr ⟨s, m, p, hpos, rfl, units_eq_apply s m p, hnormal.lt⟩

/-- A mantissa of 53 bits, shifted and with a sign, is a size that a float has. -/
theorem fits_apply (s : Sign) {m : ℕ} (hm : m < 2 ^ 53) (p : ℕ) :
    Fits (s.apply (m * 2 ^ p : ℕ)) := by
  have hpositive : Fits ((m * 2 ^ p : ℕ) : ℤ) := by
    push_cast
    exact fits_mul_two_pow (by rw [Nat.abs_cast]; exact_mod_cast hm.le) p
  cases s with
  | negative => exact hpositive.neg
  | positive => exact hpositive

/-- What a float measures is a size that a float has. -/
theorem Measures.fits {u : UnpackedFloat} {n : ℤ} (h : Measures u n) : Fits n := by
  obtain ⟨s, -, rfl⟩ | ⟨s, m, p, -, -, rfl, hm⟩ := h.cases
  · exact fits_zero
  · exact fits_apply s hm p

/-- A significand with its sign in a lower place. -/
theorem apply_mul_two_pow (s : Sign) (m : ℕ) {p q : ℕ} (h : q ≤ p) :
    s.apply (m * 2 ^ (p - q) : ℕ) * 2 ^ q = s.apply (m * 2 ^ p : ℕ) := by
  have hplaces : (m * 2 ^ p : ℕ) = m * 2 ^ (p - q) * 2 ^ q := by
    rw [mul_assoc, ← pow_add, Nat.sub_add_cancel h]
  rw [hplaces]
  cases s <;> simp [Sign.apply]

/-- A sum measures the rounded sum. -/
theorem Measures.add {u v : UnpackedFloat} {a b : ℤ} (hu : Measures u a) (hv : Measures v b) :
    Measures (UnpackedFloat.add .binary64 u v) (rounded (a + b)) := by
  obtain ⟨s, rfl, rfl⟩ | ⟨s, m, p, hpos, rfl, rfl, -⟩ := hu.cases <;>
    obtain ⟨t, rfl, rfl⟩ | ⟨t, m', p', hpos', rfl, rfl, -⟩ := hv.cases
  · rw [add_zero, rounded_of_fits fits_zero]
    change Measures (if (s == t) = true then .zero s else .zero .positive) 0
    split <;> exact measures_zero _
  · rw [zero_add, rounded_of_fits hv.fits]
    exact hv
  · rw [add_zero, rounded_of_fits hu.fits]
    exact hu
  · have hplace : min ((p : ℤ) - 1074) (p' - 1074) = (min p p' : ℕ) - 1074 := by omega
    have hsum := measures_normalize
      (s.apply (m * 2 ^ (p - min p p') : ℕ) + t.apply (m' * 2 ^ (p' - min p p') : ℕ))
      (min p p') .positive
    rw [add_mul, apply_mul_two_pow s m (min_le_left p p'),
      apply_mul_two_pow t m' (min_le_right p p')] at hsum
    unfold UnpackedFloat.add
    dsimp only
    rw [hplace, decreaseExponent_eq, decreaseExponent_eq]
    exact hsum

/-- The opposite measures the opposite. -/
theorem Measures.neg {u : UnpackedFloat} {a : ℤ} (hu : Measures u a) : Measures u.neg (-a) := by
  obtain ⟨d, hd, hnormal, rfl⟩ := hu
  obtain ⟨s, rfl, hzero⟩ | ⟨s, hpos, rfl, hs⟩ := of_ofUnpacked_eq_finite hd
  · have hunits : d.units = 0 := by simp [Dyadic.units, hzero]
    rw [hunits, neg_zero]
    exact measures_zero (-s)
  · refine ⟨⟨isNegative (-s), d.mantissa, d.exponent⟩, rfl,
      ⟨hnormal.lt, hnormal.least, hnormal.leading⟩, ?_⟩
    rw [Dyadic.units, Dyadic.units, ← hs]
    cases s
    · exact (neg_neg _).symm
    · rfl

/-- A difference is the sum with the negation. -/
theorem Measures.sub {u v : UnpackedFloat} {a b : ℤ} (hu : Measures u a) (hv : Measures v b) :
    Measures (UnpackedFloat.sub .binary64 u v) (rounded (a - b)) := by
  obtain ⟨s, rfl, rfl⟩ | ⟨s, m, p, hpos, rfl, rfl, -⟩ := hu.cases <;>
    obtain ⟨t, rfl, rfl⟩ | ⟨t, m', p', hpos', rfl, rfl, -⟩ := hv.cases
  · rw [sub_zero, rounded_of_fits fits_zero]
    change Measures (if (s == -t) = true then .zero s else .zero .positive) 0
    split <;> exact measures_zero _
  · rw [zero_sub, rounded_of_fits hv.fits.neg]
    exact hv.neg
  · rw [sub_zero, rounded_of_fits hu.fits]
    exact hu
  · have hplace : min ((p : ℤ) - 1074) (p' - 1074) = (min p p' : ℕ) - 1074 := by omega
    have hsum := measures_normalize
      (s.apply (m * 2 ^ (p - min p p') : ℕ) - t.apply (m' * 2 ^ (p' - min p p') : ℕ))
      (min p p') .positive
    rw [sub_mul, apply_mul_two_pow s m (min_le_left p p'),
      apply_mul_two_pow t m' (min_le_right p p')] at hsum
    unfold UnpackedFloat.sub
    dsimp only
    rw [hplace, decreaseExponent_eq, decreaseExponent_eq]
    exact hsum

/-- The size measures the size. -/
theorem Measures.abs {u : UnpackedFloat} {a : ℤ} (hu : Measures u a) : Measures u.abs |a| := by
  obtain ⟨d, hd, hnormal, rfl⟩ := hu
  obtain ⟨s, rfl, hzero⟩ | ⟨s, hpos, rfl, hs⟩ := of_ofUnpacked_eq_finite hd
  · have hunits : d.units = 0 := by simp [Dyadic.units, hzero]
    rw [hunits, abs_zero]
    exact measures_zero .positive
  · refine ⟨⟨false, d.mantissa, d.exponent⟩, rfl,
      ⟨hnormal.lt, hnormal.least, hnormal.leading⟩, ?_⟩
    have hsize : (0 : ℤ) ≤ d.mantissa * 2 ^ (d.exponent + 1074).toNat := by positivity
    rw [Dyadic.units, Dyadic.units, ← hs]
    cases s
    · exact (abs_of_nonneg hsize).symm.trans (abs_neg _).symm
    · exact (abs_of_nonneg hsize).symm

end RobotProgram.Number
