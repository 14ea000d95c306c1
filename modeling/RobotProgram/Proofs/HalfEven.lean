import Mathlib.Algebra.Order.Round
import Mathlib.Data.Rat.Floor
import Mathlib.Tactic.FieldSimp
import Mathlib.Tactic.Linarith
import Mathlib.Tactic.Ring
import RobotProgram.Number.Binary

/-!
# Rounding to the nearest whole number

A rational number is rounded to the nearest whole number, and a half goes to the even one.
`IsNearestEven` says which number that is, and there is exactly one (`nearestEven_eq_iff`), so
rounding keeps the order and the sign. The quotient that `roundDiv` computes with whole numbers is
this one (`nearestEven_div`), and a floating-point number has an exact value to which it applies
(`Dyadic.value`).
-/

namespace RobotProgram.Number

/-! ### The nearest whole number -/

/-- A whole number is nearest to a rational, and the even one of two that are as near. -/
structure IsNearestEven (q : ℚ) (k : ℤ) : Prop where
  near : |q - k| ≤ 1 / 2
  even : |q - k| = 1 / 2 → Even k

/-- The nearest whole number, the even one of two that are as near. -/
def nearestEven (q : ℚ) : ℤ :=
  if Int.fract q < 1 / 2 then ⌊q⌋
  else if 1 / 2 < Int.fract q then ⌊q⌋ + 1
  else if Even ⌊q⌋ then ⌊q⌋ else ⌊q⌋ + 1

/-- The number that is chosen is nearest. -/
theorem isNearestEven_nearestEven (q : ℚ) : IsNearestEven q (nearestEven q) := by
  have hq := Int.floor_add_fract q
  have hlow := Int.fract_nonneg q
  have hhigh := Int.fract_lt_one q
  have hbelow : q - ⌊q⌋ = Int.fract q := by linarith
  have habove : q - (⌊q⌋ + 1 : ℤ) = -(1 - Int.fract q) := by
    push_cast
    linarith
  -- The distances to the numbers around `q`.
  have hdown : |q - ⌊q⌋| = Int.fract q := by rw [hbelow, abs_of_nonneg hlow]
  have hup : |q - (⌊q⌋ + 1 : ℤ)| = 1 - Int.fract q := by
    rw [habove, abs_neg, abs_of_nonneg (by linarith)]
  unfold nearestEven
  split_ifs with h1 h2 heven
  · exact ⟨by rw [hdown]; exact h1.le, fun h => absurd (hdown.symm.trans h) h1.ne⟩
  · exact ⟨by rw [hup]; linarith, fun h => by rw [hup] at h; linarith⟩
  · exact ⟨by rw [hdown]; linarith, fun _ => heven⟩
  · exact ⟨by rw [hup]; linarith, fun _ => (Int.not_even_iff_odd.mp heven).add_one⟩

namespace IsNearestEven

variable {q q' : ℚ} {k k' : ℤ}

/-- Rounding keeps the order. -/
theorem le (h : IsNearestEven q k) (h' : IsNearestEven q' k') (hle : q ≤ q') : k ≤ k' := by
  by_contra hlt
  have hk : k' + 1 ≤ k := by omega
  have hkQ : (k' : ℚ) + 1 ≤ k := by exact_mod_cast hk
  have hnear := abs_le.mp h.near
  have hnear' := abs_le.mp h'.near
  -- Then both lie half way between the two, which are neighbours and so not both even.
  have hdist : |q - k| = 1 / 2 := by
    rw [abs_eq (by norm_num)]
    exact .inr (by linarith)
  have hdist' : |q' - k'| = 1 / 2 := by
    rw [abs_eq (by norm_num)]
    exact .inl (by linarith)
  have heven := h.even hdist
  have heven' := h'.even hdist'
  have hnext : k = k' + 1 := by
    have : (k : ℚ) = k' + 1 := by linarith
    exact_mod_cast this
  rw [hnext, Int.even_add_one] at heven
  exact heven heven'

/-- Only one whole number is nearest. -/
theorem unique (h : IsNearestEven q k) (h' : IsNearestEven q k') : k = k' :=
  le_antisymm (h.le h' le_rfl) (h'.le h le_rfl)

/-- The opposite of a nearest number is nearest to the opposite. -/
theorem neg (h : IsNearestEven q k) : IsNearestEven (-q) (-k) := by
  have hdist : |-q - ((-k : ℤ) : ℚ)| = |q - k| := by
    rw [← abs_neg]
    push_cast
    congr 1
    ring
  exact ⟨hdist ▸ h.near, fun htie => (h.even (hdist ▸ htie)).neg⟩

end IsNearestEven

/-- To be chosen is to be nearest. -/
theorem nearestEven_eq_iff {q : ℚ} {k : ℤ} : nearestEven q = k ↔ IsNearestEven q k := by
  constructor
  · rintro rfl
    exact isNearestEven_nearestEven q
  · exact (isNearestEven_nearestEven q).unique

/-- Rounding keeps the order. -/
theorem nearestEven_le {q q' : ℚ} (h : q ≤ q') : nearestEven q ≤ nearestEven q' :=
  (isNearestEven_nearestEven q).le (isNearestEven_nearestEven q') h

/-- Rounding keeps opposites. -/
theorem nearestEven_neg (q : ℚ) : nearestEven (-q) = -nearestEven q :=
  nearestEven_eq_iff.mpr (isNearestEven_nearestEven q).neg

/-- A whole number is nearest to itself. -/
theorem nearestEven_intCast (k : ℤ) : nearestEven k = k :=
  nearestEven_eq_iff.mpr ⟨by simp, fun h => by norm_num at h⟩

/-- A rational that is at least as near to what another one is rounded to is rounded alike. -/
theorem nearestEven_eq_of_abs_le {q q' : ℚ}
    (h : |q' - nearestEven q| ≤ |q - nearestEven q|) : nearestEven q' = nearestEven q := by
  have hq := isNearestEven_nearestEven q
  exact nearestEven_eq_iff.mpr
    ⟨h.trans hq.near, fun htie => hq.even (le_antisymm hq.near (htie ▸ h))⟩

/-! ### Quotients of natural numbers -/

/-- The rounded quotient of two natural numbers. -/
theorem nearestEven_div (n : ℕ) {d : ℕ} (hd : 0 < d) :
    nearestEven ((n : ℚ) / d) = roundDiv n d := by
  have hdQ : (0 : ℚ) < d := by exact_mod_cast hd
  have hfloor : ⌊(n : ℚ) / d⌋ = (n / d : ℕ) := Rat.floor_natCast_div_natCast n d
  have hfract : Int.fract ((n : ℚ) / d) = (n % d : ℕ) / d := by
    rw [Int.fract, hfloor, Int.cast_natCast, eq_div_iff hdQ.ne', sub_mul, div_mul_cancel₀ _ hdQ.ne',
      sub_eq_iff_eq_add]
    exact_mod_cast (Nat.mod_add_div' n d).symm
  -- The fraction against a half, as whole numbers.
  have hbelow : Int.fract ((n : ℚ) / d) < 1 / 2 ↔ 2 * (n % d) < d := by
    rw [hfract, div_lt_div_iff₀ hdQ (by norm_num), one_mul, mul_comm]
    exact_mod_cast Iff.rfl
  have habove : 1 / 2 < Int.fract ((n : ℚ) / d) ↔ d < 2 * (n % d) := by
    rw [hfract, div_lt_div_iff₀ (by norm_num) hdQ, one_mul, mul_comm]
    exact_mod_cast Iff.rfl
  have heven : Even ((n / d : ℕ) : ℤ) ↔ n / d % 2 = 0 := by
    rw [Int.even_coe_nat, Nat.even_iff]
  simp only [nearestEven, roundDiv, hbelow, habove, hfloor, heven]
  split_ifs <;> rfl

/-! ### Exact values -/

namespace Dyadic

/-- The rational number that a dyadic number is. -/
def value (d : Dyadic) : ℚ :=
  let size : ℚ := d.mantissa * 2 ^ d.exponent
  if d.negative then -size else size

/-- The denominator of a dyadic number is positive. -/
theorem denominator_pos (d : Dyadic) : 0 < d.denominator := Nat.two_pow_pos _

/-- The magnitude of a dyadic number as a fraction. -/
theorem numerator_div_denominator (d : Dyadic) :
    (d.numerator : ℚ) / d.denominator = d.mantissa * 2 ^ d.exponent := by
  have hpow : (2 : ℚ) ^ d.exponent.toNat / 2 ^ (-d.exponent).toNat = 2 ^ d.exponent := by
    rw [← zpow_natCast, ← zpow_natCast, ← zpow_sub₀ two_ne_zero]
    congr 1
    omega
  simp only [numerator, denominator, Nat.pow_eq]
  push_cast
  rw [mul_div_assoc, hpow]

/-- The value of a dyadic number is its fraction with the sign. -/
theorem value_eq (d : Dyadic) :
    d.value = if d.negative then -((d.numerator : ℚ) / d.denominator)
      else d.numerator / d.denominator := by
  rw [numerator_div_denominator]
  rfl

end Dyadic

end RobotProgram.Number
