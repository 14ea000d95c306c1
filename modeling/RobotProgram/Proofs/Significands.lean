import RobotProgram.Proofs.HalfEven

/-!
# Rounding to significant bits

A floating-point number has 53 significant bits. Integers of more are rounded to the nearest one
that has no more, and a half goes to the even significand (`rounded`). An integer that has no more
is kept (`rounded_of_fits`), what comes out has no more (`fits_rounded`), and the order is kept
(`rounded_le`). The last place of an integer is the power of two that its significand counts; all
that is not smaller and has no more significant bits is a multiple of it (`Fits.dvd`).
-/

namespace RobotProgram.Number

/-- The exponent of the last place of an integer: its leading bit is 52 places above, unless the
integer is shorter. -/
def lastPlace (n : ℤ) : ℕ := n.natAbs.log2 - 52

/-- An integer rounded to 53 significant bits, a half going to the even significand. -/
def rounded (n : ℤ) : ℤ := nearestEven ((n : ℚ) / 2 ^ lastPlace n) * 2 ^ lastPlace n

/-- An integer of at most 53 significant bits. -/
def Fits (n : ℤ) : Prop := ∃ (m : ℤ) (p : ℕ), |m| < 2 ^ 53 ∧ n = m * 2 ^ p

variable {n n' : ℤ} {s : ℕ}

/-! ### The last place -/

/-- The last place is bounded by a bound of the number. -/
theorem lastPlace_le_iff : lastPlace n ≤ s ↔ |n| < 2 ^ (53 + s) := by
  have hplace : lastPlace n ≤ s ↔ n.natAbs.log2 < 53 + s := by
    unfold lastPlace
    omega
  have habs : |n| < 2 ^ (53 + s) ↔ n.natAbs < 2 ^ (53 + s) := by
    rw [Int.abs_eq_natAbs]
    exact_mod_cast Iff.rfl
  rw [hplace, habs]
  obtain rfl | hn := eq_or_ne n 0
  · exact iff_of_true (Nat.lt_of_lt_of_le (by decide) (Nat.le_add_right 53 s)) (Nat.two_pow_pos _)
  · exact Nat.log2_lt (Int.natAbs_ne_zero.mpr hn)

/-- A number has at most 53 bits from its last place on. -/
theorem abs_lt_two_pow (n : ℤ) : |n| < 2 ^ (53 + lastPlace n) := lastPlace_le_iff.mp le_rfl

/-- The last place does not depend on the sign. -/
theorem lastPlace_neg (n : ℤ) : lastPlace (-n) = lastPlace n := by
  rw [lastPlace, Int.natAbs_neg, lastPlace]

/-- Above the shortest integers the leading bit is 52 places above the last. -/
theorem le_lastPlace (h : 2 ^ (52 + s) ≤ |n|) : s ≤ lastPlace n := by
  by_contra hlt
  have hle : |n| < 2 ^ (53 + (s - 1)) := lastPlace_le_iff.mp (by omega)
  have hsum : 53 + (s - 1) = 52 + s := by omega
  rw [hsum] at hle
  exact absurd hle (not_lt.mpr h)

/-- A number that loses places has all 53 bits from its last place on. -/
theorem two_pow_le_abs (h : 0 < lastPlace n) : 2 ^ (52 + lastPlace n) ≤ |n| := by
  have hlt : ¬ lastPlace n ≤ lastPlace n - 1 := by omega
  rw [lastPlace_le_iff, not_lt] at hlt
  rwa [show 53 + (lastPlace n - 1) = 52 + lastPlace n by omega] at hlt

/-- The last place is known from bounds of the number. -/
theorem lastPlace_eq (hle : 2 ^ (52 + s) ≤ |n|) (hlt : |n| < 2 ^ (53 + s)) : lastPlace n = s :=
  le_antisymm (lastPlace_le_iff.mpr hlt) (le_lastPlace hle)

/-! ### Integers that fit -/

/-- Zero fits. -/
theorem fits_zero : Fits 0 := ⟨0, 0, by norm_num, by norm_num⟩

/-- A number of 53 bits fits in every place. -/
theorem fits_mul_two_pow {m : ℤ} (h : |m| ≤ 2 ^ 53) (p : ℕ) : Fits (m * 2 ^ p) := by
  obtain hlt | heq := h.lt_or_eq
  · exact ⟨m, p, hlt, rfl⟩
  · -- The next power of two is one bit in a higher place.
    obtain rfl | rfl := (abs_eq (by positivity)).mp heq
    · exact ⟨1, 53 + p, by norm_num, by ring⟩
    · exact ⟨-1, 53 + p, by norm_num, by ring⟩

/-- A multiple of a place that is not too large fits. -/
theorem fits_of_dvd (h : 2 ^ s ∣ n) (hle : |n| ≤ 2 ^ (53 + s)) : Fits n := by
  obtain ⟨m, rfl⟩ := h
  have hpos : (0 : ℤ) < 2 ^ s := by positivity
  rw [mul_comm]
  refine fits_mul_two_pow ?_ s
  rw [abs_mul, abs_of_pos hpos, pow_add, mul_comm] at hle
  exact le_of_mul_le_mul_right hle hpos

/-- An integer fits if it is a multiple of its last place. -/
theorem fits_iff : Fits n ↔ 2 ^ lastPlace n ∣ n := by
  refine ⟨fun ⟨m, p, hm, hn⟩ => ?_, fun h => fits_of_dvd h (abs_lt_two_pow n).le⟩
  have hplace : lastPlace n ≤ p := by
    rw [lastPlace_le_iff, hn, abs_mul, abs_of_pos (by positivity : (0 : ℤ) < 2 ^ p), pow_add]
    exact mul_lt_mul_of_pos_right hm (by positivity)
  nth_rewrite 2 [hn]
  exact (pow_dvd_pow 2 hplace).mul_left m

/-- The opposite of a number that fits does too. -/
theorem Fits.neg (h : Fits n) : Fits (-n) := by
  obtain ⟨m, p, hm, rfl⟩ := h
  exact ⟨-m, p, by rwa [abs_neg], by ring⟩

/-- What fits and is not smaller than a place is a multiple of the last place below. -/
theorem Fits.dvd (h : Fits n) (hle : 2 ^ (52 + s) ≤ |n|) : 2 ^ s ∣ n :=
  (pow_dvd_pow 2 (le_lastPlace hle)).trans (fits_iff.mp h)

/-! ### Rounding -/

/-- Rounding is to the nearest multiple of the last place. -/
theorem rounded_eq (hs : lastPlace n = s) : rounded n = nearestEven ((n : ℚ) / 2 ^ s) * 2 ^ s := by
  rw [rounded, hs]

/-- What fits is kept. -/
theorem rounded_of_fits (h : Fits n) : rounded n = n := by
  obtain ⟨m, hm⟩ := fits_iff.mp h
  have hquotient : (n : ℚ) / 2 ^ lastPlace n = m := by
    rw [div_eq_iff (by positivity)]
    exact_mod_cast hm.trans (mul_comm _ _)
  rw [rounded, hquotient, nearestEven_intCast, mul_comm, ← hm]

/-- Rounding keeps opposites. -/
theorem rounded_neg (n : ℤ) : rounded (-n) = -rounded n := by
  rw [rounded_eq (lastPlace_neg n), Int.cast_neg, neg_div, nearestEven_neg, neg_mul, rounded]

/-- Rounding keeps the bounds that are multiples of the last place. -/
theorem rounded_le_mul {k : ℤ} (h : n ≤ k * 2 ^ lastPlace n) : rounded n ≤ k * 2 ^ lastPlace n := by
  have hquotient : (n : ℚ) / 2 ^ lastPlace n ≤ k := by
    rw [div_le_iff₀ (by positivity)]
    exact_mod_cast h
  have hnear := nearestEven_le hquotient
  rw [nearestEven_intCast] at hnear
  exact mul_le_mul_of_nonneg_right hnear (by positivity)

/-- Rounding does not pass below a multiple of the last place. -/
theorem mul_le_rounded {k : ℤ} (h : k * 2 ^ lastPlace n ≤ n) : k * 2 ^ lastPlace n ≤ rounded n := by
  rw [← neg_le_neg_iff, ← rounded_neg, ← neg_mul, ← lastPlace_neg n]
  apply rounded_le_mul
  rw [lastPlace_neg, neg_mul]
  exact neg_le_neg h

/-- Rounding does not pass below zero. -/
theorem rounded_nonneg (h : 0 ≤ n) : 0 ≤ rounded n := by
  have hbound := mul_le_rounded (n := n) (k := 0) (by rwa [zero_mul])
  rwa [zero_mul] at hbound

/-- Rounding keeps sizes. -/
theorem abs_rounded (n : ℤ) : |rounded n| = rounded |n| := by
  obtain hn | hn := le_total 0 n
  · rw [abs_of_nonneg hn, abs_of_nonneg (rounded_nonneg hn)]
  · have hneg := rounded_nonneg (neg_nonneg.mpr hn)
    rw [abs_of_nonpos hn, ← abs_of_nonneg hneg, rounded_neg, abs_neg]

/-- Rounding keeps the order of positive numbers. -/
theorem rounded_le_of_nonneg (h : 0 ≤ n) (hle : n ≤ n') : rounded n ≤ rounded n' := by
  have hlt := (le_abs_self n).trans_lt (abs_lt_two_pow n)
  have hlt' := hle.trans_lt ((le_abs_self n').trans_lt (abs_lt_two_pow n'))
  have hplaces : lastPlace n ≤ lastPlace n' := lastPlace_le_iff.mpr (by rwa [abs_of_nonneg h])
  obtain hless | heq := hplaces.lt_or_eq
  · -- A power of two stands between them.
    have hlow : rounded n ≤ 2 ^ 53 * 2 ^ lastPlace n := by
      apply rounded_le_mul
      rw [← pow_add]
      exact hlt.le
    have hhigh : 2 ^ 52 * 2 ^ lastPlace n' ≤ rounded n' := by
      apply mul_le_rounded
      rw [← pow_add]
      exact (two_pow_le_abs (by omega)).trans_eq (abs_of_nonneg (h.trans hle))
    refine hlow.trans (le_trans ?_ hhigh)
    rw [← pow_add, ← pow_add]
    exact pow_le_pow_right₀ (by norm_num) (by omega)
  · rw [rounded_eq heq, rounded]
    refine mul_le_mul_of_nonneg_right (nearestEven_le ?_) (by positivity)
    exact div_le_div_of_nonneg_right (by exact_mod_cast hle) (by positivity)

/-- Rounding keeps the order. -/
theorem rounded_le (h : n ≤ n') : rounded n ≤ rounded n' := by
  obtain hn | hn := le_total 0 n
  · exact rounded_le_of_nonneg hn h
  · obtain hn' | hn' := le_total 0 n'
    · have hlow := rounded_nonneg (neg_nonneg.mpr hn)
      rw [rounded_neg] at hlow
      exact (neg_nonneg.mp hlow).trans (rounded_nonneg hn')
    · have hflip := rounded_le_of_nonneg (neg_nonneg.mpr hn') (neg_le_neg h)
      rw [rounded_neg, rounded_neg] at hflip
      exact neg_le_neg_iff.mp hflip

/-- Rounding does not pass above a number that fits. -/
theorem rounded_le_of_fits (h : n ≤ n') (hn' : Fits n') : rounded n ≤ n' :=
  rounded_of_fits hn' ▸ rounded_le h

/-- Rounding does not pass below a number that fits. -/
theorem le_rounded_of_fits (h : n ≤ n') (hn : Fits n) : n ≤ rounded n' :=
  rounded_of_fits hn ▸ rounded_le h

/-- What is rounded fits. -/
theorem fits_rounded (n : ℤ) : Fits (rounded n) := by
  refine fits_mul_two_pow ?_ _
  obtain ⟨hlow, hhigh⟩ := abs_le.mp (abs_lt_two_pow n).le
  rw [pow_add] at hlow hhigh
  have hpos : (0 : ℤ) < 2 ^ lastPlace n := by positivity
  have habove := rounded_le_mul hhigh
  have hbelow := mul_le_rounded (n := n) (k := -2 ^ 53) (by rwa [neg_mul])
  rw [rounded] at habove hbelow
  exact abs_le.mpr ⟨le_of_mul_le_mul_right hbelow hpos, le_of_mul_le_mul_right habove hpos⟩

/-- Rounding moves a number by half a unit of the last place at most. -/
theorem abs_rounded_sub_le (hs : lastPlace n ≤ s) : 2 * |rounded n - n| ≤ 2 ^ s := by
  have hpos : (0 : ℚ) < 2 ^ lastPlace n := by positivity
  have hnear := (isNearestEven_nearestEven ((n : ℚ) / 2 ^ lastPlace n)).near
  have hsub : (n : ℚ) / 2 ^ lastPlace n - nearestEven ((n : ℚ) / 2 ^ lastPlace n) =
      ((n - rounded n : ℤ) : ℚ) / 2 ^ lastPlace n := by
    rw [rounded]
    push_cast
    field_simp
  rw [hsub, abs_div, abs_of_pos hpos, div_le_div_iff₀ hpos (by norm_num), one_mul] at hnear
  rw [abs_sub_comm, mul_comm]
  have hplace : |n - rounded n| * 2 ≤ 2 ^ lastPlace n := by exact_mod_cast hnear
  exact hplace.trans (pow_le_pow_right₀ (by norm_num) hs)

/-- Below a power of two there is room for less than half a unit of the last place. -/
theorem abs_rounded_add_lt {a b : ℤ} (ha : Fits a) (hlt : |a| < 2 ^ (53 + s))
    (hb : 2 * |b| < 2 ^ s) : |rounded (a + b)| < 2 ^ (53 + s) := by
  have hpos : (0 : ℤ) < 2 ^ s := by positivity
  have htop : (2 : ℤ) ^ (53 + s) = 2 ^ 53 * 2 ^ s := pow_add 2 53 s
  have hhalf : (2 : ℤ) ^ (52 + s) = 2 ^ 52 * 2 ^ s := pow_add 2 52 s
  have hroom : |a| ≤ 2 ^ (53 + s) - 2 ^ s := by
    obtain hle | hshort := le_or_gt (2 ^ (52 + s)) |a|
    · -- A multiple of the last place is a whole unit below.
      obtain ⟨k, hk⟩ := (dvd_abs _ _).mpr (ha.dvd hle)
      rw [hk, htop, mul_comm (2 ^ 53)] at hlt
      have hless : k + 1 ≤ 2 ^ 53 := lt_of_mul_lt_mul_left hlt hpos.le
      have hmul := mul_le_mul_of_nonneg_left hless hpos.le
      rw [hk]
      linarith
    · linarith
  have hsum := abs_add_le a b
  have hplace : lastPlace (a + b) ≤ s := lastPlace_le_iff.mpr (by omega)
  have hnear := abs_rounded_sub_le hplace
  have htotal := abs_add_le (rounded (a + b) - (a + b)) (a + b)
  rw [sub_add_cancel] at htotal
  omega

/-- A number is rounded to the multiple of its last place that is nearer than half a unit. -/
theorem rounded_eq_of_near {k : ℤ} (hs : lastPlace n = s) (h : 2 * |n - k * 2 ^ s| < 2 ^ s) :
    rounded n = k * 2 ^ s := by
  have hpos : (0 : ℚ) < 2 ^ s := by positivity
  have hquotient : |(n : ℚ) / 2 ^ s - k| < 1 / 2 := by
    have hsub : (n : ℚ) / 2 ^ s - k = ((n - k * 2 ^ s : ℤ) : ℚ) / 2 ^ s := by
      push_cast
      field_simp
    rw [hsub, abs_div, abs_of_pos hpos, div_lt_div_iff₀ hpos (by norm_num), one_mul, mul_comm]
    exact_mod_cast h
  rw [rounded_eq hs, nearestEven_eq_iff.mpr ⟨hquotient.le, fun htie => absurd htie hquotient.ne⟩]

/-- Rounding does not depend on the unit, if it is a power of two. -/
theorem rounded_mul_two_pow (n : ℤ) (p : ℕ) : rounded (n * 2 ^ p) = rounded n * 2 ^ p := by
  have habs : |n * 2 ^ p| = |n| * 2 ^ p := by
    rw [abs_mul, abs_of_pos (by positivity : (0 : ℤ) < 2 ^ p)]
  obtain hzero | hpos := (lastPlace n).eq_zero_or_pos
  · -- A short number fits in any unit.
    have hshort : |n| ≤ 2 ^ 53 := (lastPlace_le_iff.mp hzero.le).le
    have hfits : Fits n := by simpa using fits_mul_two_pow hshort 0
    rw [rounded_of_fits hfits, rounded_of_fits (fits_mul_two_pow hshort p)]
  · have hplace : lastPlace (n * 2 ^ p) = lastPlace n + p := by
      apply lastPlace_eq
      · rw [habs, ← add_assoc, pow_add]
        exact mul_le_mul_of_nonneg_right (two_pow_le_abs hpos) (by positivity)
      · rw [habs, ← add_assoc, pow_add]
        exact mul_lt_mul_of_pos_right (abs_lt_two_pow n) (by positivity)
    have hquotient : ((n * 2 ^ p : ℤ) : ℚ) / 2 ^ (lastPlace n + p) = n / 2 ^ lastPlace n := by
      push_cast
      rw [pow_add, mul_div_mul_right _ _ (by positivity)]
    rw [rounded_eq hplace, hquotient, rounded, pow_add, mul_assoc]

/-- The rounded quotient by the last place, for natural numbers. -/
theorem rounded_natCast {N : ℕ} (hs : lastPlace N = s) :
    rounded N = (roundDiv N (2 ^ s) * 2 ^ s : ℕ) := by
  have hdiv := nearestEven_div N (Nat.two_pow_pos s)
  push_cast at hdiv ⊢
  rw [rounded_eq hs, Int.cast_natCast, hdiv]

end RobotProgram.Number
