import RobotProgram.Proofs.FloatArithmetic
import RobotProgram.Scalar

/-!
# Wrapped angles

An angle is moved into the interval from -180 to 180 degrees by a sum, a remainder and a difference,
each of which is rounded (`wrapUnits`). The remainder keeps a last place away from a whole turn
unless the sum is the least below zero that there is, `-2^-45`: an angle beyond -180 is a multiple
of that place (`turnRemainder_le`). So the open end of the interval is reached from one angle alone,
the number next to -180 on the far side. Every other wrapped angle has an exact distance from -180
(`fits_sub_half_turn`), and is wrapped to itself (`wrapUnits_of_fits`).
-/

namespace RobotProgram

namespace Number

/-! ### Last places of angles -/

/-- The last place of the angles from 64 degrees on, in units of the least positive number. -/
@[irreducible]
def angleStep : ℤ := 2 ^ 1028

/-- The last place is a power of two. -/
theorem exists_angleStep_eq : ∃ s, angleStep = 2 ^ s := ⟨1028, by rw [angleStep]⟩

/-- The last place is positive. -/
theorem angleStep_pos : 0 < angleStep := by
  obtain ⟨s, hs⟩ := exists_angleStep_eq
  rw [hs]
  positivity

/-- One degree in last places. -/
theorem unitsOfOne_eq : unitsOfOne = 2 ^ 46 * angleStep := by
  rw [unitsOfOne, angleStep, ← pow_add]

variable {n : ℤ}

/-- A float from 64 degrees on is a multiple of the last place, and of more if it is larger. -/
theorem Fits.step_dvd (h : Fits n) (k : ℕ) (hle : 2 ^ k * (64 * unitsOfOne) ≤ |n|) :
    2 ^ k * angleStep ∣ n := by
  rw [unitsOfOne_eq] at hle
  obtain ⟨s, hs⟩ := exists_angleStep_eq
  rw [hs] at hle ⊢
  rw [← pow_add]
  apply h.dvd
  refine le_of_eq_of_le ?_ hle
  ring

/-- A multiple of the last place, or of more, is a float if it is not too large. -/
theorem fits_of_step_dvd (k : ℕ) (h : 2 ^ k * angleStep ∣ n)
    (hle : |n| ≤ 2 ^ k * (128 * unitsOfOne)) : Fits n := by
  rw [unitsOfOne_eq] at hle
  obtain ⟨s, hs⟩ := exists_angleStep_eq
  rw [hs] at hle h
  rw [← pow_add] at h
  refine fits_of_dvd h (hle.trans_eq ?_)
  ring

/-- Whole angles are multiples of a few last places. -/
theorem step_dvd_unitsOfOne {k : ℕ} (hk : k ≤ 46) (m : ℤ) : 2 ^ k * angleStep ∣ m * unitsOfOne := by
  rw [unitsOfOne_eq]
  exact (mul_dvd_mul_right (pow_dvd_pow 2 hk) angleStep).mul_left m

/-! ### The three steps -/

/-- The remainder of the first sum, in a whole turn. -/
def turnRemainder (n : ℤ) : ℤ := rounded (n + 180 * unitsOfOne) % (360 * unitsOfOne)

/-- A wrapped angle, in units of the least positive number. -/
def wrapUnits (n : ℤ) : ℤ := rounded (rounded (turnRemainder n) - 180 * unitsOfOne)

/-- The number next to -180 on the far side. -/
def nextBelow : ℤ := -(180 * unitsOfOne + 2 * angleStep)

/-- The number next to -180 is not zero. -/
theorem nextBelow_ne_zero : nextBelow ≠ 0 := by
  have := unitsOfOne_pos
  have := angleStep_pos
  unfold nextBelow
  omega

/-- What remains of an angle after whole turns is not negative. -/
theorem turnRemainder_nonneg (n : ℤ) : 0 ≤ turnRemainder n :=
  Int.emod_nonneg _ (by have := unitsOfOne_pos; omega)

/-- What remains of an angle after whole turns is less than a turn. -/
theorem turnRemainder_lt (n : ℤ) : turnRemainder n < 360 * unitsOfOne :=
  Int.emod_lt_of_pos _ (by have := unitsOfOne_pos; omega)

/-- The remainder of a large sum is a multiple of the last place of a whole turn. -/
theorem turnRemainder_le_of_large (h : 256 * unitsOfOne ≤ |rounded (n + 180 * unitsOfOne)|) :
    turnRemainder n ≤ 360 * unitsOfOne - 4 * angleStep := by
  have hturn := step_dvd_unitsOfOne (k := 2) (by norm_num) 360
  have hsum := (fits_rounded (n + 180 * unitsOfOne)).step_dvd 2 (by linarith)
  have hdvd : 2 ^ 2 * angleStep ∣ turnRemainder n := by
    rw [turnRemainder, Int.emod_def]
    exact dvd_sub hsum (hturn.mul_right _)
  have hlt := turnRemainder_lt n
  have hgap := Int.le_of_dvd (by omega) (dvd_sub hturn hdvd)
  omega

/-- The remainder stays below a whole turn by its last place, unless the angle is the one next to
-180. -/
theorem turnRemainder_le (hn : Fits n) (hne : n ≠ nextBelow) :
    turnRemainder n ≤ 360 * unitsOfOne - 4 * angleStep := by
  have hstep := angleStep_pos
  have hone := unitsOfOne_eq
  obtain hlarge | hsmall := le_or_gt (256 * unitsOfOne) |rounded (n + 180 * unitsOfOne)|
  · exact turnRemainder_le_of_large hlarge
  obtain ⟨hlow, hhigh⟩ := abs_lt.mp hsmall
  obtain hnonneg | hneg := le_or_gt 0 (n + 180 * unitsOfOne)
  · have hremainder : turnRemainder n = rounded (n + 180 * unitsOfOne) :=
      Int.emod_eq_of_lt (rounded_nonneg hnonneg) (by omega)
    omega
  · -- Below -180 the angle is a multiple of its last place, and the sum is exact.
    have hangle : 2 ^ 1 * angleStep ∣ n := hn.step_dvd 1 (by rw [abs_of_neg (by omega)]; omega)
    have hdvd : 2 ^ 1 * angleStep ∣ -(n + 180 * unitsOfOne) :=
      (dvd_add hangle (step_dvd_unitsOfOne (by norm_num) 180)).neg_right
    have hfar : n + 180 * unitsOfOne ≤ -(4 * angleStep) := by
      have hfirst := Int.le_of_dvd (by omega) hdvd
      have hother : -(n + 180 * unitsOfOne) ≠ 2 * angleStep := by
        unfold nextBelow at hne
        omega
      have hsecond := Int.le_of_dvd (by omega) (dvd_sub_self_right.mpr hdvd)
      omega
    have hsum : rounded (n + 180 * unitsOfOne) ≤ -(4 * angleStep) := by
      refine rounded_le_of_fits hfar (fits_of_step_dvd 2 ⟨-1, by ring⟩ ?_)
      rw [abs_of_neg (by omega)]
      omega
    have hremainder : turnRemainder n = rounded (n + 180 * unitsOfOne) + 360 * unitsOfOne := by
      rw [turnRemainder, ← Int.add_emod_right, Int.emod_eq_of_lt (by omega) (by omega)]
    omega

/-- Half a turn is a size that a float has. -/
theorem fits_half_turn : Fits (180 * unitsOfOne) := fits_mul_unitsOfOne (by norm_num)

/-- A rounded remainder below a whole turn is moved down exactly, or to where moving up is exact. -/
theorem fits_sub_half_turn {b : ℤ} (hb : Fits b) (hnonneg : 0 ≤ b)
    (hle : b ≤ 360 * unitsOfOne - 4 * angleStep) :
    -(180 * unitsOfOne) ≤ rounded (b - 180 * unitsOfOne) ∧
      rounded (b - 180 * unitsOfOne) < 180 * unitsOfOne ∧
        Fits (rounded (b - 180 * unitsOfOne) + 180 * unitsOfOne) := by
  have hstep := angleStep_pos
  have hone := unitsOfOne_eq
  have hhalf (k : ℕ) (hk : k ≤ 46) := step_dvd_unitsOfOne hk 180
  obtain hsmall | hlarge := lt_or_ge b (64 * unitsOfOne)
  · -- From -180 to -116 degrees every number is a multiple of one step.
    have hlow : -(180 * unitsOfOne) ≤ rounded (b - 180 * unitsOfOne) :=
      le_rounded_of_fits (by omega) fits_half_turn.neg
    have hhigh : rounded (b - 180 * unitsOfOne) ≤ -116 * unitsOfOne :=
      rounded_le_of_fits (by omega) (fits_mul_unitsOfOne (by norm_num))
    refine ⟨hlow, by omega, ?_⟩
    have hdvd := (fits_rounded (b - 180 * unitsOfOne)).step_dvd 0
      (by rw [abs_of_neg (by omega)]; omega)
    refine fits_of_step_dvd 0 (dvd_add hdvd (hhalf 0 (by norm_num))) ?_
    rw [abs_of_nonneg (by omega)]
    omega
  · -- Above, the difference has no more places than the remainder.
    have hfits : Fits (b - 180 * unitsOfOne) := by
      obtain hshort | hlong := lt_or_ge b (256 * unitsOfOne)
      · have hdvd := hb.step_dvd 0 (by rw [abs_of_nonneg hnonneg]; omega)
        refine fits_of_step_dvd 0 (dvd_sub hdvd (hhalf 0 (by norm_num))) ?_
        rw [abs_le]
        omega
      · have hdvd := hb.step_dvd 1 (by rw [abs_of_nonneg hnonneg]; omega)
        refine fits_of_step_dvd 1 (dvd_sub hdvd (hhalf 1 (by norm_num))) ?_
        rw [abs_le]
        omega
    rw [rounded_of_fits hfits, sub_add_cancel]
    exact ⟨by omega, by omega, hb⟩

/-- A wrapped angle is in the closed interval. -/
theorem wrapUnits_mem (n : ℤ) :
    -(180 * unitsOfOne) ≤ wrapUnits n ∧ wrapUnits n ≤ 180 * unitsOfOne := by
  have hnonneg := rounded_nonneg (turnRemainder_nonneg n)
  have hle := rounded_le_of_fits (turnRemainder_lt n).le
    (fits_mul_unitsOfOne (by norm_num))
  exact ⟨le_rounded_of_fits (by omega) fits_half_turn.neg,
    rounded_le_of_fits (by omega) fits_half_turn⟩

/-- An angle of the interval is kept if its distance from -180 is exact: so are the other steps. -/
theorem wrapUnits_of_fits (hn : Fits n) (hsum : Fits (n + 180 * unitsOfOne))
    (hlow : -(180 * unitsOfOne) ≤ n) (hlt : n < 180 * unitsOfOne) : wrapUnits n = n := by
  have hremainder : turnRemainder n = n + 180 * unitsOfOne := by
    rw [turnRemainder, rounded_of_fits hsum, Int.emod_eq_of_lt (by omega) (by omega)]
  rw [wrapUnits, hremainder, rounded_of_fits hsum, add_sub_cancel_right, rounded_of_fits hn]

/-- A wrapped angle is below the open end, and is wrapped again to itself, unless the angle is the
one next to -180. -/
theorem wrapUnits_lt (hn : Fits n) (hne : n ≠ nextBelow) :
    wrapUnits n < 180 * unitsOfOne ∧ wrapUnits (wrapUnits n) = wrapUnits n := by
  have hstep := angleStep_pos
  have hone := unitsOfOne_eq
  have hbelow : Fits (360 * unitsOfOne - 4 * angleStep) := by
    refine fits_of_step_dvd 2 (dvd_sub (step_dvd_unitsOfOne (by norm_num) 360) (dvd_refl _)) ?_
    rw [abs_of_pos (by omega)]
    omega
  obtain ⟨hlow, hlt, hfits⟩ := fits_sub_half_turn (fits_rounded (turnRemainder n))
    (rounded_nonneg (turnRemainder_nonneg n))
    (rounded_le_of_fits (turnRemainder_le hn hne) hbelow)
  exact ⟨hlt, wrapUnits_of_fits (fits_rounded _) hfits hlow hlt⟩

end Number

/-! ### Wrapped floating-point numbers -/

namespace Scalar

open Number

/-- Half a turn as a float. -/
theorem hasUnits_180 : HasUnits (nat 180 : Float) (180 * unitsOfOne) :=
  hasUnits_whole (m := 180) (k := 45) (by norm_num) (by rfl)

/-- A whole turn as a float. -/
theorem hasUnits_360 : HasUnits (nat 360 : Float) (360 * unitsOfOne) :=
  hasUnits_whole (m := 360) (k := 44) (by norm_num) (by rfl)

/-- The number next to -180 as a float. -/
theorem hasUnits_nextBelow : HasUnits (-180.00000000000003) nextBelow := by
  refine ⟨⟨true, 180 * 2 ^ 45 + 1, -45⟩, by rfl, ?_⟩
  have hplace : (2 : ℤ) ^ (-45 + 1074 : ℤ).toNat = 2 * angleStep := by
    rw [angleStep, ← pow_succ']
    rfl
  rw [units_eq, Dyadic.size, hplace, nextBelow, unitsOfOne_eq]
  push_cast
  simp only [if_true]
  ring

variable {x x' : Float} {n n' : ℤ}

/-- The size of half a turn. -/
theorem abs_half_turn_le : |180 * unitsOfOne| ≤ 2 ^ 14 * unitsOfOne := by
  have := unitsOfOne_pos
  rw [abs_of_pos (by omega)]
  omega

/-- A wrapped number is known from its units, and zero has no sign. -/
theorem exists_wrapDegrees_eq (hx : HasUnits x n) :
    ∃ z, HasUnits z (wrapUnits n) ∧ wrapDegrees x = if wrapUnits n = 0 then 0.0 else z := by
  have hpos : 0 < 360 * unitsOfOne := by
    have := unitsOfOne_pos
    omega
  have hremainder := (hx.add_small abs_half_turn_le hasUnits_180).floorMod hasUnits_360 hpos
  have hwrapped := hremainder.sub_small abs_half_turn_le hasUnits_180
  have hzero : (Number.floorMod (x + nat 180) (nat 360) - nat 180 == (0.0 : Float)) = true ↔
      wrapUnits n = 0 := hwrapped.beq_iff hasUnits_zero
  refine ⟨_, hwrapped, ?_⟩
  change (if (Number.floorMod (x + nat 180) (nat 360) - nat 180 == (0.0 : Float)) = true
    then 0.0 else _) = _
  exact if_congr hzero rfl rfl

/-- A wrapped angle is the exact one, in units. -/
theorem hasUnits_wrapDegrees (hx : HasUnits x n) : HasUnits (wrapDegrees x) (wrapUnits n) := by
  obtain ⟨z, hz, heq⟩ := exists_wrapDegrees_eq hx
  rw [heq]
  split
  · rename_i hzero
    rw [hzero]
    exact hasUnits_zero
  · exact hz

/-- A wrapped angle is never the negative zero. -/
theorem wrapDegrees_ne_neg_zero (hx : HasUnits x n) : wrapDegrees x ≠ -0.0 := by
  intro hnegative
  have hwrapped := hasUnits_wrapDegrees hx
  obtain ⟨z, -, heq⟩ := exists_wrapDegrees_eq hx
  rw [hnegative] at hwrapped heq
  have hzero : wrapUnits n = 0 := hwrapped.unique (by simpa using hasUnits_zero.neg)
  rw [if_pos hzero] at heq
  exact absurd heq (by decide)

/-- Wrapped numbers are the same when their units are. -/
theorem wrapDegrees_eq_iff (hx : HasUnits x n) (hx' : HasUnits x' n') :
    wrapDegrees x = wrapDegrees x' ↔ wrapUnits n = wrapUnits n' := by
  constructor
  · intro h
    have hwrapped := hasUnits_wrapDegrees hx
    rw [h] at hwrapped
    exact hwrapped.unique (hasUnits_wrapDegrees hx')
  · intro h
    obtain ⟨z, hz, heq⟩ := exists_wrapDegrees_eq hx
    obtain ⟨z', hz', heq'⟩ := exists_wrapDegrees_eq hx'
    rw [heq, heq', ← h]
    split
    · rfl
    · exact hz.eq (h ▸ hz') ‹_›

/-- A finite angle is wrapped into the interval from -180 to 180 degrees, both included, and never
to a negative zero. It is below 180, and is kept when it is wrapped again, unless it comes from the
number next to -180 on the far side. -/
theorem wrapDegrees_halfOpen_iff (x : Float) (h : x.isFinite = true) :
    (-180.0 ≤ wrapDegrees x ∧ wrapDegrees x ≤ 180.0) ∧ wrapDegrees x ≠ -0.0 ∧
      (wrapDegrees x < 180.0 ↔ x ≠ -180.00000000000003) ∧
        (wrapDegrees (wrapDegrees x) = wrapDegrees x ↔ x ≠ -180.00000000000003) := by
  obtain ⟨n, hx⟩ := isFinite_iff_hasUnits.mp h
  have hwrapped := hasUnits_wrapDegrees hx
  have hend : HasUnits 180.0 (180 * unitsOfOne) := hasUnits_180
  obtain ⟨hlow, hhigh⟩ := wrapUnits_mem n
  refine ⟨⟨(hend.neg.le_iff hwrapped).mpr hlow, (hwrapped.le_iff hend).mpr hhigh⟩,
    wrapDegrees_ne_neg_zero hx, ?_⟩
  obtain rfl | hne := eq_or_ne x (-180.00000000000003)
  · decide
  · have hunits : n ≠ nextBelow := by
      rintro rfl
      exact hne (hx.eq hasUnits_nextBelow nextBelow_ne_zero)
    obtain ⟨hlt, hagain⟩ := wrapUnits_lt hx.fits hunits
    exact ⟨iff_of_true ((hwrapped.lt_iff hend).mpr hlt) hne,
      iff_of_true ((wrapDegrees_eq_iff hwrapped hx).mpr hagain) hne⟩

/-- The number next to -180 on the far side is wrapped to 180, and that to -180. -/
theorem wrapDegrees_halfOpen_iff_next :
    (-180.00000000000003 : Float).isFinite = true ∧
      ¬wrapDegrees (-180.00000000000003 : Float) < 180.0 ∧
        wrapDegrees (wrapDegrees (-180.00000000000003 : Float)) ≠
          wrapDegrees (-180.00000000000003) := by
  have hfinite : (-180.00000000000003 : Float).isFinite = true := by decide
  obtain ⟨-, -, hbelow, hagain⟩ := wrapDegrees_halfOpen_iff (-180.00000000000003) hfinite
  exact ⟨hfinite, fun h => hbelow.mp h rfl, fun h => hagain.mp h rfl⟩

end Scalar

end RobotProgram
