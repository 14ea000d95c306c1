import Mathlib.Analysis.SpecialFunctions.Complex.Arg
import Mathlib.Analysis.SpecialFunctions.Trigonometric.Inverse
import RobotProgram.Scalar

/-!
# Real scalars

The real numbers are scalars, so that geometry and kinematics can be read without rounding. Every
real number is finite, and the angle of a point is the argument of its complex number.

Each operation of the interface has a `simp` lemma that gives it in the words of real analysis. Two
facts are about angles: `atan2` inverts the sine and cosine of any circle (`cos_atan2`,
`sin_atan2`), and wrapping an angle in degrees changes it by whole turns (`radians_wrapDegrees`).
-/

namespace RobotProgram

/-- Real numbers are scalars. -/
noncomputable instance : Scalar ℝ where
  nat n := n
  sqrt := Real.sqrt
  sin := Real.sin
  cos := Real.cos
  acos := Real.arccos
  atan2 y x := Complex.arg ⟨x, y⟩
  pi := Real.pi
  lt x y := decide (x < y)
  le x y := decide (x ≤ y)
  eq x y := decide (x = y)
  floorMod x y := x - y * ⌊x / y⌋
  finite _ := true
  infinite _ := false

namespace Scalar

/-- Natural numbers are those of the reals. -/
@[simp] theorem nat_real (n : ℕ) : (nat n : ℝ) = n := rfl

/-- The root is that of the reals. -/
@[simp] theorem sqrt_real (x : ℝ) : sqrt x = √x := rfl

/-- The sine is that of the reals. -/
@[simp] theorem sin_real (x : ℝ) : sin x = Real.sin x := rfl

/-- The cosine is that of the reals. -/
@[simp] theorem cos_real (x : ℝ) : cos x = Real.cos x := rfl

/-- The arc cosine is that of the reals. -/
@[simp] theorem acos_real (x : ℝ) : acos x = Real.arccos x := rfl

/-- The half circle is that of the reals. -/
@[simp] theorem pi_real : (pi : ℝ) = Real.pi := rfl

/-- Reals are compared as such. -/
@[simp] theorem lt_real (x y : ℝ) : lt x y = decide (x < y) := rfl

/-- Reals are compared weakly as such. -/
@[simp] theorem le_real (x y : ℝ) : le x y = decide (x ≤ y) := rfl

/-- Reals are equal as such. -/
@[simp] theorem eq_real (x y : ℝ) : eq x y = decide (x = y) := rfl

/-- Every real is finite. -/
@[simp] theorem finite_real (x : ℝ) : finite x = true := rfl

/-- No real is infinite. -/
@[simp] theorem infinite_real (x : ℝ) : infinite x = false := rfl

/-- Ratios are those of the reals. -/
@[simp] theorem ratio_real (p q : ℕ) : (ratio p q : ℝ) = p / q := rfl

/-- Degrees are turned into radians by a factor. -/
@[simp] theorem radians_real (x : ℝ) : radians x = x * (Real.pi / 180) := by
  simp [radians]

/-- Radians are turned into degrees by a factor. -/
@[simp] theorem degrees_real (x : ℝ) : degrees x = x * (180 / Real.pi) := by
  simp [degrees]

/-- The size is that of the reals. -/
@[simp]
theorem abs_real (x : ℝ) : Scalar.abs x = |x| := by
  by_cases h : x < 0
  · simp [Scalar.abs, h, abs_of_neg h]
  · simp [Scalar.abs, h, abs_of_nonneg (not_lt.mp h)]

/-- The lesser of two numbers is that of the reals. -/
@[simp]
theorem least_real (x y : ℝ) : least x y = min x y := by
  by_cases h : y < x
  · simp [least, h, min_eq_right h.le]
  · simp [least, h, min_eq_left (not_lt.mp h)]

/-- The greater of two numbers is that of the reals. -/
@[simp]
theorem greatest_real (x y : ℝ) : greatest x y = max x y := by
  by_cases h : x < y
  · simp [greatest, h, max_eq_right h.le]
  · simp [greatest, h, max_eq_left (not_lt.mp h)]

/-! ### Angles -/

/-- The length of a complex number on a circle is its radius. -/
theorem norm_mk_of_circle {x y r : ℝ} (hr : 0 < r) (h : x * x + y * y = r * r) :
    ‖(⟨x, y⟩ : ℂ)‖ = r := by
  rw [Complex.norm_def, Complex.normSq_mk, h, Real.sqrt_mul_self hr.le]

/-- The cosine of the angle of a point on a circle. -/
theorem cos_atan2 {x y r : ℝ} (hr : 0 < r) (h : x * x + y * y = r * r) :
    Real.cos (atan2 y x) = x / r := by
  have hnorm := norm_mk_of_circle hr h
  have hne : (⟨x, y⟩ : ℂ) ≠ 0 := by
    rw [← norm_ne_zero_iff, hnorm]
    exact hr.ne'
  rw [← hnorm]
  exact Complex.cos_arg hne

/-- The sine of the angle of a point on a circle. -/
theorem sin_atan2 {x y r : ℝ} (hr : 0 < r) (h : x * x + y * y = r * r) :
    Real.sin (atan2 y x) = y / r := by
  rw [← norm_mk_of_circle hr h]
  exact Complex.sin_arg _

/-- The angle of a point is more than minus a half turn. -/
theorem neg_degrees_atan2_lt (x y : ℝ) : -degrees (atan2 y x) < 180 := by
  have hangle : -Real.pi < atan2 y x := Complex.neg_pi_lt_arg _
  have hpi := Real.pi_pos
  rw [degrees_real, mul_div_assoc', ← neg_div, div_lt_iff₀ hpi]
  linarith

/-- Wrapping an angle takes away whole turns. -/
theorem wrapDegrees_real (x : ℝ) :
    wrapDegrees x = x - 360 * (⌊(x + 180) / 360⌋ : ℤ) := by
  have hmod : floorMod (x + nat 180) (nat 360) - nat 180 =
      x - 360 * (⌊(x + 180) / 360⌋ : ℤ) := by
    change (x + (180 : ℕ)) - (360 : ℕ) * (⌊(x + (180 : ℕ)) / (360 : ℕ)⌋ : ℤ) - (180 : ℕ) = _
    push_cast
    ring
  unfold wrapDegrees
  simp only [hmod]
  split_ifs with h
  · simpa using (of_decide_eq_true h).symm
  · rfl

/-- A wrapped angle in degrees is the angle in radians up to whole turns. -/
theorem radians_wrapDegrees (q : ℝ) :
    ∃ k : ℤ, radians (wrapDegrees (degrees q)) = q + k * (2 * Real.pi) := by
  refine ⟨-⌊(degrees q + 180) / 360⌋, ?_⟩
  have hpi : Real.pi ≠ 0 := Real.pi_ne_zero
  rw [wrapDegrees_real]
  generalize ⌊(degrees q + 180) / 360⌋ = k
  simp only [radians_real, degrees_real, Int.cast_neg]
  field_simp
  ring

end Scalar

end RobotProgram
