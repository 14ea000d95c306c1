import RobotProgram.Proofs.OrientationError
import RobotProgram.Kinematics.Subproblem

/-!
# Rotation subproblems

What the three subproblems of the closed form solve. A point is turned onto another that has the
same place along the axis and the same distance from it (`rotation_turnOnto`). A rotation that puts
a point at a distance from another is found, up to a reflection that does not change the distance
(`exists_turnToDistance`). A vector that is perpendicular to one of two perpendicular axes is turned
about it and then about the other (`exists_turnTwice`).

Vectors that are too short to have a direction are left out by the guards of each subproblem.
-/

namespace RobotProgram

/-! ### Parts of a vector along and across an axis -/

namespace Vector3

variable {w : Vector3 ℝ}

/-- The part of a vector across an axis is what is left of it without the part along the axis. -/
theorem reject_eq (a w : Vector3 ℝ) : a.reject w = a - w.scale (w.dot a) := rfl

/-- The part across an axis is perpendicular to it. -/
theorem dot_reject (hw : w.dot w = 1) (a : Vector3 ℝ) : w.dot (a.reject w) = 0 := by
  simp only [reject_eq, dot_eq, sub_x, sub_y, sub_z, scale_x, scale_y, scale_z] at hw ⊢
  linear_combination -(w.x * a.x + w.y * a.y + w.z * a.z) * hw

/-- The square of the part across an axis. -/
theorem dot_self_reject (hw : w.dot w = 1) (a : Vector3 ℝ) :
    (a.reject w).dot (a.reject w) = a.dot a - w.dot a * w.dot a := by
  simp only [reject_eq, dot_eq, sub_x, sub_y, sub_z, scale_x, scale_y, scale_z] at hw ⊢
  linear_combination (w.x * a.x + w.y * a.y + w.z * a.z) ^ 2 * hw

/-- Vectors of one length that agree along an axis have one length across it. -/
theorem norm_reject_eq {a b : Vector3 ℝ} (hw : w.dot w = 1) (halong : w.dot a = w.dot b)
    (hsquare : a.dot a = b.dot b) : (a.reject w).norm = (b.reject w).norm := by
  rw [norm_eq_norm_iff, dot_self_reject hw, dot_self_reject hw, halong, hsquare]

/-- A vector perpendicular to an axis lies across it. -/
theorem reject_of_dot_eq_zero {a : Vector3 ℝ} (h : w.dot a = 0) : a.reject w = a := by
  rw [reject_eq, h]
  ext <;> simp

/-- A vector is the sum of its parts across and along an axis. -/
theorem eq_reject_add (a w : Vector3 ℝ) : a = a.reject w + w.scale (w.dot a) := by
  rw [reject_eq]
  ext <;> simp

/-- Vectors across an axis have their vector product along it. -/
theorem cross_eq_scale {u v : Vector3 ℝ} (hw : w.dot w = 1) (hu : w.dot u = 0)
    (hv : w.dot v = 0) : u.cross v = w.scale (w.dot (u.cross v)) := by
  have hzero : w.cross (u.cross v) = ⟨0, 0, 0⟩ := by
    rw [dot_eq] at hu hv
    ext <;> simp only [cross_x, cross_y, cross_z]
    · linear_combination u.x * hv - v.x * hu
    · linear_combination u.y * hv - v.y * hu
    · linear_combination u.z * hv - v.z * hu
  have hparallel := scale_of_cross_eq_zero hzero
  rw [hw] at hparallel
  rw [← hparallel]
  ext <;> simp

/-- Vectors across two perpendicular axes are parallel. -/
theorem cross_eq_zero {w' u v : Vector3 ℝ} (hw : w.dot w = 1) (hw' : w'.dot w' = 1)
    (hperp : w.dot w' = 0) (hu : w.dot u = 0) (hv : w.dot v = 0) (hu' : w'.dot u = 0)
    (hv' : w'.dot v = 0) : u.cross v = ⟨0, 0, 0⟩ := by
  refine eq_zero_of_dot_self ?_
  calc (u.cross v).dot (u.cross v)
      = (w.scale (w.dot (u.cross v))).dot (w'.scale (w'.dot (u.cross v))) := by
        rw [← cross_eq_scale hw hu hv, ← cross_eq_scale hw' hu' hv']
    _ = w.dot (u.cross v) * w'.dot (u.cross v) * w.dot w' := by
        simp only [dot_eq, scale_x, scale_y, scale_z]
        ring
    _ = 0 := by rw [hperp, mul_zero]

/-- What a vector has across an axis is across what both are across. -/
theorem dot_reject_of_perpendicular {w' a : Vector3 ℝ} (hperp : w'.dot w = 0)
    (ha : w'.dot a = 0) : w'.dot (a.reject w) = 0 := by
  simp only [reject_eq, dot_eq, sub_x, sub_y, sub_z, scale_x, scale_y, scale_z] at hperp ha ⊢
  linear_combination ha - (w.x * a.x + w.y * a.y + w.z * a.z) * hperp

/-- Sine and cosine of the angle between vectors across an axis, both times their lengths. -/
theorem dot_sq_add_dot_cross_sq {u v : Vector3 ℝ} (hw : w.dot w = 1) (hu : w.dot u = 0)
    (hv : w.dot v = 0) :
    u.dot v * u.dot v + w.dot (u.cross v) * w.dot (u.cross v) =
      u.norm * v.norm * (u.norm * v.norm) := by
  have hcross : (u.cross v).dot (u.cross v) = w.dot (u.cross v) * w.dot (u.cross v) := by
    nth_rewrite 1 [cross_eq_scale hw hu hv]
    simp only [dot_eq, scale_x, scale_y, scale_z]
    ring
  rw [← hcross, mul_mul_mul_comm, norm_mul_self, norm_mul_self]
  simp only [dot_eq, cross_x, cross_y, cross_z]
  ring

end Vector3

open RobotProgram.Vector3 RobotProgram.Matrix4

/-- A rotation turns a vector across its axis within the plane across the axis. -/
theorem Matrix4.spin_turn_across {w u : Vector3 ℝ} (hu : w.dot u = 0) (θ : ℝ) :
    (spin w θ).turn u = u.scale (Real.cos θ) + (w.cross u).scale (Real.sin θ) := by
  rw [spin_turn, hu]
  ext <;> simp

/-- Only what a vector has across the axis is turned. -/
theorem Matrix4.spin_turn_eq_add {w : Vector3 ℝ} (hw : w.dot w = 1) (θ : ℝ) (a : Vector3 ℝ) :
    (spin w θ).turn a = (spin w θ).turn (a.reject w) + w.scale (w.dot a) := by
  nth_rewrite 1 [eq_reject_add a w]
  rw [turn_add, turn_scale, spin_turn_axis hw]

/-- What a point has across the axis turns with the point. -/
theorem Matrix4.reject_rotation_apply {w : Vector3 ℝ} (hw : w.dot w = 1) (θ : ℝ)
    (o p : Vector3 ℝ) :
    ((rotation w θ o).apply p - o).reject w = (spin w θ).turn ((p - o).reject w) := by
  rw [rotation_apply_sub hw, reject_eq, dot_spin_turn hw, reject_eq (p - o), turn_sub _ (p - o),
    turn_scale, spin_turn_axis hw]

namespace Kinematics

/-- The least distance that counts is not zero. -/
theorem tiny_pos : 0 < (tiny : ℝ) := by
  norm_num [tiny]

/-- A unit vector is long enough to have a direction. -/
theorem tiny_le_norm {a : Vector3 ℝ} (ha : a.dot a = 1) : tiny ≤ a.norm := by
  rw [norm_eq_one_iff.mpr ha]
  norm_num [tiny]

/-- The angle about an axis from one vector across it to another. -/
noncomputable def angleAbout (w u v : Vector3 ℝ) : ℝ :=
  Scalar.atan2 (w.dot (u.cross v)) (u.dot v)

section AngleAbout

variable {w u v : Vector3 ℝ}

/-- The cosine of the angle between two vectors across an axis. -/
theorem cos_angleAbout (hw : w.dot w = 1) (hu : w.dot u = 0) (hv : w.dot v = 0)
    (hpos : 0 < u.norm * v.norm) : Real.cos (angleAbout w u v) = u.dot v / (u.norm * v.norm) :=
  Scalar.cos_atan2 hpos (dot_sq_add_dot_cross_sq hw hu hv)

/-- The sine of the angle between two vectors across an axis. -/
theorem sin_angleAbout (hw : w.dot w = 1) (hu : w.dot u = 0) (hv : w.dot v = 0)
    (hpos : 0 < u.norm * v.norm) :
    Real.sin (angleAbout w u v) = w.dot (u.cross v) / (u.norm * v.norm) :=
  Scalar.sin_atan2 hpos (dot_sq_add_dot_cross_sq hw hu hv)

/-- Vectors of one length across an axis are turned onto each other by the angle between them. -/
theorem spin_angleAbout_turn (hw : w.dot w = 1) (hu : w.dot u = 0) (hv : w.dot v = 0)
    (hnorm : u.norm = v.norm) (hpos : 0 < v.norm) : (spin w (angleAbout w u v)).turn u = v := by
  have hprod : 0 < u.norm * v.norm := by
    rw [hnorm]
    exact mul_pos hpos hpos
  have hlength : u.norm * v.norm = u.dot u := by rw [← hnorm, norm_mul_self]
  have hne : u.dot u ≠ 0 := by
    rw [← hlength]
    exact hprod.ne'
  rw [spin_turn_across hu, cos_angleAbout hw hu hv hprod, sin_angleAbout hw hu hv hprod, hlength]
  -- The triple product `(u × v) × u` gives what `v` has across `u`.
  have hcross := cross_eq_scale hw hu hv
  generalize w.dot (u.cross v) = k at *
  simp only [Vector3.ext_iff, scale_x, scale_y, scale_z, cross_x, cross_y, cross_z] at hcross
  obtain ⟨hx, hy, hz⟩ := hcross
  ext
  · simp only [add_x, scale_x, cross_x]
    field_simp
    simp only [dot_eq]
    linear_combination u.y * hz - u.z * hy
  · simp only [add_y, scale_y, cross_y]
    field_simp
    simp only [dot_eq]
    linear_combination u.z * hx - u.x * hz
  · simp only [add_z, scale_z, cross_z]
    field_simp
    simp only [dot_eq]
    linear_combination u.x * hy - u.y * hx

/-- The angle to a vector that is turned, and scaled, is the angle by which it is turned. -/
theorem angleAbout_of_turned {θ k : ℝ} (hw : w.dot w = 1) (hu : w.dot u = 0) (hk : 0 < k)
    (hpos : 0 < u.norm) (h : v = ((spin w θ).turn u).scale k) :
    Real.cos (angleAbout w u v) = Real.cos θ ∧ Real.sin (angleAbout w u v) = Real.sin θ := by
  have hlength : 0 < k * u.dot u := by
    rw [← norm_mul_self]
    exact mul_pos hk (mul_pos hpos hpos)
  rw [spin_turn_across hu] at h
  have hdot : u.dot v = k * u.dot u * Real.cos θ := by
    rw [h]
    simp only [dot_eq, add_x, add_y, add_z, scale_x, scale_y, scale_z, cross_x, cross_y, cross_z]
    ring
  have hcross : w.dot (u.cross v) = k * u.dot u * Real.sin θ := by
    rw [h]
    simp only [dot_eq, add_x, add_y, add_z, scale_x, scale_y, scale_z, cross_x, cross_y,
      cross_z] at hw hu ⊢
    linear_combination (k * Real.sin θ * (u.x * u.x + u.y * u.y + u.z * u.z)) * hw -
      k * Real.sin θ * (w.x * u.x + w.y * u.y + w.z * u.z) * hu
  have hcircle : k * u.dot u * Real.cos θ * (k * u.dot u * Real.cos θ) +
      k * u.dot u * Real.sin θ * (k * u.dot u * Real.sin θ) = k * u.dot u * (k * u.dot u) := by
    linear_combination (k * u.dot u) ^ 2 * Real.sin_sq_add_cos_sq θ
  rw [angleAbout, hdot, hcross, Scalar.cos_atan2 hlength hcircle, Scalar.sin_atan2 hlength hcircle,
    mul_div_cancel_left₀ _ hlength.ne', mul_div_cancel_left₀ _ hlength.ne']
  exact ⟨rfl, rfl⟩

/-- The scalar product of a vector that turns with one that does not, both across the axis. -/
theorem dot_spin_turn_across (hw : w.dot w = 1) (hu : w.dot u = 0) (hv : w.dot v = 0)
    (hpos : 0 < u.norm * v.norm) (θ : ℝ) :
    ((spin w θ).turn u).dot v = u.norm * v.norm * Real.cos (θ - angleAbout w u v) := by
  have hne := hpos.ne'
  rw [spin_turn_across hu, Real.cos_sub, cos_angleAbout hw hu hv hpos,
    sin_angleAbout hw hu hv hpos]
  generalize u.norm * v.norm = r at *
  field_simp
  simp only [dot_eq, add_x, add_y, add_z, scale_x, scale_y, scale_z, cross_x, cross_y, cross_z]
  ring

end AngleAbout

/-! ### Turning a point onto another -/

section TurnOnto

variable {w p q o : Vector3 ℝ}

/-- Points that are clear of the axis are turned by the angle between their parts across it. -/
theorem turnOnto_eq (hp : tiny ≤ ((p - o).reject w).norm) (hq : tiny ≤ ((q - o).reject w).norm) :
    turnOnto p q w o = angleAbout w ((p - o).reject w) ((q - o).reject w) := by
  simp [turnOnto, angleAbout, not_lt.mpr hp, not_lt.mpr hq]

/-- A point that is too near to the axis is not turned. -/
theorem turnOnto_of_short (hp : ((p - o).reject w).norm < tiny) : turnOnto p q w o = 0 := by
  simp [turnOnto, hp]

/-- A point is turned onto itself by no angle. -/
theorem turnOnto_self (p w o : Vector3 ℝ) : turnOnto p p w o = 0 := by
  by_cases hp : ((p - o).reject w).norm < tiny
  · exact turnOnto_of_short hp
  · rw [turnOnto_eq (not_lt.mp hp) (not_lt.mp hp)]
    have hcross (u : Vector3 ℝ) : w.dot (u.cross u) = 0 := by
      simp only [dot_eq, cross_x, cross_y, cross_z]
      ring
    rw [angleAbout, hcross]
    exact Complex.arg_ofReal_of_nonneg (dot_self_nonneg _)

/-- A point is turned onto another that has the same place along the axis and the same distance
from it, unless they are too near to the axis. -/
theorem rotation_turnOnto (hw : w.dot w = 1) (halong : w.dot (p - o) = w.dot (q - o))
    (hnorm : ((p - o).reject w).norm = ((q - o).reject w).norm)
    (hq : tiny ≤ ((q - o).reject w).norm) :
    (rotation w (turnOnto p q w o) o).apply p = q := by
  have hturn := spin_angleAbout_turn hw (dot_reject hw (p - o)) (dot_reject hw (q - o)) hnorm
    (tiny_pos.trans_le hq)
  rw [turnOnto_eq (hnorm ▸ hq) hq, rotation_apply hw]
  rw [spin_turn_eq_add hw _ (p - o), hturn, halong, ← eq_reject_add]
  ext <;> simp

/-- The same for directions, which are turned about an axis through the origin. Directions along the
axis are not turned. -/
theorem spin_turnOnto {a b : Vector3 ℝ} (hw : w.dot w = 1) (halong : w.dot a = w.dot b)
    (hsquare : a.dot a = b.dot b)
    (hb : b.reject w = ⟨0, 0, 0⟩ ∨ tiny ≤ (b.reject w).norm) :
    (spin w (turnOnto a b w .zero)).turn a = b := by
  have hnorm := norm_reject_eq hw halong hsquare
  obtain hb | hb := hb
  · -- Both directions are along the axis, so they are equal and the guard gives no angle.
    have ha : a.reject w = ⟨0, 0, 0⟩ := by
      apply eq_zero_of_norm
      rw [hnorm, hb, norm_origin]
    have hshort : ((a - .zero).reject w).norm < tiny := by
      rw [Vector3.sub_zero, ha, norm_origin]
      exact tiny_pos
    rw [turnOnto_of_short hshort, spin_zero_turn, eq_reject_add a w, eq_reject_add b w, ha, hb,
      halong]
  · have hpoint := rotation_turnOnto (p := a) (q := b) (o := .zero) hw
      (by rwa [Vector3.sub_zero, Vector3.sub_zero]) (by rwa [Vector3.sub_zero, Vector3.sub_zero])
      (by rwa [Vector3.sub_zero])
    rwa [rotation_apply hw, Vector3.sub_zero, Vector3.zero_add] at hpoint

end TurnOnto

/-! ### Turning a point to a distance -/

section TurnToDistance

variable {w p q o : Vector3 ℝ}

/-- The square of the distance of a point that turns about an axis to one that does not. -/
theorem dot_self_rotation_sub (hw : w.dot w = 1) (θ : ℝ) :
    ((rotation w θ o).apply p - q).dot ((rotation w θ o).apply p - q) =
      ((p - o).reject w).dot ((p - o).reject w) + ((q - o).reject w).dot ((q - o).reject w) +
        w.dot (p - q) * w.dot (p - q) -
        2 * ((spin w θ).turn ((p - o).reject w)).dot ((q - o).reject w) := by
  -- Along the axis the two points stay apart as they are, and across it only `p` turns.
  have hsplit : (rotation w θ o).apply p - q = (spin w θ).turn ((p - o).reject w) -
      (q - o).reject w + w.scale (w.dot (p - q)) := by
    rw [rotation_apply hw, spin_turn_eq_add hw θ (p - o), reject_eq (q - o)]
    ext <;> simp [dot_eq] <;> ring
  have hx : w.dot ((spin w θ).turn ((p - o).reject w)) = 0 := by
    rw [dot_spin_turn hw, dot_reject hw]
  have hv := dot_reject hw (q - o)
  rw [hsplit, ← (spin_rigid hw θ).dot ((p - o).reject w)]
  generalize (spin w θ).turn ((p - o).reject w) = x at *
  generalize (q - o).reject w = v at *
  generalize w.dot (p - q) = k at *
  simp only [dot_eq, add_x, add_y, add_z, sub_x, sub_y, sub_z, scale_x, scale_y, scale_z] at *
  linear_combination k * k * hw + 2 * k * (hx - hv)

/-- The angles at a distance that is given by the cosine of the angle between the points. -/
theorem turnToDistance_eq {distance c : ℝ} (hp : tiny ≤ ((p - o).reject w).norm)
    (hq : tiny ≤ ((q - o).reject w).norm) (hc : |c| ≤ 1)
    (h : distance * distance = ((p - o).reject w).dot ((p - o).reject w) +
      ((q - o).reject w).dot ((q - o).reject w) + w.dot (p - q) * w.dot (p - q) -
      2 * (((p - o).reject w).norm * ((q - o).reject w).norm * c)) :
    turnToDistance p q distance w o =
      [angleAbout w ((p - o).reject w) ((q - o).reject w) + Real.arccos c,
        angleAbout w ((p - o).reject w) ((q - o).reject w) - Real.arccos c] := by
  have hp_pos := tiny_pos.trans_le hp
  have hq_pos := tiny_pos.trans_le hq
  have htiny := tiny_pos
  unfold turnToDistance
  generalize (p - o).reject w = u at *
  generalize (q - o).reject w = v at *
  have hcosine : (u.norm * u.norm + v.norm * v.norm -
      (distance * distance - w.dot (p - q) * w.dot (p - q))) / (2 * u.norm * v.norm) = c := by
    rw [h, norm_mul_self, norm_mul_self]
    field_simp
    ring
  -- A cosine is in range, so neither the guard nor the clamp changes it.
  obtain ⟨hlow, hhigh⟩ := abs_le.mp hc
  have hguard : ¬ 1 + tiny < |c| := by linarith
  simp [angleAbout, not_lt.mpr hp, not_lt.mpr hq, hcosine, hguard, max_eq_right hlow,
    min_eq_right hhigh]

/-- Where some rotation puts a point at a distance from another, two rotations are found, and both
do so. -/
theorem exists_turnToDistance (hw : w.dot w = 1) (hp : tiny ≤ ((p - o).reject w).norm)
    (hq : tiny ≤ ((q - o).reject w).norm) (θ : ℝ) :
    ∃ first second, turnToDistance p q ((rotation w θ o).apply p - q).norm w o = [first, second] ∧
      ∀ x ∈ [first, second],
        ((rotation w x o).apply p - q).norm = ((rotation w θ o).apply p - q).norm := by
  have hpos : 0 < ((p - o).reject w).norm * ((q - o).reject w).norm :=
    mul_pos (tiny_pos.trans_le hp) (tiny_pos.trans_le hq)
  have hdistance (x : ℝ) := dot_self_rotation_sub (p := p) (q := q) (o := o) hw x
  simp only [dot_spin_turn_across hw (dot_reject hw (p - o)) (dot_reject hw (q - o)) hpos]
    at hdistance
  have hfound := turnToDistance_eq hp hq (Real.abs_cos_le_one _)
    ((norm_mul_self _).trans (hdistance θ))
  refine ⟨_, _, hfound, fun x hx => ?_⟩
  rw [norm_eq_norm_iff, hdistance, hdistance]
  -- The two angles are the one that is given, measured from the middle, and its reflection.
  have hcos := Real.cos_arccos (Real.neg_one_le_cos
    (θ - angleAbout w ((p - o).reject w) ((q - o).reject w))) (Real.cos_le_one _)
  obtain rfl | rfl := List.mem_pair.mp hx
  · rw [add_sub_cancel_left, hcos]
  · rw [sub_sub_cancel_left, Real.cos_neg, hcos]

end TurnToDistance

/-! ### Turning a vector about two axes -/

section TurnTwice

variable {w1 w2 : Vector3 ℝ}

/-- The products of a vector that is given by its coordinates along two axes and across both. -/
theorem dot_coordinates (hw1 : w1.dot w1 = 1) (hw2 : w2.dot w2 = 1) (α β g : ℝ) :
    w1.dot (w1.scale α + w2.scale β + (w1.cross w2).scale g) = α + β * w1.dot w2 ∧
    w2.dot (w1.scale α + w2.scale β + (w1.cross w2).scale g) = α * w1.dot w2 + β ∧
    (w1.scale α + w2.scale β + (w1.cross w2).scale g).dot
        (w1.scale α + w2.scale β + (w1.cross w2).scale g) =
      α * α + β * β + 2 * α * β * w1.dot w2 + g * g * (w1.cross w2).dot (w1.cross w2) := by
  simp only [dot_eq, add_x, add_y, add_z, scale_x, scale_y, scale_z, cross_x, cross_y,
    cross_z] at hw1 hw2 ⊢
  refine ⟨?_, ?_, ?_⟩
  · linear_combination α * hw1
  · linear_combination β * hw2
  · linear_combination α * α * hw1 + β * β * hw2

/-- The volume of three vectors, squared, by their products. -/
theorem dot_cross_sq (w1 w2 m : Vector3 ℝ) :
    (w1.cross w2).dot m * (w1.cross w2).dot m =
      w1.dot w1 * (w2.dot w2 * m.dot m - w2.dot m * w2.dot m) -
        w1.dot w2 * (w1.dot w2 * m.dot m - w1.dot m * w2.dot m) +
        w1.dot m * (w1.dot w2 * w2.dot m - w2.dot w2 * w1.dot m) := by
  simp only [dot_eq, cross_x, cross_y, cross_z]
  ring

/-- A vector between `a` and `d`, which has the product of `a` with the second axis, the product of
`d` with the first and the length of both, is passed on the way from `a` to `d`. -/
theorem spin_spin_turnOnto {a d middle : Vector3 ℝ} (hw1 : w1.dot w1 = 1) (hw2 : w2.dot w2 = 1)
    (hfirst : w1.dot middle = w1.dot d) (hsecond : w2.dot middle = w2.dot a)
    (hmiddle : middle.dot middle = a.dot a) (hsquare : a.dot a = d.dot d)
    (ha : tiny ≤ (a.reject w2).norm) (hd : d.reject w1 = ⟨0, 0, 0⟩ ∨ tiny ≤ (d.reject w1).norm) :
    (spin w1 (turnOnto middle d w1 .zero)).turn
      ((spin w2 (turnOnto a middle w2 .zero)).turn a) = d := by
  have hkept := norm_reject_eq hw2 hsecond hmiddle
  rw [spin_turnOnto hw2 hsecond.symm hmiddle.symm (.inr (hkept ▸ ha)),
    spin_turnOnto hw1 hfirst (hmiddle.trans hsquare) hd]

/-- The two solutions, by the coordinates of the vectors between. -/
theorem turnTwice_eq {a d : Vector3 ℝ} {α β square : ℝ}
    (hparallel : tiny ≤ |w1.dot w2 * w1.dot w2 - 1|)
    (hα : (w1.dot w2 * w2.dot a - w1.dot d) / (w1.dot w2 * w1.dot w2 - 1) = α)
    (hβ : (w1.dot w2 * w1.dot d - w2.dot a) / (w1.dot w2 * w1.dot w2 - 1) = β)
    (hsquare : (a.dot a - α * α - β * β - 2 * α * β * w1.dot w2) /
      (w1.cross w2).dot (w1.cross w2) = square) (hnonneg : 0 ≤ square) :
    turnTwice a d w1 w2 = [√square, -√square].map fun g =>
      (turnOnto (w1.scale α + w2.scale β + (w1.cross w2).scale g) d w1 .zero,
        turnOnto a (w1.scale α + w2.scale β + (w1.cross w2).scale g) w2 .zero) := by
  have hguard : ¬ square < -tiny := by
    have := tiny_pos
    linarith
  unfold turnTwice
  simp only [Scalar.nat_real, Nat.cast_one, Nat.cast_ofNat, hα, hβ, hsquare]
  simp [not_lt.mpr hparallel, hguard, max_eq_left hnonneg]

/-- The coordinates along two axes with the products `x` and `y`, where `c` is the product of the
axes. -/
theorem coordinates_eq {c x y α β : ℝ} (hne : c * c - 1 ≠ 0) (hα : (c * y - x) / (c * c - 1) = α)
    (hβ : (c * x - y) / (c * c - 1) = β) : α + β * c = x ∧ α * c + β = y := by
  rw [div_eq_iff hne] at hα hβ
  constructor
  · refine mul_right_cancel₀ hne ?_
    linear_combination -hα - c * hβ
  · refine mul_right_cancel₀ hne ?_
    linear_combination -c * hα - hβ

/-- Axes that are not parallel have no product of one or minus one. -/
theorem sq_sub_one_ne_zero (hparallel : tiny ≤ |w1.dot w2 * w1.dot w2 - 1|) :
    w1.dot w2 * w1.dot w2 - 1 ≠ 0 := by
  intro h
  rw [h, abs_zero] at hparallel
  exact absurd hparallel (not_le.mpr tiny_pos)

/-- Axes that are not parallel have a vector product. -/
theorem dot_self_cross_ne_zero (hw1 : w1.dot w1 = 1) (hw2 : w2.dot w2 = 1)
    (hne : w1.dot w2 * w1.dot w2 - 1 ≠ 0) : (w1.cross w2).dot (w1.cross w2) ≠ 0 := by
  rw [dot_self_cross hw1 hw2]
  exact fun h => hne (by linarith)

/-- The square of the third coordinate is not negative where some vector has the products: it is the
square of a volume up to a factor. -/
theorem square_nonneg {middle : Vector3 ℝ} {α β square : ℝ} (hw1 : w1.dot w1 = 1)
    (hw2 : w2.dot w2 = 1) (hne : w1.dot w2 * w1.dot w2 - 1 ≠ 0)
    (hfirst : α + β * w1.dot w2 = w1.dot middle) (hsecond : α * w1.dot w2 + β = w2.dot middle)
    (hroot : middle.dot middle - α * α - β * β - 2 * α * β * w1.dot w2 =
      square * (w1.cross w2).dot (w1.cross w2)) : 0 ≤ square := by
  have hvolume := dot_cross_sq w1 w2 middle
  rw [hw1, hw2, ← hfirst, ← hsecond] at hvolume
  rw [dot_self_cross hw1 hw2] at hroot
  have hsquare : square * ((w1.dot w2 * w1.dot w2 - 1) * (w1.dot w2 * w1.dot w2 - 1)) =
      (w1.cross w2).dot middle * (w1.cross w2).dot middle := by
    rw [hvolume]
    linear_combination (w1.dot w2 * w1.dot w2 - 1) * hroot
  exact nonneg_of_mul_nonneg_left (hsquare ▸ mul_self_nonneg _) (mul_self_pos.mpr hne)

/-- Where the way from `a` to `d` leads over some vector, the vectors between have its coordinates
along the axes, and lie on either side of both. -/
theorem exists_coordinates {a d middle : Vector3 ℝ} (hw1 : w1.dot w1 = 1) (hw2 : w2.dot w2 = 1)
    (hparallel : tiny ≤ |w1.dot w2 * w1.dot w2 - 1|) (hfirst : w1.dot middle = w1.dot d)
    (hsecond : w2.dot middle = w2.dot a) (hmiddle : middle.dot middle = a.dot a) :
    ∃ α β square, 0 ≤ square ∧ α + β * w1.dot w2 = w1.dot d ∧ α * w1.dot w2 + β = w2.dot a ∧
      a.dot a - α * α - β * β - 2 * α * β * w1.dot w2 =
        square * (w1.cross w2).dot (w1.cross w2) ∧
      turnTwice a d w1 w2 = [√square, -√square].map fun g =>
        (turnOnto (w1.scale α + w2.scale β + (w1.cross w2).scale g) d w1 .zero,
          turnOnto a (w1.scale α + w2.scale β + (w1.cross w2).scale g) w2 .zero) := by
  have hne := sq_sub_one_ne_zero hparallel
  obtain ⟨α, hα⟩ : ∃ α, (w1.dot w2 * w2.dot a - w1.dot d) / (w1.dot w2 * w1.dot w2 - 1) = α :=
    ⟨_, rfl⟩
  obtain ⟨β, hβ⟩ : ∃ β, (w1.dot w2 * w1.dot d - w2.dot a) / (w1.dot w2 * w1.dot w2 - 1) = β :=
    ⟨_, rfl⟩
  obtain ⟨square, hroot⟩ : ∃ square, (a.dot a - α * α - β * β - 2 * α * β * w1.dot w2) /
      (w1.cross w2).dot (w1.cross w2) = square := ⟨_, rfl⟩
  obtain ⟨hx, hy⟩ := coordinates_eq hne hα hβ
  have hroot' := (div_eq_iff (dot_self_cross_ne_zero hw1 hw2 hne)).mp hroot
  have hnonneg : 0 ≤ square := square_nonneg hw1 hw2 hne (hx.trans hfirst.symm)
    (hy.trans hsecond.symm) (hmiddle.symm ▸ hroot')
  exact ⟨α, β, square, hnonneg, hx, hy, hroot', turnTwice_eq hparallel hα hβ hroot hnonneg⟩

/-- Where the way from `a` to `d` leads over some vector, two ways are found. -/
theorem exists_turnTwice {a d middle : Vector3 ℝ} (hw1 : w1.dot w1 = 1) (hw2 : w2.dot w2 = 1)
    (hparallel : tiny ≤ |w1.dot w2 * w1.dot w2 - 1|) (hfirst : w1.dot middle = w1.dot d)
    (hsecond : w2.dot middle = w2.dot a) (hmiddle : middle.dot middle = a.dot a)
    (hsquare : a.dot a = d.dot d) (ha : tiny ≤ (a.reject w2).norm)
    (hd : d.reject w1 = ⟨0, 0, 0⟩ ∨ tiny ≤ (d.reject w1).norm) :
    ∃ first second, turnTwice a d w1 w2 = [first, second] ∧
      ∀ t ∈ [first, second], (spin w1 t.1).turn ((spin w2 t.2).turn a) = d := by
  obtain ⟨α, β, square, hnonneg, hx, hy, hroot, hfound⟩ :=
    exists_coordinates hw1 hw2 hparallel hfirst hsecond hmiddle
  -- Either sign of the third coordinate gives a vector with the same products.
  have hway (g : ℝ) (hg : g * g = square) :
      (spin w1 (turnOnto (w1.scale α + w2.scale β + (w1.cross w2).scale g) d w1 .zero)).turn
        ((spin w2 (turnOnto a (w1.scale α + w2.scale β + (w1.cross w2).scale g) w2 .zero)).turn a) =
        d := by
    obtain ⟨hw1_dot, hw2_dot, hself⟩ := dot_coordinates hw1 hw2 α β g
    refine spin_spin_turnOnto hw1 hw2 (hw1_dot.trans hx) (hw2_dot.trans hy) (hself.trans ?_)
      hsquare ha hd
    rw [hg]
    linear_combination -hroot
  refine ⟨_, _, hfound, fun t ht => ?_⟩
  obtain rfl | rfl := List.mem_pair.mp ht
  · exact hway _ (Real.mul_self_sqrt hnonneg)
  · exact hway _ (by rw [neg_mul_neg, Real.mul_self_sqrt hnonneg])

/-- Perpendicular axes leave a way for every direction across the second. -/
theorem exists_between {d : Vector3 ℝ} (hw1 : w1.dot w1 = 1) (hw2 : w2.dot w2 = 1)
    (hperp : w1.dot w2 = 0) (hd : d.dot d = 1) :
    ∃ middle : Vector3 ℝ, w1.dot middle = w1.dot d ∧ w2.dot middle = 0 ∧ middle.dot middle = 1 := by
  have hroom : 0 ≤ 1 - w1.dot d * w1.dot d := by
    rw [← hd, ← dot_self_reject hw1]
    exact dot_self_nonneg _
  obtain ⟨hfirst, hsecond, hself⟩ := dot_coordinates hw1 hw2 (w1.dot d) 0
    (√(1 - w1.dot d * w1.dot d))
  refine ⟨_, hfirst.trans ?_, hsecond.trans ?_, hself.trans ?_⟩
  · ring
  · rw [hperp]
    ring
  · rw [Real.mul_self_sqrt hroom, dot_self_cross hw1 hw2, hperp]
    ring

end TurnTwice

/-- The item with the smallest key is one of the items. -/
theorem smallestBy_mem {β : Type} (key : β → ℝ) (first : β) (rest : List β) :
    smallestBy key first rest ∈ first :: rest := by
  unfold smallestBy
  induction rest generalizing first with
  | nil => exact List.mem_singleton_self _
  | cons x rest ih =>
    rw [List.foldl_cons]
    split
    · exact List.mem_cons_of_mem _ (ih x)
    · obtain h | h := List.mem_cons.mp (ih first)
      · rw [h]
        exact List.mem_cons_self
      · exact List.mem_cons_of_mem _ (List.mem_cons_of_mem _ h)

end Kinematics

end RobotProgram
