import Mathlib.Analysis.SpecialFunctions.Trigonometric.Angle
import RobotProgram.Proofs.Subproblems

/-!
# All solutions of the subproblems

The angles that a subproblem finds are all there are, up to whole turns. A turned point has no other
angle than the one by which it was turned (`coe_turnOnto`). From this the two angles at which a
point has a given distance are the only ones, by the cosine of the planar triangle
(`norm_rotation_sub_eq_iff`), and so are the two pairs of angles about two axes: the vector between
the rotations has known products with both axes and a known length, which leaves one vector on
either side of the plane of the axes (`eq_coordinates`).

Angles that differ by whole turns are equal in `Real.Angle`. Where a subproblem finds nothing there
is no solution: what a solution would make of its guards is in range.
-/

namespace RobotProgram.Kinematics

open RobotProgram.Vector3 RobotProgram.Matrix4

/-! ### Turning a point onto another -/

/-- The angle to a turned point is the angle by which it is turned. -/
theorem coe_turnOnto {w o p : Vector3 ℝ} (hw : w.dot w = 1) (hp : tiny ≤ ((p - o).reject w).norm)
    (θ : ℝ) : ((turnOnto p ((rotation w θ o).apply p) w o : ℝ) : Real.Angle) = θ := by
  have hacross := reject_rotation_apply hw θ o p
  have hkept : (((rotation w θ o).apply p - o).reject w).norm = ((p - o).reject w).norm := by
    rw [hacross, norm_eq_norm_iff, (spin_rigid hw θ).dot]
  have hturned : ((rotation w θ o).apply p - o).reject w =
      ((spin w θ).turn ((p - o).reject w)).scale 1 := by
    rw [hacross]
    ext <;> simp
  obtain ⟨hcos, hsin⟩ := angleAbout_of_turned hw (dot_reject hw (p - o)) one_pos
    (tiny_pos.trans_le hp) hturned
  rw [turnOnto_eq hp (hkept ▸ hp)]
  exact Real.Angle.cos_sin_inj hcos hsin

/-- The same for directions, which are turned about an axis through the origin. -/
theorem coe_turnOnto_spin {w a : Vector3 ℝ} (hw : w.dot w = 1) (ha : tiny ≤ (a.reject w).norm)
    (θ : ℝ) : ((turnOnto a ((spin w θ).turn a) w .zero : ℝ) : Real.Angle) = θ := by
  have hpoint := coe_turnOnto (p := a) (o := .zero) hw (by rwa [Vector3.sub_zero]) θ
  rwa [rotation_apply hw, Vector3.sub_zero, Vector3.zero_add] at hpoint

/-- Angles that are equal up to whole turns turn directions alike. -/
theorem spin_congr {θ φ : ℝ} (h : (θ : Real.Angle) = φ) (w : Vector3 ℝ) : spin w θ = spin w φ := by
  simp only [spin, Scalar.cos_real, Scalar.sin_real, ← Real.Angle.cos_coe, ← Real.Angle.sin_coe, h]

/-! ### Turning a point to a distance -/

section TurnToDistance

variable {w o p q : Vector3 ℝ} {distance : ℝ}

/-- A turned point is at a distance where the cosine of its angle, measured from the other point,
has the value of the planar triangle. -/
theorem norm_rotation_sub_eq_iff (hw : w.dot w = 1) (hdistance : 0 ≤ distance)
    (hp : tiny ≤ ((p - o).reject w).norm) (hq : tiny ≤ ((q - o).reject w).norm) (θ : ℝ) :
    ((rotation w θ o).apply p - q).norm = distance ↔
      distance * distance = ((p - o).reject w).dot ((p - o).reject w) +
        ((q - o).reject w).dot ((q - o).reject w) + w.dot (p - q) * w.dot (p - q) -
        2 * (((p - o).reject w).norm * ((q - o).reject w).norm *
          Real.cos (θ - angleAbout w ((p - o).reject w) ((q - o).reject w))) := by
  have hpos : 0 < ((p - o).reject w).norm * ((q - o).reject w).norm :=
    mul_pos (tiny_pos.trans_le hp) (tiny_pos.trans_le hq)
  rw [← mul_self_inj (norm_nonneg _) hdistance, norm_mul_self, dot_self_rotation_sub hw,
    dot_spin_turn_across hw (dot_reject hw (p - o)) (dot_reject hw (q - o)) hpos, eq_comm]

/-- Where some rotation puts a point at a distance from another, two angles are found, and the
rotations that do so are those by these angles. Where none is found, no rotation does so. -/
theorem turnToDistance_solves (hw : w.dot w = 1) (hdistance : 0 ≤ distance)
    (hp : tiny ≤ ((p - o).reject w).norm) (hq : tiny ≤ ((q - o).reject w).norm) :
    ((∃ θ : ℝ, ((rotation w θ o).apply p - q).norm = distance) →
      ∃ first second, turnToDistance p q distance w o = [first, second] ∧
        ∀ θ : ℝ, ((rotation w θ o).apply p - q).norm = distance ↔
          (θ : Real.Angle) = first ∨ (θ : Real.Angle) = second) ∧
    (turnToDistance p q distance w o = [] →
      ∀ θ : ℝ, ((rotation w θ o).apply p - q).norm ≠ distance) := by
  have hiff (θ : ℝ) := norm_rotation_sub_eq_iff hw hdistance hp hq θ
  have hfound {θ₀ : ℝ} (h : ((rotation w θ₀ o).apply p - q).norm = distance) :=
    turnToDistance_eq hp hq (Real.abs_cos_le_one _) ((hiff θ₀).mp h)
  refine ⟨fun ⟨θ₀, h₀⟩ => ⟨_, _, hfound h₀, fun θ => ?_⟩, fun hnone θ h => ?_⟩
  · have hpos : 0 < ((p - o).reject w).norm * ((q - o).reject w).norm :=
      mul_pos (tiny_pos.trans_le hp) (tiny_pos.trans_le hq)
    have h₀' := (hiff θ₀).mp h₀
    rw [hiff θ]
    generalize angleAbout w ((p - o).reject w) ((q - o).reject w) = middle at *
    -- Two angles are at one distance when their cosines, measured from the middle, agree.
    have hcos : distance * distance = ((p - o).reject w).dot ((p - o).reject w) +
        ((q - o).reject w).dot ((q - o).reject w) + w.dot (p - q) * w.dot (p - q) -
        2 * (((p - o).reject w).norm * ((q - o).reject w).norm * Real.cos (θ - middle)) ↔
        Real.cos (θ - middle) = Real.cos (Real.arccos (Real.cos (θ₀ - middle))) := by
      rw [Real.cos_arccos (Real.neg_one_le_cos _) (Real.cos_le_one _), h₀']
      constructor
      · intro h
        exact mul_left_cancel₀ hpos.ne' (by linarith)
      · intro h
        rw [h]
    rw [hcos, Real.Angle.cos_eq_iff_coe_eq_or_eq_neg]
    rw [Real.Angle.coe_sub, Real.Angle.coe_add, Real.Angle.coe_sub, sub_eq_iff_eq_add',
      sub_eq_iff_eq_add', ← sub_eq_add_neg]
  · rw [hfound h] at hnone
    exact absurd hnone (List.cons_ne_nil _ _)

/-- A point that turns about a vertical axis beside the origin, and is at the distance `√3` from one
above its circle before it turns. -/
theorem turnToDistance_solves_beside :
    ((rotation ⟨0, 0, 1⟩ 0 ⟨1, 0, 0⟩).apply (⟨2, 0, 0⟩ : Vector3 ℝ) - ⟨1, 1, 1⟩).norm = √3 ∧
      ∃ first second : ℝ,
        turnToDistance (⟨2, 0, 0⟩ : Vector3 ℝ) ⟨1, 1, 1⟩ √3 ⟨0, 0, 1⟩ ⟨1, 0, 0⟩ =
          [first, second] ∧
        ∀ θ : ℝ, ((rotation ⟨0, 0, 1⟩ θ ⟨1, 0, 0⟩).apply (⟨2, 0, 0⟩ : Vector3 ℝ) -
          ⟨1, 1, 1⟩).norm = √3 ↔ (θ : Real.Angle) = first ∨ (θ : Real.Angle) = second := by
  have hw : (⟨0, 0, 1⟩ : Vector3 ℝ).dot ⟨0, 0, 1⟩ = 1 := by simp [dot_eq]
  have hp : ((⟨2, 0, 0⟩ : Vector3 ℝ) - ⟨1, 0, 0⟩).reject ⟨0, 0, 1⟩ = ⟨1, 0, 0⟩ := by
    ext <;> norm_num [reject_eq, dot_eq]
  have hq : ((⟨1, 1, 1⟩ : Vector3 ℝ) - ⟨1, 0, 0⟩).reject ⟨0, 0, 1⟩ = ⟨0, 1, 0⟩ := by
    ext <;> norm_num [reject_eq, dot_eq]
  have hstart : ((rotation ⟨0, 0, 1⟩ 0 ⟨1, 0, 0⟩).apply (⟨2, 0, 0⟩ : Vector3 ℝ) -
      ⟨1, 1, 1⟩).norm = √3 := by
    rw [rotation_zero hw, one_apply]
    exact congrArg Real.sqrt (by norm_num [dot_eq])
  have hp_long := tiny_le_norm (a := ⟨1, 0, 0⟩) (by simp [dot_eq])
  have hq_long := tiny_le_norm (a := ⟨0, 1, 0⟩) (by simp [dot_eq])
  exact ⟨hstart, (turnToDistance_solves hw (Real.sqrt_nonneg 3) (hp.symm ▸ hp_long)
    (hq.symm ▸ hq_long)).1 ⟨0, hstart⟩⟩

end TurnToDistance

/-! ### Turning a vector about two axes -/

section TurnTwice

variable {w1 w2 a d : Vector3 ℝ}

/-- A vector is determined by its coordinates along two axes, up to its part across both. -/
theorem eq_coordinates (hw1 : w1.dot w1 = 1) (hw2 : w2.dot w2 = 1)
    (hne : w1.dot w2 * w1.dot w2 - 1 ≠ 0) {middle : Vector3 ℝ} {α β : ℝ}
    (hfirst : α + β * w1.dot w2 = w1.dot middle) (hsecond : α * w1.dot w2 + β = w2.dot middle) :
    ∃ g, middle = w1.scale α + w2.scale β + (w1.cross w2).scale g := by
  have hnormal := dot_self_cross_ne_zero hw1 hw2 hne
  -- What is left without the part along the axes is perpendicular to both.
  obtain ⟨rest, hrest⟩ : ∃ rest, middle - (w1.scale α + w2.scale β) = rest := ⟨_, rfl⟩
  have hmiddle : middle = w1.scale α + w2.scale β + rest := by
    rw [← hrest]
    ext <;> simp
  have hperp1 : w1.dot rest = 0 := by
    rw [← hrest]
    simp only [dot_eq, sub_x, sub_y, sub_z, add_x, add_y, add_z, scale_x, scale_y, scale_z]
      at hw1 hfirst ⊢
    linear_combination -hfirst - α * hw1
  have hperp2 : w2.dot rest = 0 := by
    rw [← hrest]
    simp only [dot_eq, sub_x, sub_y, sub_z, add_x, add_y, add_z, scale_x, scale_y, scale_z]
      at hw2 hsecond ⊢
    linear_combination -hsecond - β * hw2
  have hparallel : (w1.cross w2).cross rest = ⟨0, 0, 0⟩ := by
    rw [dot_eq] at hperp1 hperp2
    ext <;> simp only [cross_x, cross_y, cross_z]
    · linear_combination w2.x * hperp1 - w1.x * hperp2
    · linear_combination w2.y * hperp1 - w1.y * hperp2
    · linear_combination w2.z * hperp1 - w1.z * hperp2
  exact ⟨_, hmiddle.trans (congrArg _
    (eq_scale_div hnormal (scale_of_cross_eq_zero hparallel)))⟩

/-- The vector that a solution passes between the two rotations. -/
theorem dot_between (hw1 : w1.dot w1 = 1) (hw2 : w2.dot w2 = 1) {t1 t2 : ℝ}
    (h : (spin w1 t1).turn ((spin w2 t2).turn a) = d) :
    w1.dot ((spin w2 t2).turn a) = w1.dot d ∧ w2.dot ((spin w2 t2).turn a) = w2.dot a ∧
      ((spin w2 t2).turn a).dot ((spin w2 t2).turn a) = a.dot a ∧ a.dot a = d.dot d := by
  refine ⟨?_, dot_spin_turn hw2 t2 a, (spin_rigid hw2 t2).dot a a, ?_⟩
  · rw [← h, dot_spin_turn hw1]
  · rw [← h, (spin_rigid hw1 t1).dot, (spin_rigid hw2 t2).dot]

/-- A solution is found, up to whole turns: it is the one over the vector that it passes. -/
theorem coe_eq_of_turnTwice (hw1 : w1.dot w1 = 1) (hw2 : w2.dot w2 = 1)
    (ha : tiny ≤ (a.reject w2).norm) (hd : tiny ≤ (d.reject w1).norm) {t1 t2 : ℝ}
    (h : (spin w1 t1).turn ((spin w2 t2).turn a) = d) :
    (t1 : Real.Angle) = (turnOnto ((spin w2 t2).turn a) d w1 .zero : ℝ) ∧
      (t2 : Real.Angle) = (turnOnto a ((spin w2 t2).turn a) w2 .zero : ℝ) := by
  obtain ⟨hfirst, -, hmiddle, hsquare⟩ := dot_between hw1 hw2 h
  have hkept := norm_reject_eq hw1 hfirst (hmiddle.trans hsquare)
  have houter := coe_turnOnto_spin (a := (spin w2 t2).turn a) hw1 (hkept ▸ hd) t1
  rw [h] at houter
  exact ⟨houter.symm, (coe_turnOnto_spin hw2 ha t2).symm⟩

/-- Where some rotations about two axes turn one vector onto another, two pairs of angles are found,
and the rotations that do so are those by these pairs. Where none is found, no rotations do so. -/
theorem turnTwice_solves (hw1 : w1.dot w1 = 1) (hw2 : w2.dot w2 = 1)
    (hparallel : tiny ≤ |w1.dot w2 * w1.dot w2 - 1|) :
    (tiny ≤ (a.reject w2).norm → tiny ≤ (d.reject w1).norm →
      (∃ t1 t2 : ℝ, (rotation w1 t1 .zero * rotation w2 t2 .zero).turn a = d) →
      ∃ first second, turnTwice a d w1 w2 = [first, second] ∧
        ∀ t1 t2 : ℝ, (rotation w1 t1 .zero * rotation w2 t2 .zero).turn a = d ↔
          ((t1 : Real.Angle) = first.1 ∧ (t2 : Real.Angle) = first.2) ∨
            (t1 : Real.Angle) = second.1 ∧ (t2 : Real.Angle) = second.2) ∧
    (turnTwice a d w1 w2 = [] →
      ∀ t1 t2 : ℝ, (rotation w1 t1 .zero * rotation w2 t2 .zero).turn a ≠ d) := by
  have hproduct (t1 t2 : ℝ) : (rotation w1 t1 .zero * rotation w2 t2 .zero).turn a =
      (spin w1 t1).turn ((spin w2 t2).turn a) := by
    rw [mul_turn (rotation_rigid hw2 t2 .zero).bottom, rotation_turn hw1, rotation_turn hw2]
  simp only [hproduct]
  constructor
  · rintro ha hd ⟨s1, s2, hs⟩
    obtain ⟨hfirst, hsecond, hmiddle, hsquare⟩ := dot_between hw1 hw2 hs
    obtain ⟨first, second, hpair, hsolve⟩ := exists_turnTwice hw1 hw2 hparallel hfirst hsecond
      hmiddle hsquare ha (.inr hd)
    refine ⟨first, second, hpair, fun t1 t2 => ⟨fun ht => ?_, fun ht => ?_⟩⟩
    · obtain ⟨α, β, square, hnonneg, hx, hy, hroot, hfound⟩ :=
        exists_coordinates hw1 hw2 hparallel hfirst hsecond hmiddle
      obtain ⟨hfirst', hsecond', hmiddle', -⟩ := dot_between hw1 hw2 ht
      obtain ⟨houter, hinner⟩ := coe_eq_of_turnTwice hw1 hw2 ha hd ht
      generalize (spin w2 t2).turn a = middle at *
      obtain ⟨g, rfl⟩ := eq_coordinates hw1 hw2 (sq_sub_one_ne_zero hparallel)
        (hx.trans hfirst'.symm) (hy.trans hsecond'.symm)
      -- The length leaves two values for the third coordinate, which give the two pairs.
      have hg : g * g = √square * √square := by
        have hself := (dot_coordinates hw1 hw2 α β g).2.2
        rw [hmiddle'] at hself
        rw [Real.mul_self_sqrt hnonneg]
        refine mul_right_cancel₀
          (dot_self_cross_ne_zero hw1 hw2 (sq_sub_one_ne_zero hparallel)) ?_
        linear_combination hroot - hself
      rw [hpair] at hfound
      obtain ⟨rfl, hrest⟩ := List.cons.inj hfound
      obtain ⟨rfl, -⟩ := List.cons.inj hrest
      obtain rfl | rfl := mul_self_eq_mul_self_iff.mp hg
      · exact .inl ⟨houter, hinner⟩
      · exact .inr ⟨houter, hinner⟩
    · obtain ⟨houter, hinner⟩ | ⟨houter, hinner⟩ := ht
      · rw [spin_congr houter, spin_congr hinner]
        exact hsolve first List.mem_cons_self
      · rw [spin_congr houter, spin_congr hinner]
        exact hsolve second (List.mem_cons_of_mem _ (List.mem_singleton_self _))
  · intro hnone t1 t2 ht
    obtain ⟨hfirst, hsecond, hmiddle, -⟩ := dot_between hw1 hw2 ht
    obtain ⟨α, β, square, -, -, -, -, hfound⟩ :=
      exists_coordinates hw1 hw2 hparallel hfirst hsecond hmiddle
    rw [hnone] at hfound
    exact absurd hfound (List.cons_ne_nil _ _).symm

/-- Rotations about two axes that meet at an oblique angle. -/
theorem turnTwice_solves_oblique :
    tiny ≤ |(⟨0, 0, 1⟩ : Vector3 ℝ).dot ⟨3 / 5, 0, 4 / 5⟩ *
        (⟨0, 0, 1⟩ : Vector3 ℝ).dot ⟨3 / 5, 0, 4 / 5⟩ - 1| ∧
      ∃ first second : ℝ × ℝ,
        turnTwice (⟨1, 0, 0⟩ : Vector3 ℝ) ⟨1, 0, 0⟩ ⟨0, 0, 1⟩ ⟨3 / 5, 0, 4 / 5⟩ =
          [first, second] ∧
        ∀ t1 t2 : ℝ, (rotation ⟨0, 0, 1⟩ t1 .zero * rotation ⟨3 / 5, 0, 4 / 5⟩ t2 .zero).turn
            (⟨1, 0, 0⟩ : Vector3 ℝ) = ⟨1, 0, 0⟩ ↔
          ((t1 : Real.Angle) = first.1 ∧ (t2 : Real.Angle) = first.2) ∨
            (t1 : Real.Angle) = second.1 ∧ (t2 : Real.Angle) = second.2 := by
  have hw1 : (⟨0, 0, 1⟩ : Vector3 ℝ).dot ⟨0, 0, 1⟩ = 1 := by simp [dot_eq]
  have hw2 : (⟨3 / 5, 0, 4 / 5⟩ : Vector3 ℝ).dot ⟨3 / 5, 0, 4 / 5⟩ = 1 := by norm_num [dot_eq]
  have hparallel : tiny ≤ |(⟨0, 0, 1⟩ : Vector3 ℝ).dot ⟨3 / 5, 0, 4 / 5⟩ *
      (⟨0, 0, 1⟩ : Vector3 ℝ).dot ⟨3 / 5, 0, 4 / 5⟩ - 1| := by
    norm_num [dot_eq, tiny, abs_of_neg]
  have ha : tiny ≤ ((⟨1, 0, 0⟩ : Vector3 ℝ).reject ⟨3 / 5, 0, 4 / 5⟩).norm :=
    Real.le_sqrt_of_sq_le (by norm_num [reject_eq, dot_eq, tiny])
  have hd : (⟨1, 0, 0⟩ : Vector3 ℝ).reject ⟨0, 0, 1⟩ = ⟨1, 0, 0⟩ :=
    reject_of_dot_eq_zero (by simp [dot_eq])
  have hd_long := tiny_le_norm (a := ⟨1, 0, 0⟩) (by simp [dot_eq])
  refine ⟨hparallel, (turnTwice_solves hw1 hw2 hparallel).1 ha (hd.symm ▸ hd_long) ⟨0, 0, ?_⟩⟩
  rw [rotation_zero hw1, rotation_zero hw2, mul_one]
  ext <;> simp [← one_eq, one]

end TurnTwice

end RobotProgram.Kinematics
