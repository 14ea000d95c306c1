import Mathlib.Algebra.Group.MinimalAxioms
import RobotProgram.Cell.Tool
import RobotProgram.Proofs.RigidMotions

/-!
# Composition of frames

A frame with perpendicular unit axes and the rigid motion onto it say the same, so such frames form
a group (`Pose`). Composing a parent with a child is the product of that group
(`Pose.compose_eq`), and re-attaching `f` from `s` to `t` gives `t * s⁻¹ * f`
(`Pose.reattach_eq`): a product of rigid motions is rigid, and the constructor of frames, which
scales and straightens the axes it is given, keeps those of a rigid motion. The inverse that is
taken of `s` is one on both sides (`Matrix4.Rigid.inverse_mul`, `Matrix4.Rigid.mul_inverse`).

The laws of composition are then the laws of a group (`Pose.composition_laws`). A tool keeps its
tip where it was relative to the frame at which it is attached (`Tool.attachedTip_eq`).
-/

namespace RobotProgram

/-- A frame with perpendicular unit axes. -/
@[ext]
structure Pose where
  frame : Frame ℝ
  orthonormal : frame.Orthonormal

namespace Pose

/-- The motion from the world onto a pose. -/
noncomputable def motion (f : Pose) : Matrix4 ℝ := f.frame.toMatrix

/-- The pose onto which a rigid motion moves the world. -/
noncomputable def ofMotion (m : Matrix4 ℝ) (hm : m.Rigid) : Pose where
  frame := .onto m
  orthonormal := Frame.orthonormal_onto hm

/-- The motion of a pose is rigid. -/
theorem rigid (f : Pose) : f.motion.Rigid := f.orthonormal.rigid

/-- A rigid motion is the motion of its pose. -/
theorem motion_ofMotion {m : Matrix4 ℝ} (hm : m.Rigid) : (ofMotion m hm).motion = m :=
  Frame.toMatrix_onto hm

/-- A pose is known by its motion. -/
theorem motion_injective : Function.Injective motion := by
  intro f g h
  have hframe : f.frame = g.frame := by
    calc f.frame = .onto f.motion := (Frame.onto_toMatrix f.frame).symm
      _ = .onto g.motion := by rw [h]
      _ = g.frame := Frame.onto_toMatrix g.frame
  exact Pose.ext hframe

/-! ### The group of poses -/

noncomputable instance : Mul Pose where
  mul f g := ofMotion (f.motion * g.motion) (f.rigid.mul g.rigid)

noncomputable instance : One Pose where
  one := ⟨.world, Frame.world_orthonormal⟩

noncomputable instance : Inv Pose where
  inv f := ofMotion f.motion.inverse f.rigid.inverse

/-- The motion of a product is the product of the motions. -/
@[simp]
theorem motion_mul (f g : Pose) : (f * g).motion = f.motion * g.motion := motion_ofMotion _

/-- The motion of the world's own pose moves nothing. -/
@[simp]
theorem motion_one : (1 : Pose).motion = 1 := Frame.world_toMatrix

/-- The motion of an inverse is the inverse of the motion. -/
@[simp]
theorem motion_inv (f : Pose) : f⁻¹.motion = f.motion.inverse := motion_ofMotion _

noncomputable instance : Group Pose := by
  refine Group.ofLeftAxioms (fun f g h => ?_) (fun f => ?_) (fun f => ?_)
  · apply motion_injective
    simp only [motion_mul, mul_assoc]
  · apply motion_injective
    simp only [motion_mul, motion_one, one_mul]
  · apply motion_injective
    simp only [motion_mul, motion_inv, motion_one, f.rigid.inverse_mul]

/-! ### What frames compute -/

/-- The frame of a pose is read back from its motion. -/
theorem ofMatrix_motion (f : Pose) : Frame.ofMatrix f.motion = .ok f.frame :=
  Frame.ofMatrix_of_rigid f.rigid

/-- Frames compose as poses multiply. -/
theorem compose_eq (f g : Pose) : f.frame.compose g.frame = .ok (f * g).frame := by
  change Frame.ofMatrix (f.motion * g.motion) = _
  rw [← motion_mul, ofMatrix_motion]

/-- A frame is reattached by a product of poses. -/
theorem reattach_eq (f s t : Pose) :
    f.frame.reattach s.frame t.frame = .ok (t * s⁻¹ * f).frame := by
  change Frame.ofMatrix (t.motion * s.motion.inverse * f.motion) = _
  rw [← motion_inv, ← motion_mul, ← motion_mul, ofMatrix_motion]

/-- Frames compose associatively, with the world as the neutral frame on both sides, and building a
frame from its own motion gives it back. Re-attaching keeps the pose relative to the frame of
attachment: what is given by `g` in `s` is given by `g` in `t` afterwards. So re-attaching in place
changes nothing, and going to `t` and back to `s` neither. None of this fails. -/
theorem composition_laws (f g h s t : Pose) :
    (∃ fg gh all, f.frame.compose g.frame = .ok fg ∧ g.frame.compose h.frame = .ok gh ∧
      fg.compose h.frame = .ok all ∧ f.frame.compose gh = .ok all) ∧
    Frame.world.compose f.frame = .ok f.frame ∧ f.frame.compose .world = .ok f.frame ∧
    Frame.ofMatrix f.frame.toMatrix = .ok f.frame ∧
    (∃ before after, s.frame.compose g.frame = .ok before ∧ t.frame.compose g.frame = .ok after ∧
      before.reattach s.frame t.frame = .ok after) ∧
    f.frame.reattach s.frame s.frame = .ok f.frame ∧
    ∃ moved, f.frame.reattach s.frame t.frame = .ok moved ∧
      moved.reattach t.frame s.frame = .ok f.frame := by
  have hworld : (1 : Pose).frame = .world := rfl
  refine ⟨?_, ?_, ?_, f.ofMatrix_motion, ?_, ?_, ?_⟩
  · refine ⟨_, _, _, compose_eq f g, compose_eq g h, compose_eq (f * g) h, ?_⟩
    rw [compose_eq f (g * h), mul_assoc]
  · rw [← hworld, compose_eq, one_mul]
  · rw [← hworld, compose_eq, mul_one]
  · refine ⟨_, _, compose_eq s g, compose_eq t g, ?_⟩
    rw [reattach_eq (s * g) s t, mul_assoc, inv_mul_cancel_left]
  · rw [reattach_eq, mul_inv_cancel, one_mul]
  · refine ⟨_, reattach_eq f s t, ?_⟩
    rw [reattach_eq (t * s⁻¹ * f) t s, mul_assoc, mul_assoc, inv_mul_cancel_left,
      mul_inv_cancel_left]

end Pose

/-- The tip of a tool that is given relative to its attachment frame is found at the same place
relative to the flange. -/
theorem Tool.attachedTip_eq {tool : Tool ℝ} {attachment tip flange : Pose}
    (hattachment : tool.attachment = attachment.frame)
    (htip : attachment.frame.compose tip.frame = .ok tool.tip) :
    tool.attachedTip flange.frame = flange.frame.compose tip.frame := by
  have hplace : tool.tip = (attachment * tip).frame := by
    rw [Pose.compose_eq] at htip
    exact (Except.ok.inj htip).symm
  rw [attachedTip, hattachment, hplace, Pose.reattach_eq, Pose.compose_eq, mul_assoc,
    inv_mul_cancel_left]

end RobotProgram
