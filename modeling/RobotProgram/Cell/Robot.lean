import RobotProgram.Cell.Mechanism
import RobotProgram.Cell.Tool

/-!
# Robots

A robot has six axes, each the third axis of a frame given in the zero pose, with limits; a base
frame, a mounting frame with a tool, and at most six external mechanisms on distinct slots.
-/

namespace RobotProgram

/-- Mechanisms that sit on distinct slots. -/
def WellNumbered {α : Type} (ms : List (Mechanism α)) : Prop :=
  ms.length ≤ 6 ∧ (∀ m ∈ ms, 0 ≤ m.number ∧ m.number < 6) ∧ (ms.map (·.number)).Nodup

/-- A six-axis robot with its external mechanisms. -/
structure Robot (α : Type) where
  name : Value
  axisFrames : Vector (Frame α) 6
  axisLimits : Vector (Interval α) 6
  baseFrame : Frame α
  mountingFrame : Frame α
  tool : Tool α
  /-- The tip of the tool in base coordinates when all axes are at zero. -/
  toolFrame : Frame α
  mechanisms : List (Mechanism α)
  wellNumbered : WellNumbered mechanisms

/-- A list of a known length as a vector. -/
def vectorOfList {α : Type} {n : Nat} (xs : List α) (h : xs.length = n) : Vector α n :=
  ⟨xs.toArray, by simpa using h⟩

/-- Checks that mechanisms sit on distinct slots. -/
def checkMechanisms {α : Type} (robot : Value) (ms : List (Mechanism α)) :
    Outcome { ms : List (Mechanism α) // WellNumbered ms } :=
  if hcount : ms.length ≤ 6 then
    match ms.find? fun m => !(decide (0 ≤ m.number) && decide (m.number < 6)) with
    | some m => .error (.mechanismNumber robot m.number)
    | none =>
      if hrange : ∀ m ∈ ms, 0 ≤ m.number ∧ m.number < 6 then
        if hdistinct : (ms.map (·.number)).Nodup then .ok ⟨ms, hcount, hrange, hdistinct⟩
        else .error (.sharedMechanismNumber robot (ms.map (·.number)))
      else .error .noSuchIndex
  else .error (.tooManyMechanisms robot ms.length)

/-- The check gives the mechanisms back. -/
theorem checkMechanisms_eq_ok {α : Type} {robot : Value} {ms : List (Mechanism α)}
    {checked : { ms : List (Mechanism α) // WellNumbered ms }} :
    checkMechanisms robot ms = .ok checked ↔ checked.1 = ms := by
  constructor
  · intro h
    unfold checkMechanisms at h
    split at h
    · split at h
      · cases h
      · split at h
        · split at h
          · rw [← Except.ok.inj h]
          · cases h
        · cases h
    · cases h
  · rintro rfl
    obtain ⟨ms, hcount, hrange, hdistinct⟩ := checked
    have hfind : (ms.find? fun m => !(decide (0 ≤ m.number) && decide (m.number < 6))) = none := by
      rw [List.find?_eq_none]
      intro m hm
      simp [hrange m hm]
    rw [checkMechanisms, dif_pos hcount, hfind]
    exact (dif_pos hrange).trans (dif_pos hdistinct)

namespace Robot

variable {α : Type} [Scalar α]

/-- The robot with the given parts, if there are six axes and the mechanisms sit on distinct
slots. -/
def make (name : Value) (frames : List (Frame α)) (limits : List (Interval α))
    (base mounting : Frame α) (tool : Tool α) (mechanisms : List (Mechanism α)) :
    Outcome (Robot α) :=
  if hframes : frames.length = 6 then
    if hlimits : limits.length = 6 then do
      let toolFrame ← tool.attachedTip mounting
      let ms ← checkMechanisms name mechanisms
      return ⟨name, vectorOfList frames hframes, vectorOfList limits hlimits, base, mounting, tool,
        toolFrame, ms.1, ms.2⟩
    else .error (.axisLimitCount name limits.length)
  else .error (.axisFrameCount name frames.length)

/-- The robot with another tool. -/
def withTool (r : Robot α) (tool : Tool α) : Outcome (Robot α) := do
  let toolFrame ← tool.attachedTip r.mountingFrame
  return { r with tool, toolFrame }

/-- The mechanism on a slot. -/
def mechanism? (r : Robot α) (number : Int) : Option (Mechanism α) :=
  r.mechanisms.find? fun m => m.number == number

/-- The limits of each slot; a slot without a mechanism holds only zero. -/
def slotLimits (r : Robot α) : Vector (Interval α) 6 :=
  r.mechanisms.foldl (fun v m => v.setIfInBounds m.number.toNat m.limits)
    (Vector.replicate 6 .zero)

/-- The frame of each slot; a slot without a mechanism has that of the world. -/
def slotFrames (r : Robot α) : Vector (Frame α) 6 :=
  r.mechanisms.foldl (fun v m => v.setIfInBounds m.number.toNat m.frame)
    (Vector.replicate 6 .world)

/-- A robot as data. -/
def literal (r : Robot α) : String :=
  "RobotDefinition(name='" ++ r.name.toText ++ "', tool='" ++ r.tool.name.toText ++
    "', external_axes=" ++ toString r.mechanisms.length ++ ")"

end Robot

end RobotProgram
