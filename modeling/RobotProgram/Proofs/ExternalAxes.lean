import RobotProgram.Proofs.ForwardKinematics

/-!
# External axes

Resolving the external axes of a target and computing the tool pose are inverse to each other. A
mechanism with perpendicular unit axes always has a motion, and a rigid one
(`Mechanism.exists_motion`). One step of the resolution fills at most the slot of its own mechanism
and moves the pose by that mechanism's value (`Solver.settled_of_settle`). A run over mechanisms on
distinct slots therefore leaves the other slots alone, and the pose it ends with is where the
mechanisms carry the first one at the final values (`Solver.travelled_of_run`).

The tool pose carries the base along the same tracks, and undoes the positioners in reverse, which
is the inverse of their product (`Solver.exists_travel`). So a target comes back exactly for the
angles that reach its goal (`Solver.forward_eq_target_iff`).
-/

namespace RobotProgram

/-! ### Single mechanisms -/

namespace Mechanism

variable {m : Mechanism ℝ}

/-- A mechanism moves along, or about, the third axis of its frame. -/
theorem direction_eq (hm : m.frame.Orthonormal) : m.direction = .ok m.frame.zaxis :=
  Vector3.unit_of_dot_self hm.zz

/-- A mechanism moves what it carries by a rigid motion, at every value. -/
theorem exists_motion (hm : m.frame.Orthonormal) (value : ℝ) :
    ∃ t, m.motion value = .ok t ∧ t.Rigid := by
  unfold motion
  rw [direction_eq hm]
  cases m.kind with
  | linear => exact ⟨_, rfl, .displacement _⟩
  | rotational => exact ⟨_, rfl, Matrix4.rotation_rigid hm.zz _ _⟩

/-- A mechanism has a value for every point. -/
theorem exists_position (hm : m.frame.Orthonormal) (p : Vector3 ℝ) :
    ∃ x, m.position p = .ok x := by
  unfold position
  cases m.kind with
  | linear =>
    rw [trackPosition, direction_eq hm]
    exact ⟨_, rfl⟩
  | rotational =>
    rw [turnPosition, Vector3.unit_of_dot_self hm.xx, Vector3.unit_of_dot_self hm.yy]
    simp only [Outcome.ok_bind]
    split
    · exact ⟨_, rfl⟩
    · exact ⟨_, rfl⟩

/-- A positioner turns by less than a half turn. -/
theorem turnPosition_lt {p : Vector3 ℝ} {x : ℝ} (h : m.turnPosition p = .ok x) : x < 180 := by
  obtain ⟨a, -, h⟩ := Outcome.bind_eq_ok.mp h
  obtain ⟨b, -, h⟩ := Outcome.bind_eq_ok.mp h
  dsimp only at h
  split at h
  · rw [← Outcome.pure_eq_ok.mp h]
    norm_num
  · rw [← Outcome.pure_eq_ok.mp h]
    exact Scalar.neg_degrees_atan2_lt _ _

end Mechanism

/-! ### Slots -/

section Slots

variable {α : Type} {slots : Slots α} {m n : Mechanism α}

/-- A slot that is set has the value. -/
theorem slotValue_set (hm : m.number.toNat < 6) (x : Option α) :
    slotValue (slots.setIfInBounds m.number.toNat x) m = x := by
  simp [slotValue, hm]

/-- Setting a slot keeps the others. -/
theorem slotValue_set_of_ne (h : n.number.toNat ≠ m.number.toNat) (x : Option α) :
    slotValue (slots.setIfInBounds m.number.toNat x) n = slotValue slots n := by
  simp [slotValue, h.symm]

end Slots

namespace Kinematics.Solver

/-! ### One step -/

/-- What a step of the resolution does: it keeps the slots of the other mechanisms, and moves the
pose by the value that its own slot has after it. -/
structure Settled (m : Mechanism ℝ) (before after : Slots ℝ × Matrix4 ℝ) : Prop where
  kept : ∀ n : Mechanism ℝ, n.number.toNat ≠ m.number.toNat →
    slotValue after.1 n = slotValue before.1 n
  moved : ∃ value t, slotValue after.1 m = some value ∧ m.motion value = .ok t ∧
    after.2 = t * before.2

section Steps

variable {m : Mechanism ℝ} {p : Vector3 ℝ} {slots : Slots ℝ} {pose : Matrix4 ℝ}

/-- A step that ends well settles its mechanism. -/
theorem settled_of_settle {before after : Slots ℝ × Matrix4 ℝ}
    (h : settle p before m = .ok after) : Settled m before after := by
  obtain ⟨slots, hslots, h⟩ := Outcome.bind_eq_ok.mp h
  have hkept (n : Mechanism ℝ) (hn : n.number.toNat ≠ m.number.toNat) :
      slotValue slots n = slotValue before.1 n := by
    unfold fillSlot at hslots
    split at hslots
    · rw [Except.ok.inj hslots]
    · obtain ⟨x, -, rfl⟩ := Outcome.map_eq_ok.mp hslots
      exact slotValue_set_of_ne hn _
  split at h
  · cases h
  · next value hvalue =>
    obtain ⟨t, ht, h⟩ := Outcome.bind_eq_ok.mp h
    obtain rfl := Outcome.pure_eq_ok.mp h
    exact ⟨hkept, value, t, hvalue, ht, rfl⟩

/-- A step fails only where the value of an open slot is the one that stands for none. -/
theorem settle_isOk_iff (hm : m.frame.Orthonormal) (hnumber : m.number.toNat < 6)
    (p : Vector3 ℝ) (state : Slots ℝ × Matrix4 ℝ) :
    (∃ after, settle p state m = .ok after) ↔
      (slotValue state.1 m = none → m.position p ≠ .ok undefinedValue) := by
  obtain ⟨slots, pose⟩ := state
  cases hslot : slotValue slots m with
  | some x =>
    obtain ⟨t, ht, -⟩ := m.exists_motion hm x
    simp [settle, fillSlot, hslot, ht]
  | none =>
    obtain ⟨x, hx⟩ := m.exists_position hm p
    obtain ⟨t, ht, -⟩ := m.exists_motion hm x
    simp only [settle, fillSlot, hslot, hx, Outcome.ok_map, Outcome.ok_bind, slotValue_set hnumber,
      slotOf]
    by_cases hundefined : x = undefinedValue
    · simp [hundefined]
    · simp [hundefined, ht]

end Steps

/-! ### Runs over mechanisms on distinct slots -/

/-- Mechanisms that sit on distinct slots. -/
abbrev Apart (ms : List (Mechanism ℝ)) : Prop :=
  ms.Pairwise fun m n => n.number.toNat ≠ m.number.toNat

/-- The outcome of a run: the slots of other mechanisms are kept, and the pose is where the
mechanisms carry the first one, given any slots with the values of the run. -/
structure Travelled (ms : List (Mechanism ℝ)) (before after : Slots ℝ × Matrix4 ℝ) : Prop where
  kept : ∀ n : Mechanism ℝ, (∀ m ∈ ms, n.number.toNat ≠ m.number.toNat) →
    slotValue after.1 n = slotValue before.1 n
  carried : ∀ slots : Slots ℝ, (∀ m ∈ ms, slotValue slots m = slotValue after.1 m) →
    ms.foldlM (carry slots) before.2 = .ok after.2

section Runs

variable {f : Slots ℝ × Matrix4 ℝ → Mechanism ℝ → Outcome (Slots ℝ × Matrix4 ℝ)}
  {ms : List (Mechanism ℝ)}

/-- Steps that follow one another travel together. -/
theorem Travelled.cons {m : Mechanism ℝ} {before middle after : Slots ℝ × Matrix4 ℝ}
    (hstep : Settled m before middle) (hrest : Travelled ms middle after)
    (hm : ∀ n ∈ ms, n.number.toNat ≠ m.number.toNat) : Travelled (m :: ms) before after where
  kept n hn := by
    rw [List.forall_mem_cons] at hn
    rw [hrest.kept n hn.2, hstep.kept n hn.1]
  carried slots hslots := by
    rw [List.forall_mem_cons] at hslots
    obtain ⟨value, t, hvalue, ht, hmiddle⟩ := hstep.moved
    -- The later steps keep the slot of `m`.
    have hlast : slotValue after.1 m = some value := by
      rw [hrest.kept m fun n hn => (hm n hn).symm, hvalue]
    have hcarry : carry slots before.2 m = .ok middle.2 := by
      rw [carry, hslots.1, hlast, hmiddle]
      simp only [ht]
      rfl
    rw [List.foldlM_cons, hcarry, Outcome.ok_bind]
    exact hrest.carried slots hslots.2

/-- A run of steps over mechanisms on different slots travels along all of them. -/
theorem travelled_of_run (hf : ∀ state m, ∃ p, f state m = settle p state m) (hms : Apart ms)
    {before after : Slots ℝ × Matrix4 ℝ} (h : ms.foldlM f before = .ok after) :
    Travelled ms before after := by
  induction ms generalizing before with
  | nil =>
    obtain rfl := Outcome.pure_eq_ok.mp h
    exact ⟨fun _ _ => rfl, fun _ _ => rfl⟩
  | cons m ms ih =>
    rw [Apart, List.pairwise_cons] at hms
    rw [List.foldlM_cons] at h
    obtain ⟨middle, hmiddle, h⟩ := Outcome.bind_eq_ok.mp h
    obtain ⟨p, hp⟩ := hf before m
    exact .cons (settled_of_settle (hp ▸ hmiddle)) (ih hms.2 h) hms.1

/-- A run succeeds exactly when each of its steps does, where that depends only on the slots at the
start. -/
theorem run_isOk_iff (hf : ∀ state m, ∃ p, f state m = settle p state m) (hms : Apart ms)
    {P : Mechanism ℝ → Prop} (before : Slots ℝ × Matrix4 ℝ)
    (hP : ∀ m ∈ ms, ∀ state, slotValue state.1 m = slotValue before.1 m →
      ((∃ after, f state m = .ok after) ↔ P m)) :
    (∃ after, ms.foldlM f before = .ok after) ↔ ∀ m ∈ ms, P m := by
  induction ms generalizing before with
  | nil => simpa using ⟨before.1, before.2, rfl⟩
  | cons m ms ih =>
    rw [Apart, List.pairwise_cons] at hms
    rw [List.forall_mem_cons] at hP ⊢
    rw [List.foldlM_cons, ← hP.1 before rfl]
    have hrest {middle : Slots ℝ × Matrix4 ℝ} (hmiddle : f before m = .ok middle) :
        (∃ after, ms.foldlM f middle = .ok after) ↔ ∀ n ∈ ms, P n := by
      obtain ⟨p, hp⟩ := hf before m
      have hstep := settled_of_settle (hp ▸ hmiddle)
      refine ih hms.2 middle fun n hn state hstate => hP.2 n hn state ?_
      rw [hstate, hstep.kept n (hms.1 n hn)]
    constructor
    · rintro ⟨after, h⟩
      obtain ⟨middle, hmiddle, h⟩ := Outcome.bind_eq_ok.mp h
      exact ⟨⟨middle, hmiddle⟩, (hrest hmiddle).mp ⟨after, h⟩⟩
    · rintro ⟨⟨middle, hmiddle⟩, h⟩
      rw [hmiddle, Outcome.ok_bind]
      exact (hrest hmiddle).mpr h

end Runs

/-- Mechanisms carry a pose by one rigid motion, and in reverse order they carry it back by the
inverse of that motion. -/
theorem exists_travel (slots : Slots ℝ) {ms : List (Mechanism ℝ)}
    (hms : ∀ m ∈ ms, m.frame.Orthonormal) :
    ∃ t : Matrix4 ℝ, t.Rigid ∧ (∀ pose, ms.foldlM (carry slots) pose = .ok (t * pose)) ∧
      ∀ pose, ms.reverse.foldlM (carryBack slots) pose = .ok (t.inverse * pose) := by
  induction ms with
  | nil =>
    refine ⟨1, .one, fun pose => ?_, fun pose => ?_⟩
    · rw [one_mul]
      rfl
    · rw [Matrix4.Rigid.inverse_one, one_mul]
      rfl
  | cons m ms ih =>
    rw [List.forall_mem_cons] at hms
    obtain ⟨t, ht, hcarry, hback⟩ := ih hms.2
    cases hslot : slotValue slots m with
    | none =>
      refine ⟨t, ht, fun pose => ?_, fun pose => ?_⟩
      · rw [List.foldlM_cons, carry, hslot]
        exact hcarry pose
      · rw [List.reverse_cons, List.foldlM_append, hback, Outcome.ok_bind, List.foldlM_cons,
          carryBack, hslot]
        rfl
    | some value =>
      obtain ⟨u, hu, hrigid⟩ := m.exists_motion hms.1 value
      -- The first mechanism acts first, and in reverse it is undone last.
      refine ⟨t * u, ht.mul hrigid, fun pose => ?_, fun pose => ?_⟩
      · rw [List.foldlM_cons, carry, hslot]
        simp only [hu, Outcome.ok_bind]
        rw [mul_assoc]
        exact hcarry _
      · rw [List.reverse_cons, List.foldlM_append, hback, Outcome.ok_bind, List.foldlM_cons,
          carryBack, hslot]
        simp only [hu, Outcome.ok_bind]
        rw [ht.mul_inverse_rev hrigid, mul_assoc]
        rfl

/-! ### The two directions -/

variable {s : Solver ℝ}

/-- The mechanisms of a kind are those of the robot that are of it. -/
theorem mem_mechanismsOf {kind : MechanismKind} {m : Mechanism ℝ} :
    m ∈ s.mechanismsOf kind ↔ m ∈ s.robot.mechanisms ∧ m.kind = kind := by
  simp [mechanismsOf]

/-- A mechanism of a robot has a slot. -/
theorem number_lt (m : Mechanism ℝ) (hm : m ∈ s.robot.mechanisms) : m.number.toNat < 6 := by
  have := s.robot.wellNumbered.2.1 m hm
  omega

/-- Distinct mechanisms of a robot have distinct slots. -/
theorem number_ne {m n : Mechanism ℝ} (hm : m ∈ s.robot.mechanisms) (hn : n ∈ s.robot.mechanisms)
    (hne : m ≠ n) : m.number.toNat ≠ n.number.toNat := by
  obtain ⟨-, hrange, hnodup⟩ := s.robot.wellNumbered
  intro h
  have hm' := hrange m hm
  have hn' := hrange n hn
  have hsame : m.number = n.number := by omega
  exact hne (List.inj_on_of_nodup_map hnodup hm hn hsame)

/-- The mechanisms of a kind are on different slots. -/
theorem apart_mechanismsOf (s : Solver ℝ) (kind : MechanismKind) :
    Apart (s.mechanismsOf kind) := by
  obtain ⟨-, hrange, hnodup⟩ := s.robot.wellNumbered
  have hpairs : s.robot.mechanisms.Pairwise fun m n => m.number ≠ n.number :=
    List.pairwise_map.mp hnodup
  refine (hpairs.sublist List.filter_sublist).imp_of_mem fun hm hn hne => ?_
  have hm' := hrange _ (List.mem_of_mem_filter hm)
  have hn' := hrange _ (List.mem_of_mem_filter hn)
  omega

/-- The value that a positioner gets is never taken for an undefined slot. -/
theorem exists_turned (hs : s.robot.Orthonormal) (slots : Slots ℝ) (pose : Matrix4 ℝ) :
    ∃ after, (s.mechanismsOf .rotational).foldlM settleTurn (slots, pose) = .ok after := by
  refine (run_isOk_iff (P := fun _ => True) (fun state m => ⟨_, rfl⟩) (s.apart_mechanismsOf _) _
    fun m hm state _ => ?_).mpr fun _ _ => trivial
  obtain ⟨hm, hkind⟩ := mem_mechanismsOf.mp hm
  have hposition (p : Vector3 ℝ) : m.position p ≠ .ok undefinedValue := by
    rw [Mechanism.position, hkind]
    intro h
    have := Mechanism.turnPosition_lt h
    norm_num [undefinedValue] at this
  have hok := (settle_isOk_iff (hs.mechanism m hm) (number_lt m hm) state.2.position state).mpr
    fun _ => hposition _
  exact iff_of_true hok trivial

/-- The external values of a target carry the base by one rigid motion and the target by another,
and the goal is the target as it is seen from the base. -/
theorem travel_of_resolveExternal (hs : s.robot.Orthonormal) {target : Frame ℝ}
    {slots values : Slots ℝ} {goal : Matrix4 ℝ}
    (h : s.resolveExternal target slots = .ok (values, goal)) :
    ∃ along around : Matrix4 ℝ, along.Rigid ∧ around.Rigid ∧
      (s.mechanismsOf .linear).foldlM (carry values) s.robot.baseFrame.toMatrix =
        .ok (along * s.robot.baseFrame.toMatrix) ∧
      (∀ pose, (s.mechanismsOf .rotational).reverse.foldlM (carryBack values) pose =
        .ok (around.inverse * pose)) ∧
      goal = (along * s.robot.baseFrame.toMatrix).inverse * (around * target.toMatrix) := by
  obtain ⟨⟨turned, world⟩, hturned, h⟩ := Outcome.bind_eq_ok.mp h
  obtain ⟨⟨filled, base⟩, hfilled, h⟩ := Outcome.bind_eq_ok.mp h
  obtain ⟨rfl, rfl⟩ := Prod.mk.inj (Outcome.pure_eq_ok.mp h)
  have hrotational := travelled_of_run (fun state m => ⟨_, rfl⟩) (s.apart_mechanismsOf _) hturned
  have hlinear := travelled_of_run (fun state m => ⟨_, rfl⟩) (s.apart_mechanismsOf _) hfilled
  have hframes (kind : MechanismKind) : ∀ m ∈ s.mechanismsOf kind, m.frame.Orthonormal :=
    fun m hm => hs.mechanism m (mem_mechanismsOf.mp hm).1
  obtain ⟨along, halong, hcarry, -⟩ := exists_travel filled (hframes .linear)
  obtain ⟨around, haround, hturn, hback⟩ := exists_travel filled (hframes .rotational)
  have hbase : along * s.robot.baseFrame.toMatrix = base :=
    Except.ok.inj ((hcarry _).symm.trans (hlinear.carried _ fun _ _ => rfl))
  have hworld : around * target.toMatrix = world := by
    refine Except.ok.inj ((hturn _).symm.trans (hrotational.carried _ fun m hm => ?_))
    -- The tracks are settled last, but on slots of their own.
    obtain ⟨hm, hkind⟩ := mem_mechanismsOf.mp hm
    refine hlinear.kept m fun n hn => ?_
    obtain ⟨hn, hkind'⟩ := mem_mechanismsOf.mp hn
    exact number_ne hm hn (ne_of_apply_ne Mechanism.kind (by simp [hkind, hkind']))
  exact ⟨along, around, halong, haround, hcarry _, hback, by rw [hbase, hworld]⟩

/-- The goal of a target is a rigid motion. -/
theorem rigid_of_resolveExternal (hs : s.robot.Orthonormal) {target : Frame ℝ}
    (htarget : target.Orthonormal) {slots values : Slots ℝ} {goal : Matrix4 ℝ}
    (h : s.resolveExternal target slots = .ok (values, goal)) : goal.Rigid := by
  obtain ⟨along, around, halong, haround, -, -, rfl⟩ := travel_of_resolveExternal hs h
  exact (halong.mul hs.base.rigid).inverse.mul (haround.mul htarget.rigid)

/-- Once the positioners have turned the target, the resolution fails only where a track is sent to
the number that stands for an undefined slot. -/
theorem resolveExternal_isOk_iff (hs : s.robot.Orthonormal) {target : Frame ℝ}
    {slots turned : Slots ℝ} {world : Matrix4 ℝ}
    (hturned : (s.mechanismsOf .rotational).foldlM settleTurn (slots, target.toMatrix) =
      .ok (turned, world)) :
    (∃ r, s.resolveExternal target slots = .ok r) ↔
      ∀ m ∈ s.mechanismsOf .linear, slotValue slots m = none →
        m.position world.position ≠ .ok undefinedValue := by
  have hrotational := travelled_of_run (fun state m => ⟨_, rfl⟩) (s.apart_mechanismsOf _) hturned
  have hlinear := run_isOk_iff (f := settle world.position)
    (P := fun m => slotValue slots m = none → m.position world.position ≠ .ok undefinedValue)
    (fun state m => ⟨_, rfl⟩) (s.apart_mechanismsOf .linear)
    (turned, s.robot.baseFrame.toMatrix) fun m hm state hstate => by
      obtain ⟨hm, hkind⟩ := mem_mechanismsOf.mp hm
      rw [settle_isOk_iff (hs.mechanism m hm) (number_lt m hm), hstate,
        hrotational.kept m fun n hn => ?_]
      obtain ⟨hn, hkind'⟩ := mem_mechanismsOf.mp hn
      exact number_ne hm hn (ne_of_apply_ne Mechanism.kind (by simp [hkind, hkind']))
  rw [← hlinear, resolveExternal, hturned, Outcome.ok_bind]
  constructor
  · rintro ⟨r, h⟩
    obtain ⟨after, hafter, -⟩ := Outcome.bind_eq_ok.mp h
    exact ⟨after, hafter⟩
  · rintro ⟨after, hafter⟩
    exact ⟨_, Outcome.bind_eq_ok.mpr ⟨after, hafter, rfl⟩⟩

/-- The tool pose of real joint values: the chain on the carried base, with the positioners
undone. -/
theorem forward_eq {joints : Angles ℝ} {values : Slots ℝ} {base t : Matrix4 ℝ}
    (hbase : (s.mechanismsOf .linear).foldlM (carry values) s.robot.baseFrame.toMatrix = .ok base)
    (hback : ∀ pose, (s.mechanismsOf .rotational).reverse.foldlM (carryBack values) pose =
      .ok (t.inverse * pose)) :
    s.forward joints values =
      Frame.ofMatrix (t.inverse * (base * s.chain (joints.map Scalar.radians))) := by
  have hfinite : joints.all Scalar.finite = true := by
    rw [Vector.all_eq_true]
    exact fun i hi => rfl
  rw [forward, hfinite, hbase, Outcome.ok_bind]
  simp only [hback, Outcome.ok_bind]
  rfl

/-- Forward kinematics inverts the resolution of external axes: joint values give a target back
exactly when their angles reach the goal that the target was resolved to. The resolution fails only
where a track is sent to the number that stands for an undefined slot. -/
theorem forward_eq_target_iff {robot : Robot ℝ} {options : Options ℝ}
    (hs : make robot options = .ok s) (hrobot : robot.Orthonormal) {target : Frame ℝ}
    (htarget : target.Orthonormal) (slots : Slots ℝ) :
    (∃ turned world, (s.mechanismsOf .rotational).foldlM settleTurn (slots, target.toMatrix) =
        .ok (turned, world) ∧
      ((∃ r, s.resolveExternal target slots = .ok r) ↔
        ∀ m ∈ s.mechanismsOf .linear, slotValue slots m = none →
          m.position world.position ≠ .ok undefinedValue)) ∧
    ∀ values goal, s.resolveExternal target slots = .ok (values, goal) → ∀ q : Angles ℝ,
      s.forward (q.map fun x => Scalar.wrapDegrees (Scalar.degrees x)) values = .ok target ↔
        s.chain q = goal := by
  have hrigid := rigid_of_make hs hrobot.tool
  obtain ⟨rfl, -, -, -⟩ := make_eq_ok hs
  constructor
  · obtain ⟨⟨turned, world⟩, hturned⟩ := exists_turned hrobot slots target.toMatrix
    exact ⟨turned, world, hturned, resolveExternal_isOk_iff hrobot hturned⟩
  · intro values goal h q
    obtain ⟨along, around, halong, haround, hcarry, hback, rfl⟩ :=
      travel_of_resolveExternal hrobot h
    have hbase := halong.mul hrobot.base.rigid
    have hpose := haround.inverse.mul (hbase.mul (hrigid.chain q))
    rw [forward_eq hcarry hback, chain_wrapped, Frame.ofMatrix_eq_ok_iff hpose htarget,
      haround.inverse_mul_eq_iff, hbase.mul_eq_iff]

/-- A track along the first axis of the world, on the first slot. -/
noncomputable def track : Mechanism ℝ :=
  ⟨.text "track", .linear, ⟨.zero, .unitY, .unitZ⟩, ⟨-1000, 1000⟩, 0, .text "a"⟩

/-- A turntable beside the track, on the second slot. -/
noncomputable def turntable : Mechanism ℝ :=
  ⟨.text "turntable", .rotational, ⟨⟨1500, 0, 0⟩, .unitX, .unitY⟩, .fullTurn, 1, .text "b"⟩

/-- A robot on the track before the turntable. -/
noncomputable def station : Robot ℝ :=
  .bare (.replicate 6 .world) [turntable, track] (by simp [WellNumbered, turntable, track])

/-- The axes of the turntable are perpendicular unit vectors. -/
theorem turntable_orthonormal : turntable.frame.Orthonormal :=
  ⟨by simp [turntable, Vector3.dot_eq], by simp [turntable, Vector3.dot_eq],
    by simp [turntable, Vector3.dot_eq]⟩

/-- The axes of the track are perpendicular unit vectors. -/
theorem track_orthonormal : track.frame.Orthonormal :=
  ⟨by simp [track, Vector3.dot_eq], by simp [track, Vector3.dot_eq],
    by simp [track, Vector3.dot_eq]⟩

/-- All frames of that robot have such axes. -/
theorem station_orthonormal : station.Orthonormal := by
  refine Robot.bare_orthonormal ?_
  rw [List.forall_mem_cons, List.forall_mem_singleton]
  exact ⟨turntable_orthonormal, track_orthonormal⟩

/-- The track stays where it is sent and the turntable is resolved. -/
theorem forward_eq_target_iff_station :
    ∃ s : Solver ℝ, make station Options.default = .ok s ∧ station.Orthonormal ∧
      (⟨⟨1000, 200, 300⟩, .unitX, .unitY⟩ : Frame ℝ).Orthonormal ∧
      ∃ values goal, s.resolveExternal ⟨⟨1000, 200, 300⟩, .unitX, .unitY⟩
          #v[some 500, none, none, none, none, none] = .ok (values, goal) ∧
        ∀ q : Angles ℝ,
          s.forward (q.map fun x => Scalar.wrapDegrees (Scalar.degrees x)) values =
            .ok ⟨⟨1000, 200, 300⟩, .unitX, .unitY⟩ ↔ s.chain q = goal := by
  have htarget : (⟨⟨1000, 200, 300⟩, .unitX, .unitY⟩ : Frame ℝ).Orthonormal :=
    ⟨by simp [Vector3.dot_eq], by simp [Vector3.dot_eq], by simp [Vector3.dot_eq]⟩
  have haxes (i : Fin 6) : (station.axisFrames.get i).Orthonormal := by
    simpa [station, Robot.bare, Vector.get] using Frame.world_orthonormal
  have hs := make_of_orthonormal Options.default haxes
  obtain ⟨⟨turned, world, -, hok⟩, hforward⟩ := forward_eq_target_iff hs station_orthonormal htarget
    #v[some 500, none, none, none, none, none]
  obtain ⟨⟨values, goal⟩, hgoal⟩ := hok.mpr fun m hm hopen => by
    obtain ⟨hm, hkind⟩ := mem_mechanismsOf.mp hm
    obtain rfl | rfl := List.mem_pair.mp hm
    · cases hkind
    · cases hopen
  exact ⟨_, hs, station_orthonormal, htarget, values, goal, hgoal, hforward values goal hgoal⟩

end Kinematics.Solver

end RobotProgram
