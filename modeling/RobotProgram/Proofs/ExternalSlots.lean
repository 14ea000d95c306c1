import RobotProgram.Proofs.ExternalAxes
import RobotProgram.Proofs.Records

/-!
# External slots of a resolved target

A step of the resolution moves one mechanism to a value: the one in its slot, or else the one that
serves the target (`settle_eq_ok`). So a run defines the open slots of its mechanisms and keeps all
others, for any scalars (`Fills`). Over the reals, two tracks on distinct slots can be settled in
either order: their values depend on the target alone, and displacements commute (`settle_comm`).
A permutation of the tracks is then followed through by the exchanges it is made of
(`foldlM_eq_ok_of_perm`).
-/

namespace RobotProgram

/-- Steps that commute in pairs give the same result in any order. The faults of a failing run may
depend on the order, so only what runs return is compared. -/
theorem Outcome.foldlM_eq_ok_of_perm {α β : Type} {f : β → α → Outcome β} {xs ys : List α}
    (hperm : xs.Perm ys)
    (hcomm : ∀ x ∈ xs, ∀ y ∈ xs, ∀ b c,
      (f b x >>= fun b => f b y) = .ok c ↔ (f b y >>= fun b => f b x) = .ok c)
    (b c : β) : xs.foldlM f b = .ok c ↔ ys.foldlM f b = .ok c := by
  induction hperm generalizing b with
  | nil => rfl
  | cons x _ ih =>
    have hrest := ih fun y hy z hz => hcomm y (.tail x hy) z (.tail x hz)
    simp only [List.foldlM_cons, bind_eq_ok, hrest]
  | swap x y zs =>
    have hpair := hcomm x (.tail y (.head zs)) y (.head (x :: zs)) b
    have hsplit (x y : α) : (x :: y :: zs).foldlM f b = .ok c ↔
        ∃ b', (f b x >>= fun b => f b y) = .ok b' ∧ zs.foldlM f b' = .ok c := by
      rw [List.foldlM_cons, ← bind_eq_ok]
      simp only [List.foldlM_cons, bind_assoc]
    simp only [hsplit, hpair]
  | trans hxy _ ihxy ihyz =>
    refine (ihxy hcomm b).trans (ihyz ?_ b)
    exact fun x hx y hy => hcomm x (hxy.mem_iff.mpr hx) y (hxy.mem_iff.mpr hy)

/-- Displacements commute. -/
theorem Matrix4.displacement_comm (v w : Vector3 ℝ) :
    displacement v * displacement w = displacement w * displacement v := by
  ext1 <;> simp [mul_r1, mul_r2, mul_r3, mul_r4, rowMul_eq, displacement, ofColumns, add_comm]

namespace Kinematics.Solver

/-! ### One step -/

section Steps

variable {α : Type} [Scalar α] {m n : Mechanism α} {point : Vector3 α}

omit [Scalar α] in
/-- Two different slots may be set in either order. -/
theorem setIfInBounds_comm {i j : ℕ} (h : i ≠ j) (slots : Slots α) (x y : Option α) :
    (slots.setIfInBounds i x).setIfInBounds j y = (slots.setIfInBounds j y).setIfInBounds i x :=
  Vector.toArray_inj.mp (Array.setIfInBounds_comm x y h)

omit [Scalar α] in
/-- To store the value that a slot has changes nothing. -/
theorem setIfInBounds_slotValue {slots : Slots α} {value : α} (h : slotValue slots m = some value) :
    slots.setIfInBounds m.number.toNat (some value) = slots := by
  ext i hi x
  by_cases hslot : m.number.toNat = i
  · subst hslot
    have hvalue : slots[m.number.toNat] = some value := by simpa [slotValue, hi] using h
    simp [hvalue]
  · simp [hslot]

/-- The value that a mechanism is moved to: that of its slot, or else the one that serves a point,
unless that is the number for an undefined slot. -/
def valueFor (point : Vector3 α) (slots : Slots α) (m : Mechanism α) : Outcome α :=
  match slotValue slots m with
  | some value => .ok value
  | none => do
    match slotOf (← m.position point) with
    | some value => return value
    | none => throw .wrongType

/-- To fill a slot is to store the value that the mechanism is moved to. -/
theorem fillSlot_eq_ok (hm : m.number.toNat < 6) {slots filled : Slots α} {value : α} :
    fillSlot point slots m = .ok filled ∧ slotValue filled m = some value ↔
      valueFor point slots m = .ok value ∧
        filled = slots.setIfInBounds m.number.toNat (some value) := by
  unfold fillSlot valueFor
  cases hslot : slotValue slots m with
  | some x =>
    simp only [Except.ok.injEq]
    constructor
    · rintro ⟨rfl, hvalue⟩
      rw [hslot] at hvalue
      obtain rfl := Option.some.inj hvalue
      exact ⟨rfl, (setIfInBounds_slotValue hslot).symm⟩
    · rintro ⟨rfl, rfl⟩
      rw [setIfInBounds_slotValue hslot]
      exact ⟨rfl, hslot⟩
  | none =>
    simp only [Outcome.bind_eq_ok, Outcome.map_eq_ok]
    constructor
    · rintro ⟨⟨x, hx, rfl⟩, hvalue⟩
      rw [slotValue_set hm] at hvalue
      exact ⟨⟨x, hx, by rw [hvalue]; rfl⟩, by rw [hvalue]⟩
    · rintro ⟨⟨x, hx, h⟩, rfl⟩
      have hvalue : slotOf x = some value := by
        split at h
        · next value' hvalue' => rw [hvalue', Outcome.pure_eq_ok.mp h]
        · cases h
      exact ⟨⟨x, hx, by rw [hvalue]⟩, slotValue_set hm _⟩

/-- A step stores the value that its mechanism is moved to, and moves the pose by it. -/
theorem settle_eq_ok (hm : m.number.toNat < 6) {before after : Slots α × Matrix4 α} :
    settle point before m = .ok after ↔ ∃ value t, valueFor point before.1 m = .ok value ∧
      m.motion value = .ok t ∧
      after = (before.1.setIfInBounds m.number.toNat (some value), t * before.2) := by
  constructor
  · intro h
    obtain ⟨filled, hfilled, h⟩ := Outcome.bind_eq_ok.mp h
    split at h
    · cases h
    · next value hvalue =>
      obtain ⟨hfor, rfl⟩ := (fillSlot_eq_ok hm).mp ⟨hfilled, hvalue⟩
      obtain ⟨t, ht, h⟩ := Outcome.bind_eq_ok.mp h
      exact ⟨value, t, hfor, ht, (Outcome.pure_eq_ok.mp h).symm⟩
  · rintro ⟨value, t, hfor, ht, rfl⟩
    obtain ⟨hfilled, hvalue⟩ := (fillSlot_eq_ok hm).mpr ⟨hfor, rfl⟩
    rw [settle, hfilled, Outcome.ok_bind, hvalue]
    exact Outcome.bind_eq_ok.mpr ⟨t, ht, rfl⟩

/-- The value of a mechanism does not depend on the slots of others. -/
theorem valueFor_set (h : m.number.toNat ≠ n.number.toNat) (slots : Slots α) (x : Option α) :
    valueFor point (slots.setIfInBounds n.number.toNat x) m = valueFor point slots m := by
  rw [valueFor, slotValue_set_of_ne h]
  rfl

end Steps

/-! ### Slots of a run -/

/-- What a run over mechanisms does to the slots: defined slots keep their values, and an open slot
becomes defined exactly when it belongs to one of the mechanisms. -/
structure Fills {α : Type} (ms : List (Mechanism α)) (before after : Slots α) : Prop where
  kept : ∀ (i : Fin 6) (x : α), before.get i = some x → after.get i = some x
  filled : ∀ i : Fin 6, before.get i = none →
    ((after.get i).isSome = true ↔ ∃ m ∈ ms, m.number = (i.val : Int))

namespace Fills

section

variable {α : Type} {ms ns : List (Mechanism α)} {before middle after : Slots α}

/-- No mechanism fills no slot. -/
theorem nil (slots : Slots α) : Fills [] slots slots where
  kept _ _ h := h
  filled i h := by simp [h]

/-- Runs over mechanisms that follow one another fill the slots of both. -/
theorem append (h : Fills ms before middle) (h' : Fills ns middle after) :
    Fills (ms ++ ns) before after where
  kept i x hx := h'.kept i x (h.kept i x hx)
  filled i hi := by
    simp only [List.mem_append, or_and_right, exists_or]
    rw [← h.filled i hi]
    cases hmiddle : middle.get i with
    | some x =>
      rw [h'.kept i x hmiddle]
      simp
    | none =>
      rw [h'.filled i hmiddle]
      simp

/-- The mechanisms count in any order. -/
theorem of_mem_iff (h : Fills ms before after) (hmem : ∀ m, m ∈ ms ↔ m ∈ ns) :
    Fills ns before after where
  kept := h.kept
  filled i hi := by
    rw [h.filled i hi]
    simp only [hmem]

end

variable {α : Type} [Scalar α] {m : Mechanism α} {before after : Slots α × Matrix4 α}

/-- A step fills the slot of its mechanism. -/
theorem of_settle {point : Vector3 α} (hnumber : 0 ≤ m.number ∧ m.number < 6)
    (h : settle point before m = .ok after) : Fills [m] before.1 after.1 := by
  obtain ⟨value, t, hvalue, -, rfl⟩ := (settle_eq_ok (by omega)).mp h
  have hafter (i : Fin 6) : (before.1.setIfInBounds m.number.toNat (some value)).get i =
      if m.number.toNat = i.val then some value else before.1.get i :=
    Vector.getElem_setIfInBounds i.isLt
  constructor
  · intro i x hx
    rw [hafter]
    split_ifs with hslot
    · -- The slot of the mechanism is defined, so that is the value it is moved to.
      have hopen : slotValue before.1 m = some x := by
        rw [slotValue, hslot]
        simpa [Vector.get] using hx
      rw [valueFor, hopen] at hvalue
      rw [Except.ok.inj hvalue]
    · exact hx
  · intro i hi
    have hsame : m.number.toNat = i.val ↔ m.number = (i.val : Int) := by omega
    rw [hafter, hi]
    split_ifs with hslot
    · simp [hsame.mp hslot]
    · simp [hsame.not.mp hslot]

/-- A run fills the slots of its mechanisms. -/
theorem of_run {f : Slots α × Matrix4 α → Mechanism α → Outcome (Slots α × Matrix4 α)}
    (hf : ∀ state m, ∃ p, f state m = settle p state m) {ms : List (Mechanism α)}
    (hnumbers : ∀ m ∈ ms, 0 ≤ m.number ∧ m.number < 6)
    (h : ms.foldlM f before = .ok after) : Fills ms before.1 after.1 := by
  induction ms generalizing before with
  | nil =>
    obtain rfl := Outcome.pure_eq_ok.mp h
    exact .nil _
  | cons m ms ih =>
    rw [List.forall_mem_cons] at hnumbers
    rw [List.foldlM_cons] at h
    obtain ⟨middle, hmiddle, h⟩ := Outcome.bind_eq_ok.mp h
    obtain ⟨p, hp⟩ := hf before m
    exact (of_settle hnumbers.1 (hp ▸ hmiddle)).append (ih hnumbers.2 h)

/-- The resolution fills the slots of the robot's mechanisms. -/
theorem of_resolveExternal {s : Solver α} {target : Frame α} {slots values : Slots α}
    {goal : Matrix4 α} (h : s.resolveExternal target slots = .ok (values, goal)) :
    Fills s.robot.mechanisms slots values := by
  have hnumbers (kind : MechanismKind) (m : Mechanism α) (hm : m ∈ s.mechanismsOf kind) :
      0 ≤ m.number ∧ m.number < 6 :=
    s.robot.wellNumbered.2.1 m (List.mem_of_mem_filter hm)
  obtain ⟨⟨turned, world⟩, hturned, h⟩ := Outcome.bind_eq_ok.mp h
  obtain ⟨⟨filled, base⟩, hfilled, h⟩ := Outcome.bind_eq_ok.mp h
  obtain ⟨rfl, rfl⟩ := Prod.mk.inj (Outcome.pure_eq_ok.mp h)
  have hrotational := of_run (fun _ _ => ⟨_, rfl⟩) (hnumbers .rotational) hturned
  have hlinear := of_run (fun _ _ => ⟨_, rfl⟩) (hnumbers .linear) hfilled
  refine (hrotational.append hlinear).of_mem_iff fun m => ?_
  cases hkind : m.kind <;> simp [mechanismsOf, hkind]

end Fills

/-! ### Orders of the tracks -/

section

variable {m n : Mechanism ℝ}

/-- The motions of two tracks commute. -/
theorem motion_comm (hm : m.kind = .linear) (hn : n.kind = .linear) {x y : ℝ} {t u : Matrix4 ℝ}
    (ht : m.motion x = .ok t) (hu : n.motion y = .ok u) : t * u = u * t := by
  rw [Mechanism.motion, hm] at ht
  rw [Mechanism.motion, hn] at hu
  obtain ⟨a, -, ht⟩ := Outcome.bind_eq_ok.mp ht
  obtain ⟨b, -, hu⟩ := Outcome.bind_eq_ok.mp hu
  rw [← Outcome.pure_eq_ok.mp ht, ← Outcome.pure_eq_ok.mp hu]
  exact Matrix4.displacement_comm _ _

/-- Two tracks on distinct slots are settled in either order. -/
theorem settle_comm (hm : m.kind = .linear) (hn : n.kind = .linear) (hm' : m.number.toNat < 6)
    (hn' : n.number.toNat < 6) (hne : m.number.toNat ≠ n.number.toNat) (point : Vector3 ℝ)
    (before after : Slots ℝ × Matrix4 ℝ) :
    (settle point before m >>= fun state => settle point state n) = .ok after →
      (settle point before n >>= fun state => settle point state m) = .ok after := by
  simp only [Outcome.bind_eq_ok, settle_eq_ok hm', settle_eq_ok hn']
  rintro ⟨_, ⟨x, t, hx, ht, rfl⟩, y, u, hy, hu, rfl⟩
  rw [valueFor_set hne.symm] at hy
  refine ⟨_, ⟨y, u, hy, hu, rfl⟩, x, t, ?_, ht, ?_⟩
  · rwa [valueFor_set hne]
  · rw [setIfInBounds_comm hne, ← mul_assoc, ← mul_assoc, motion_comm hm hn ht hu]

end

/-- The resolution gives the same for robots that differ in the order of their mechanisms, as long
as the positioners are in the same order. -/
theorem resolveExternal_eq_ok_of_perm {s s' : Solver ℝ}
    (hbase : s.robot.baseFrame = s'.robot.baseFrame)
    (hperm : s.robot.mechanisms.Perm s'.robot.mechanisms)
    (hturn : s.mechanismsOf .rotational = s'.mechanismsOf .rotational) (target : Frame ℝ)
    (slots : Slots ℝ) (r : Slots ℝ × Matrix4 ℝ) :
    s.resolveExternal target slots = .ok r ↔ s'.resolveExternal target slots = .ok r := by
  have htracks : (s.mechanismsOf .linear).Perm (s'.mechanismsOf .linear) := hperm.filter _
  have hrun (point : Vector3 ℝ) (before after : Slots ℝ × Matrix4 ℝ) :
      (s.mechanismsOf .linear).foldlM (settle point) before = .ok after ↔
        (s'.mechanismsOf .linear).foldlM (settle point) before = .ok after := by
    refine Outcome.foldlM_eq_ok_of_perm htracks (fun m hm n hn b c => ?_) before after
    by_cases hmn : m = n
    · rw [hmn]
    · obtain ⟨hm, hkind⟩ := mem_mechanismsOf.mp hm
      obtain ⟨hn, hkind'⟩ := mem_mechanismsOf.mp hn
      have hne := number_ne hm hn hmn
      exact ⟨settle_comm hkind hkind' (number_lt m hm) (number_lt n hn) hne point b c,
        settle_comm hkind' hkind (number_lt n hn) (number_lt m hm) hne.symm point b c⟩
  unfold resolveExternal
  simp only [Outcome.bind_eq_ok, hturn, hbase, hrun]

/-! ### The position of the caller -/

/-- The position that a resolution works on: a new one with the values that the caller's position
stores, or without values if there is none. -/
def workingPosition (external : Option ExternalJoints) : Outcome ExternalJoints :=
  ExternalJoints.make (external.elim (.list []) (·.storedValues)) (.text "") (.text "VAR")

/-- The new position has the slots of the caller's. -/
theorem workingPosition_slots (external : Option ExternalJoints) :
    ∃ position, workingPosition external = .ok position ∧
      position.slots = external.elim noSlots (·.slots) := by
  have hstorage : Storage.ofValue (.text "VAR") = .ok .var := Storage.ofValue_word .var
  cases external with
  | none =>
    have hempty : fillSix none [] = (noSlots : Slots Float) := by
      ext i hi
      simp [fillSix, noSlots]
    refine ⟨ExternalJoints.ofSlots noSlots (.text "") .var, ?_, ?_⟩
    · simp [workingPosition, ExternalJoints.make, Value.parts, hempty, hstorage]
    · simp [ExternalJoints.ofSlots, noSlots]
  | some p =>
    have hparts : p.storedValues.parts = .ok _ := rfl
    have hslots :=
      ExternalJoints.mapM_slotOfValue ExternalJoints.slotOfValue_undefinedValue p.settled
    have hsettled : (ExternalJoints.ofSlots p.slots p.name p.storage).slots = p.slots := by
      rw [ExternalJoints.ofSlots_slots]
    refine ⟨ExternalJoints.ofSlots p.slots (.text "") .var, ?_, hsettled⟩
    simp [workingPosition, ExternalJoints.make, hparts, hslots, hstorage, fillSix_toList]

/-- A resolution works on a new position with the slots of the caller's. Whenever it returns, the
caller's values are kept, the open slots of mechanisms are defined, and the other slots stay open.
Over the reals the result does not depend on the order of the mechanisms, as long as the positioners
keep theirs. -/
theorem resolveExternal_respects_slots :
    (∀ external : Option ExternalJoints, ∃ position, workingPosition external = .ok position ∧
      position.slots = external.elim noSlots (·.slots)) ∧
    (∀ {α : Type} [Scalar α] (s : Solver α) (target : Frame α) (slots values : Slots α)
      (goal : Matrix4 α), s.resolveExternal target slots = .ok (values, goal) →
        Fills s.robot.mechanisms slots values) ∧
    ∀ s s' : Solver ℝ, s.robot.baseFrame = s'.robot.baseFrame →
      s.robot.mechanisms.Perm s'.robot.mechanisms →
      s.mechanismsOf .rotational = s'.mechanismsOf .rotational →
        ∀ (target : Frame ℝ) (slots values : Slots ℝ) (goal : Matrix4 ℝ),
          s.resolveExternal target slots = .ok (values, goal) ↔
            s'.resolveExternal target slots = .ok (values, goal) := by
  refine ⟨workingPosition_slots, ?_, ?_⟩
  · intro α _ s target slots values goal h
    exact .of_resolveExternal h
  · intro s s' hbase hperm hturn target slots values goal
    exact resolveExternal_eq_ok_of_perm hbase hperm hturn target slots (values, goal)

/-- A second track, along the second axis of the world, on the third slot. -/
noncomputable def gantry : Mechanism ℝ :=
  ⟨.text "gantry", .linear, ⟨.zero, .unitZ, .unitX⟩, ⟨0, 500⟩, 2, .text "c"⟩

/-- A robot on the track and the gantry before the turntable. -/
noncomputable def gantryStation : Robot ℝ :=
  .bare (.replicate 6 .world) [turntable, track, gantry]
    (by simp [WellNumbered, turntable, track, gantry])

/-- The same robot with its mechanisms in another order. -/
noncomputable def gantryFirst : Robot ℝ :=
  .bare (.replicate 6 .world) [gantry, turntable, track]
    (by simp [WellNumbered, turntable, track, gantry])

/-- The axes of the gantry are perpendicular unit vectors. -/
theorem gantry_orthonormal : gantry.frame.Orthonormal :=
  ⟨by simp [gantry, Vector3.dot_eq], by simp [gantry, Vector3.dot_eq],
    by simp [gantry, Vector3.dot_eq]⟩

/-- All frames of that robot have such axes. -/
theorem gantryStation_orthonormal : gantryStation.Orthonormal := by
  refine Robot.bare_orthonormal ?_
  simp only [List.forall_mem_cons]
  exact ⟨turntable_orthonormal, track_orthonormal, gantry_orthonormal, nofun⟩

/-- Slots that send both tracks and leave the turntable open. -/
noncomputable def sentTracks : Slots ℝ := #v[some 500, none, some 20, none, none, none]

/-- For a target at the origin the tracks stay where they are sent, the turntable is resolved, and
the order of the mechanisms does not matter. -/
theorem resolveExternal_respects_slots_gantry :
    ∃ (s s' : Solver ℝ) (values : Slots ℝ) (goal : Matrix4 ℝ),
      make gantryStation Options.default = .ok s ∧ make gantryFirst Options.default = .ok s' ∧
      s.resolveExternal .world sentTracks = .ok (values, goal) ∧
      s'.resolveExternal .world sentTracks = .ok (values, goal) ∧
      values.get 0 = some 500 ∧ (values.get 1).isSome = true ∧ values.get 2 = some 20 ∧
      values.get 3 = none := by
  have haxes (i : Fin 6) : (gantryStation.axisFrames.get i).Orthonormal := by
    simpa [gantryStation, Robot.bare, Vector.get] using Frame.world_orthonormal
  obtain ⟨s, hs⟩ : ∃ s, make gantryStation Options.default = .ok s :=
    ⟨_, make_of_orthonormal _ haxes⟩
  obtain ⟨s', hs'⟩ : ∃ s', make gantryFirst Options.default = .ok s' :=
    ⟨_, make_of_orthonormal _ haxes⟩
  obtain ⟨hrobot, -⟩ := make_eq_ok hs
  obtain ⟨hrobot', -⟩ := make_eq_ok hs'
  have horthonormal : s.robot.Orthonormal := hrobot ▸ gantryStation_orthonormal
  obtain ⟨⟨turned, world⟩, hturned⟩ := exists_turned horthonormal sentTracks Frame.world.toMatrix
  obtain ⟨⟨values, goal⟩, hgoal⟩ := (resolveExternal_isOk_iff horthonormal hturned).mpr
    fun m hm hopen => by
      obtain ⟨hm, hkind⟩ := mem_mechanismsOf.mp hm
      rw [hrobot] at hm
      obtain rfl | rfl | rfl : m = turntable ∨ m = track ∨ m = gantry := by
        simpa [gantryStation, Robot.bare] using hm
      · cases hkind
      · cases hopen
      · cases hopen
  obtain ⟨-, hfills, horders⟩ := resolveExternal_respects_slots
  have hslots := hfills s .world sentTracks values goal hgoal
  have hbase : s.robot.baseFrame = s'.robot.baseFrame := by rw [hrobot, hrobot']; rfl
  have hperm : s.robot.mechanisms.Perm s'.robot.mechanisms := by
    rw [hrobot, hrobot']
    have hlast : ([turntable, track] ++ [gantry]).Perm ([gantry] ++ [turntable, track]) :=
      List.perm_append_comm
    exact hlast
  have hturn : s.mechanismsOf .rotational = s'.mechanismsOf .rotational := by
    rw [mechanismsOf, mechanismsOf, hrobot, hrobot']
    rfl
  have hgoal' := (horders s s' hbase hperm hturn .world sentTracks values goal).mp hgoal
  refine ⟨s, s', values, goal, hs, hs', hgoal, hgoal', hslots.kept 0 _ rfl, ?_,
    hslots.kept 2 _ rfl, ?_⟩
  · refine (hslots.filled 1 rfl).mpr ⟨turntable, ?_, rfl⟩
    simp [hrobot, gantryStation, Robot.bare]
  · have hopen := (hslots.filled 3 rfl).not.mpr ?_
    · simpa using hopen
    · simp [hrobot, gantryStation, Robot.bare, turntable, track, gantry]

end Kinematics.Solver

end RobotProgram
