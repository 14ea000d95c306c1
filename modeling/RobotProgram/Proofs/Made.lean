import RobotProgram.Action.Edit
import RobotProgram.Proofs.Records

/-!
# Actions as they are made

An action comes from a constructor, from a record, or from a movement that is given another target
or work object. However it was made, it is settled: no part is missing, velocities are numbers, a
movement has a speed, a whole precision, a type that can be read back, and the pose of its target.
Each way of making an action keeps this, so it holds for all of them (`Made.settled`).
-/

namespace RobotProgram

/-! ### Parts -/

/-- A new speed is settled. -/
theorem Speed.settled_make {name tool turn linear rotational : Value} {s : Speed}
    (h : make name tool turn linear rotational = .ok s) : s.Settled := by
  obtain ⟨tool, -, h⟩ := Outcome.bind_eq_ok.mp h
  obtain ⟨turn, -, h⟩ := Outcome.bind_eq_ok.mp h
  obtain ⟨linear, -, h⟩ := Outcome.bind_eq_ok.mp h
  obtain ⟨rotational, -, h⟩ := Outcome.bind_eq_ok.mp h
  obtain rfl := Outcome.pure_eq_ok.mp h
  exact ⟨⟨_, rfl⟩, ⟨_, rfl⟩, ⟨_, rfl⟩, ⟨_, rfl⟩, ⟨_, rfl⟩⟩

/-- A speed of the table is settled. -/
theorem Speed.settled_ofTable (s : Nat) (exact : Bool) : (ofTable s exact).Settled :=
  ⟨⟨_, rfl⟩, ⟨_, rfl⟩, ⟨_, rfl⟩, ⟨_, rfl⟩, ⟨_, rfl⟩⟩

/-- A speed that is found for a tool's speed is settled. -/
theorem Speed.settled_ofTool {v : Value} {s : Speed} (h : ofTool v = .ok s) : s.Settled := by
  obtain ⟨q, -, h⟩ := Outcome.bind_eq_ok.mp h
  obtain rfl := Outcome.pure_eq_ok.mp h
  exact settled_ofTable _ _

/-- A speed that is read is settled. -/
theorem Speed.settled_ofRecord {v : Value} {s : Speed} (h : ofRecord v = .ok s) : s.Settled := by
  obtain ⟨es, -, h⟩ := Outcome.bind_eq_ok.mp h
  obtain ⟨version, -, h⟩ := Outcome.bind_eq_ok.mp h
  obtain ⟨name, -, h⟩ := Outcome.bind_eq_ok.mp h
  obtain ⟨tool, -, h⟩ := Outcome.bind_eq_ok.mp h
  obtain ⟨made, hmade, h⟩ := Outcome.bind_eq_ok.mp h
  obtain rfl := Outcome.pure_eq_ok.mp h
  have hsettled := settled_make hmade
  exact ⟨hsettled.tool, hsettled.turn, hsettled.linear, hsettled.rotational, ⟨_, rfl⟩⟩

/-- A known type is read back from its number. -/
theorem MoveType.settled_known (kind : MoveKind) : (known kind).Settled := by
  refine ⟨kind.number, rfl, ?_⟩
  cases kind <;> rfl

/-- A type that was read is read back. -/
theorem MoveType.settled_ofValue {v : Value} {kind : MoveType} (h : ofValue v = .ok kind) :
    kind.Settled := by
  unfold ofValue at h
  split at h
  · -- A name is that of a known type.
    simp only at h
    split at h
    · obtain rfl := Except.ok.inj h
      exact settled_known _
    · cases h
  · obtain ⟨n, hn, h⟩ := Outcome.bind_eq_ok.mp h
    split at h
    · obtain rfl := Outcome.pure_eq_ok.mp h
      exact settled_known _
    · -- The number of no known type is kept, and read as such again.
      rename_i hfind
      obtain rfl := Outcome.pure_eq_ok.mp h
      refine ⟨n, rfl, ?_⟩
      simp [ofValue, Value.integer_int, hfind, pure, Except.pure]

/-! ### Movements -/

namespace Action

/-- A new movement to a settled target is settled. -/
theorem settled_makeMovement {target : Action} {speed : Option Speed} {kind precision : Value}
    {tool : Option (Tool Float)} {workObject : Option WorkObject} {output : Option Output}
    {a : Action} (htarget : target.Settled) (hspeed : ∀ s, speed = some s → s.Settled)
    (h : makeMovement (some target) speed kind precision tool workObject output = .ok a) :
    a.Settled := by
  have hdefault : (speed.getD .slowest).Settled := by
    cases speed with
    | none => exact Speed.settled_ofTable 5 true
    | some s => exact hspeed s rfl
  -- The copied speed, the type, the precision and the pose, in the order of the constructor.
  obtain ⟨s, hs, h⟩ := Outcome.bind_eq_ok.mp h
  obtain ⟨moveType, hkind, h⟩ := Outcome.bind_eq_ok.mp h
  obtain ⟨n, -, h⟩ := Outcome.bind_eq_ok.mp h
  obtain ⟨pose, hpose, h⟩ := Outcome.bind_eq_ok.mp h
  obtain rfl := Outcome.pure_eq_ok.mp h
  rw [Speed.duplicate_eq hdefault] at hs
  obtain rfl := Except.ok.inj hs
  exact ⟨⟨⟨_, rfl, hdefault⟩, MoveType.settled_ofValue hkind, ⟨n, rfl⟩, hpose⟩, htarget⟩

/-- A copy of a settled action is settled, also if its frames are not kept. -/
theorem settled_duplicate {a b : Action} (ha : a.Settled) (h : a.duplicate = .ok b) :
    b.Settled := by
  match a with
  | robotJoints p | externalJoints p | wait w | output o =>
    obtain rfl := Except.ok.inj h
    trivial
  | jointTarget t =>
    obtain rfl := Except.ok.inj h
    exact ⟨rfl, rfl⟩
  | robotTarget t =>
    obtain ⟨copy, hcopy, rfl⟩ := Outcome.map_eq_ok.mp h
    unfold RobotTarget.duplicate at hcopy
    simp only at hcopy
    -- A missing frame is replaced by that of the world, so the copy always has one.
    split at hcopy
    · obtain ⟨frame, -, hcopy⟩ := Outcome.bind_eq_ok.mp hcopy
      obtain rfl := Outcome.pure_eq_ok.mp hcopy
      exact ⟨rfl, rfl⟩
    · obtain rfl := Outcome.pure_eq_ok.mp hcopy
      exact ⟨rfl, rfl⟩
  | speed s =>
    rw [duplicate, Speed.duplicate_eq ha] at h
    obtain rfl := Except.ok.inj h
    exact ha
  | movement m none => exact ha.elim
  | movement m (some target) =>
    -- By induction on the target, which may be a movement itself.
    obtain ⟨copy, hcopy, h⟩ := Outcome.bind_eq_ok.mp h
    obtain ⟨s, hs, hspeed⟩ := ha.1.speed
    refine settled_makeMovement (settled_duplicate ha.2 hcopy) ?_ h
    rintro s' hs'
    obtain rfl : s = s' := Option.some.inj (hs.symm.trans hs')
    exact hspeed

/-- A movement to a copy of a settled target is settled. -/
theorem settled_moveTo {target : Action} {speed : Option Speed} {kind precision : Value}
    {tool : Option (Tool Float)} {workObject : Option WorkObject} {output : Option Output}
    {a : Action} (htarget : target.Settled) (hspeed : ∀ s, speed = some s → s.Settled)
    (h : moveTo (some target) speed kind precision tool workObject output = .ok a) :
    a.Settled := by
  obtain ⟨copied, hcopied, h⟩ := Outcome.bind_eq_ok.mp h
  rw [Option.mapM_some] at hcopied
  obtain ⟨copy, hcopy, rfl⟩ := Outcome.map_eq_ok.mp hcopied
  exact settled_makeMovement (settled_duplicate htarget hcopy) hspeed h

/-- A settled movement with another work object or target, whose pose is computed anew. -/
theorem settled_recompute {m m' : Movement} {current : Option Action} {target a : Action}
    (hm : m.Settled current) (htarget : target.Settled)
    (hsame : m'.speed = m.speed ∧ m'.kind = m.kind ∧ m'.precision = m.precision)
    (h : recompute m' (some target) = .ok a) : a.Settled := by
  obtain ⟨pose, hpose, h⟩ := Outcome.bind_eq_ok.mp h
  obtain rfl := Outcome.pure_eq_ok.mp h
  obtain ⟨hspeed, hkind, hprecision⟩ := hsame
  exact ⟨⟨hspeed ▸ hm.speed, hkind ▸ hm.kind, hprecision ▸ hm.precision, hpose⟩, htarget⟩

/-! ### Records -/

/-- A joint target that is read is settled. -/
theorem settled_jointTarget_ofRecord {v : Value} {t : JointTarget}
    (h : JointTarget.ofRecord v = .ok t) : (jointTarget t).Settled := by
  obtain ⟨es, -, h⟩ := Outcome.bind_eq_ok.mp h
  obtain ⟨version, -, h⟩ := Outcome.bind_eq_ok.mp h
  obtain ⟨part, -, h⟩ := Outcome.bind_eq_ok.mp h
  obtain ⟨robot, -, h⟩ := Outcome.bind_eq_ok.mp h
  obtain ⟨external, -, h⟩ := Outcome.bind_eq_ok.mp h
  obtain ⟨storage, -, h⟩ := Outcome.bind_eq_ok.mp h
  obtain rfl := Outcome.pure_eq_ok.mp h
  exact ⟨rfl, rfl⟩

/-- A robot target that is made is settled. -/
theorem settled_robotTarget_make {name config : Value} {frame : Frame Float}
    {external : ExternalJoints} {storage : Storage} {t : RobotTarget}
    (h : RobotTarget.make name frame config external storage = .ok t) :
    (robotTarget t).Settled := by
  obtain ⟨frame, -, h⟩ := Outcome.bind_eq_ok.mp h
  obtain ⟨n, -, h⟩ := Outcome.bind_eq_ok.mp h
  obtain rfl := Outcome.pure_eq_ok.mp h
  exact ⟨rfl, rfl⟩

/-- A robot target that is read is settled. -/
theorem settled_robotTarget_ofRecord {v : Value} {t : RobotTarget}
    (h : RobotTarget.ofRecord v = .ok t) : (robotTarget t).Settled := by
  obtain ⟨es, -, h⟩ := Outcome.bind_eq_ok.mp h
  obtain ⟨version, -, h⟩ := Outcome.bind_eq_ok.mp h
  obtain ⟨part, -, h⟩ := Outcome.bind_eq_ok.mp h
  obtain ⟨frame, -, h⟩ := Outcome.bind_eq_ok.mp h
  obtain ⟨external, -, h⟩ := Outcome.bind_eq_ok.mp h
  obtain ⟨storage, -, h⟩ := Outcome.bind_eq_ok.mp h
  exact settled_robotTarget_make h

/-- An action that was read and is no movement is settled. -/
theorem settled_simpleOfRecord {tag : String} {v : Value} {a : Action}
    (h : simpleOfRecord? tag v = some (.ok a)) : a.Settled := by
  unfold simpleOfRecord? at h
  split_ifs at h
  · obtain ⟨p, -, rfl⟩ := Outcome.map_eq_ok.mp (Option.some.inj h)
    trivial
  · obtain ⟨p, -, rfl⟩ := Outcome.map_eq_ok.mp (Option.some.inj h)
    trivial
  · obtain ⟨t, ht, rfl⟩ := Outcome.map_eq_ok.mp (Option.some.inj h)
    exact settled_jointTarget_ofRecord ht
  · obtain ⟨t, ht, rfl⟩ := Outcome.map_eq_ok.mp (Option.some.inj h)
    exact settled_robotTarget_ofRecord ht
  · obtain ⟨s, hs, rfl⟩ := Outcome.map_eq_ok.mp (Option.some.inj h)
    exact Speed.settled_ofRecord hs
  · obtain ⟨w, -, rfl⟩ := Outcome.map_eq_ok.mp (Option.some.inj h)
    trivial
  · obtain ⟨o, -, rfl⟩ := Outcome.map_eq_ok.mp (Option.some.inj h)
    trivial

/-- A movement that was read is settled if its target is. -/
theorem settled_movementOfEntries {es : List (Atom × Value)} {target : Unit → Outcome Action}
    {a : Action} (htarget : ∀ b, target () = .ok b → b.Settled)
    (h : movementOfEntries es target = .ok a) : a.Settled := by
  obtain ⟨version, -, h⟩ := Outcome.bind_eq_ok.mp h
  obtain ⟨goal, hgoal, h⟩ := Outcome.bind_eq_ok.mp h
  obtain ⟨part, -, h⟩ := Outcome.bind_eq_ok.mp h
  obtain ⟨speed, hspeed, h⟩ := Outcome.bind_eq_ok.mp h
  obtain ⟨tool, -, h⟩ := Outcome.bind_eq_ok.mp h
  obtain ⟨workObject, -, h⟩ := Outcome.bind_eq_ok.mp h
  obtain ⟨output, -, h⟩ := Outcome.bind_eq_ok.mp h
  refine settled_moveTo (htarget goal hgoal) ?_ h
  rintro s ⟨⟩
  exact Speed.settled_ofRecord hspeed

/-- What is read without a fault of the record is read as it is. -/
theorem wrap_eq_ok {α : Type} {action : String} {o : Outcome α} {a : α}
    (h : Record.wrap action o = .ok a) : o = .ok a := by
  cases o with
  | error f => cases h
  | ok b => exact h

/-- An action that was read from entries is settled if the target of a movement is. -/
theorem settled_ofEntries {tag : Value} {es : List (Atom × Value)} {target : Unit → Outcome Action}
    {a : Action} (htarget : ∀ b, target () = .ok b → b.Settled)
    (h : ofEntries tag es target = .ok a) : a.Settled := by
  unfold ofEntries at h
  split at h
  · cases h
  · cases h
  · split at h
    · rename_i s action hsimple
      rw [wrap_eq_ok h] at hsimple
      exact settled_simpleOfRecord hsimple
    · -- Of the other types, only that of movements is known.
      split at h
      · exact settled_movementOfEntries htarget (wrap_eq_ok h)
      · cases h
  · cases h

mutual

/-- An action that was read is settled. -/
theorem settled_ofRecord (v : Value) {a : Action} (h : ofRecord v = .ok a) : a.Settled := by
  match v with
  | .atom _ => cases h
  | .list _ => cases h
  | .map es =>
    unfold ofRecord at h
    exact settled_ofEntries (fun b hb => settled_targetOfEntries es hb) h

/-- The target that is read for a movement is settled. -/
theorem settled_targetOfEntries (es : List (Atom × Value)) {a : Action}
    (h : targetOfEntries es = .ok a) : a.Settled := by
  match es with
  | [] => cases h
  | (key, v) :: es =>
    -- The target is the value of the first fitting key, or is found further on.
    have hv {b : Action} (hb : ofRecord v = .ok b) : b.Settled := settled_ofRecord v hb
    have hes {b : Action} (hb : targetOfEntries es = .ok b) : b.Settled :=
      settled_targetOfEntries es hb
    unfold targetOfEntries at h
    split at h
    · exact hv h
    · exact hes h

end

/-! ### Making actions -/

/-- The actions that constructors, records and the setters of movements give. A movement has a
target, which may be any action. -/
inductive Made : Action → Prop where
  | robotJoints {values name storage : Value} {p : RobotJoints} :
    RobotJoints.make values name storage = .ok p → Made (robotJoints p)
  | externalJoints {values name storage : Value} {p : ExternalJoints} :
    ExternalJoints.make values name storage = .ok p → Made (externalJoints p)
  | jointTarget (name : Value) (robot : RobotJoints) (external : ExternalJoints)
    (storage : Storage) : Made (jointTarget (.make name robot external storage))
  | robotTarget {name config : Value} {frame : Frame Float} {external : ExternalJoints}
    {storage : Storage} {t : RobotTarget} :
    RobotTarget.make name frame config external storage = .ok t → Made (robotTarget t)
  | speed {name tool turn linear rotational : Value} {s : Speed} :
    Speed.make name tool turn linear rotational = .ok s → Made (speed s)
  | speedOfTool {v : Value} {s : Speed} : Speed.ofTool v = .ok s → Made (speed s)
  | wait (w : Wait) : Made (wait w)
  | output (o : Output) : Made (output o)
  | movement {target a : Action} {speed : Option Speed} {kind precision : Value}
    {tool : Option (Tool Float)} {workObject : Option WorkObject} {output : Option Output} :
    Made target → (∀ s, speed = some s → Made (.speed s)) →
    moveTo (some target) speed kind precision tool workObject output = .ok a → Made a
  | ofRecord {v : Value} {a : Action} : Action.ofRecord v = .ok a → Made a
  | setTarget {m : Movement} {current : Option Action} {target a : Action} :
    Made (.movement m current) → Made target →
    Edit.apply m current (.target (some target)) = .ok a → Made a
  | setWorkObject {m : Movement} {current : Option Action} {w : Option WorkObject} {a : Action} :
    Made (.movement m current) → Edit.apply m current (.workObject w) = .ok a → Made a

/-- However an action was made, it is settled. -/
theorem Made.settled {a : Action} (h : a.Made) : a.Settled := by
  induction h with
  | robotJoints h => trivial
  | externalJoints h => trivial
  | jointTarget name robot external storage => exact ⟨rfl, rfl⟩
  | robotTarget h => exact settled_robotTarget_make h
  | speed h => exact Speed.settled_make h
  | speedOfTool h => exact Speed.settled_ofTool h
  | wait w => trivial
  | output o => trivial
  | movement _ _ h ihtarget ihspeed => exact settled_moveTo ihtarget ihspeed h
  | ofRecord h => exact settled_ofRecord _ h
  | @setTarget m current target a _ _ h ihm ihtarget =>
    obtain ⟨copied, hcopied, hset⟩ := Outcome.bind_eq_ok.mp h
    rw [Option.mapM_some] at hcopied
    obtain ⟨copy, hcopy, rfl⟩ := Outcome.map_eq_ok.mp hcopied
    -- The movement that is edited was made, so it has a target.
    match current, ihm with
    | some old, ihm =>
      refine settled_recompute ihm.1 (settled_duplicate ihtarget hcopy) ?_ hset
      exact ⟨rfl, rfl, rfl⟩
  | @setWorkObject m current w a _ h ihm =>
    obtain ⟨w, -, hset⟩ := Outcome.bind_eq_ok.mp h
    match current, ihm, hset with
    | some target, ihm, hset =>
      refine settled_recompute ihm.1 ihm.2 ?_ hset
      exact ⟨rfl, rfl, rfl⟩

end Action

end RobotProgram
