import RobotProgram.Action.File
import RobotProgram.Proofs.Made

/-!
# Saving and loading actions

A text that was written to a path is what is read there (`read_write`): the way to the path leads
through directories, and writing changes none of them. So actions that are saved are loaded again,
in their order, if the document format gives back the data that was written.
-/

namespace RobotProgram

namespace Files.Store

/-! ### Writing and reading -/

/-- Replacing what stands at a place keeps the places. -/
theorem find?_replace (nodes : List (Place × Node)) (place q : Place) (node : Node) :
    (nodes.map fun n => if n.1 == place then (place, node) else n).find? (fun n => n.1 == q) =
      (nodes.find? fun n => n.1 == q).map fun n =>
        if n.1 == place then (place, node) else n := by
  have hplaces : (fun n : Place × Node => n.1 == q) ∘
      (fun n => if n.1 == place then (place, node) else n) = fun n => n.1 == q := by
    funext n
    by_cases hn : n.1 = place <;> simp [hn]
  rw [List.find?_map, hplaces]

/-- What stands at a place after something was put somewhere. -/
theorem find?_insert (s : Store) (place q : Place) (node : Node) :
    (s.insert place node).find? q =
      if isAncestor q then some .directory else if q = place then some node else s.find? q := by
  by_cases hq : isAncestor q
  · simp [find?, hq]
  · by_cases hany : s.nodes.any fun n => n.1 == place
    · -- Something stands at the place, and it is replaced.
      simp only [find?, insert, hq, hany, if_true, find?_replace]
      by_cases hplace : q = place
      · subst hplace
        obtain ⟨n, hn⟩ :=
          Option.isSome_iff_exists.mp (List.find?_isSome.mpr (List.any_eq_true.mp hany))
        have hnq := List.find?_some hn
        simp only [beq_iff_eq] at hnq
        simp [hn, hnq]
      · cases hn : s.nodes.find? fun n => n.1 == q with
        | none => simp [hplace]
        | some n =>
          have hnq := List.find?_some hn
          simp only [beq_iff_eq] at hnq
          simp [hplace, hnq]
    · -- Nothing stands at the place, and it is added.
      simp only [find?, insert, hq, hany]
      by_cases hplace : q = place
      · subst hplace
        have hnone : (s.nodes.find? fun n => n.1 == q) = none := by
          rw [List.find?_eq_none]
          intro n hn hnq
          exact hany (List.any_eq_true.mpr ⟨n, hn, hnq⟩)
        simp [hnone]
      · simp [hplace, Ne.symm hplace]

/-- A path leads to the same place after something was put where no directory is. -/
theorem foldlM_step_insert {s : Store} {place : Place} (node : Node)
    (hplace : s.find? place ≠ some .directory) {parts : List String} {q r : Place}
    (h : parts.foldlM s.step q = .ok r) : parts.foldlM (s.insert place node).step q = .ok r := by
  induction parts generalizing q with
  | nil => exact h
  | cons part parts ih =>
    rw [List.foldlM_cons] at h ⊢
    cases hstep : s.step q part with
    | error f => simp [hstep, bind, Except.bind] at h
    | ok q' =>
      -- The way goes on from a directory, which is not the place where something was put.
      have hq : s.find? q = some .directory := by
        unfold step at hstep
        split at hstep
        · cases hstep
        · assumption
        · cases hstep
      have hne : q ≠ place := by
        rintro rfl
        exact hplace hq
      have hq' : (s.insert place node).find? q = some .directory := by
        rw [find?_insert, if_neg hne, hq, ite_self]
      have hstep' : (s.insert place node).step q part = .ok q' := by
        unfold step at hstep ⊢
        rw [hq] at hstep
        rw [hq']
        exact hstep
      rw [hstep] at h
      rw [hstep']
      exact ih h

/-- A text is written at the place of a path, if no directory stands there. -/
theorem write_eq_ok {s s' : Store} {p : Path} {text : String} :
    s.write p text = .ok s' ↔
      ∃ place, s.locate p = .ok place ∧ s.find? place ≠ some .directory ∧
        s' = s.insert place (.text text) := by
  unfold write
  -- Writing fails without a place, and where a directory stands.
  cases s.locate p with
  | error f => simp [bind, Except.bind]
  | ok place =>
    simp only [bind, Except.bind, Except.ok.injEq, exists_eq_left']
    split
    · simp_all
    · simp_all [eq_comm]

/-- What was written to a path stands at the place of the path. -/
theorem locate_write {s s' : Store} {p : Path} {text : String} (h : s.write p text = .ok s') :
    ∃ place, s'.locate p = .ok place ∧ s'.find? place = some (.text text) := by
  obtain ⟨place, hlocate, hplace, rfl⟩ := write_eq_ok.mp h
  refine ⟨place, foldlM_step_insert _ hplace hlocate, ?_⟩
  -- The directories above the working directory are always there, so the place is none of them.
  have hancestor : ¬isAncestor place = true := by
    intro hancestor
    exact hplace (by simp [find?, hancestor])
  rw [find?_insert, if_neg hancestor, if_pos rfl]

/-- What was written to a path is read there. -/
theorem read_write {s s' : Store} {p : Path} {text : String} (h : s.write p text = .ok s') :
    s'.read p = .ok (.text text) := by
  obtain ⟨place, hlocate, hfind⟩ := locate_write h
  unfold read
  rw [hlocate]
  simp only [bind, Except.bind, hfind]

/-- A file that was written can be written again. -/
theorem write_write {s s' : Store} {p : Path} {text : String} (h : s.write p text = .ok s')
    (text' : String) : ∃ s'', s'.write p text' = .ok s'' := by
  obtain ⟨place, hlocate, hfind⟩ := locate_write h
  exact ⟨_, write_eq_ok.mpr ⟨place, hlocate, by simp [hfind], rfl⟩⟩

end Files.Store

/-! ### Saving and loading -/

namespace ActionFile

open Files (Path Store Access)

/-- Each of some actions that were made has a record, and they are read back in order. -/
theorem exists_records {actions : List Action} (h : ∀ a ∈ actions, a.Made ∧ a.FramesKept) :
    ∃ records, actions.mapM Action.toRecord = .ok records ∧
      records.mapM Action.ofRecord = .ok actions := by
  induction actions with
  | nil => exact ⟨[], rfl, rfl⟩
  | cons a actions ih =>
    rw [List.forall_mem_cons] at h
    obtain ⟨⟨hmade, hframes⟩, hrest⟩ := h
    obtain ⟨v, hv, hread⟩ := Action.exists_record hmade.settled hframes
    obtain ⟨records, hrecords, hreads⟩ := ih hrest
    refine ⟨v :: records, ?_, ?_⟩
    · rw [List.mapM_cons, hv, hrecords]
      rfl
    · rw [List.mapM_cons, hread, hreads]
      rfl

/-- Loading reads the records of the document at the path. -/
theorem load_eq {s : Store} {path : Path} {text : String} {records : List Value}
    (hwhole : path.whole = .ok ()) (hread : s.read path = .ok (.text text))
    (hdocument : Document.read text = .ok (.record [("actions", .list records)])) :
    load s path = records.mapM Action.ofRecord := by
  have hvalue : s.value path = .ok (.record [("actions", .list records)]) := by
    rw [Store.value, hwhole, Outcome.ok_bind, hread]
    exact hdocument
  have hrecords : ActionFile.records path (.record [("actions", .list records)]) = .ok records := by
    simp [ActionFile.records, Value.record, fieldD]
  -- No fault has to be turned into one of action files.
  have hmapped (v : Value) :
      (Except.ok v : Outcome Value).mapError (unreadable path) = (.ok v : Outcome Value) := rfl
  unfold load
  rw [hvalue, hmapped, Outcome.ok_bind, hrecords, Outcome.ok_bind]

/-- Writing needs a path that is whole. It changes the store, or fails and leaves it. -/
theorem run_write (s : Store) (path : Path) (text : String) :
    (Access.write path text).run s = match path.whole, s.write path text with
      | .ok _, .ok s' => (.ok (), s')
      | .ok _, .error f => (.error (.file f path.text), s)
      | .error f, _ => (.error f, s) := by
  have hpath (o : Outcome Unit) : (liftM o : Access Unit).run s = (o, s) := rfl
  have hget : (get : Access Store).run s = (.ok s, s) := rfl
  unfold Access.write
  rw [Outcome.run_bind, hpath]
  cases path.whole with
  | error f => rfl
  | ok _ =>
    dsimp only
    rw [Outcome.run_bind, hget]
    dsimp only
    cases s.write path text <;> rfl

/-- A file that can be opened takes the document of some actions that have records. -/
theorem save_returns {actions : List Action} {path : Path} {s s₁ : Store} {v : Value}
    (hcontent : content actions = .ok v)
    (hopen : (do Access.makeDirectories path.parent; Access.write path "" : Access Unit).run s =
      (.ok (), s₁)) :
    ∃ s', (save actions path).run s = (.ok (), s') ∧ path.whole = .ok () ∧
      s'.read path = .ok (.text (Document.write v)) := by
  unfold save
  rw [Outcome.run_bind] at hopen ⊢
  generalize (Access.makeDirectories path.parent).run s = q at hopen ⊢
  obtain ⟨outcome, s₀⟩ := q
  cases outcome with
  | error f => cases hopen
  | ok _ =>
    simp only at hopen ⊢
    rw [Outcome.run_bind, hopen]
    simp only
    rw [hcontent]
    -- The empty file was written, so the document can be written in its place.
    rw [run_write] at hopen
    rcases hwhole : path.whole with f | ⟨⟩
    · rw [hwhole] at hopen
      cases hopen
    cases hempty : s₀.write path "" with
    | error f =>
      rw [hwhole, hempty] at hopen
      cases hopen
    | ok s₂ =>
      rw [hwhole, hempty] at hopen
      obtain rfl : s₂ = s₁ := congrArg Prod.snd hopen
      obtain ⟨s', hs'⟩ := Store.write_write hempty (Document.write v)
      refine ⟨s', ?_, rfl, Store.read_write hs'⟩
      change (Access.write path (Document.write v)).run s₂ = _
      rw [run_write, hwhole, hs']

/-! ### A placement -/

/-- A movement to the origin of the world that opens a gripper there. -/
def placing : Movement where
  speed := some .slowest
  kind := .known .linear
  precision := .int 5
  tool := none
  workObject := .default
  output := some ⟨.text "gripper", false⟩
  globalFrame := some .world

/-- The target of that movement. -/
def place : RobotTarget := ⟨.text "place", some .world, 0, some .undefined, .const⟩

/-- Closing a gripper and opening it. -/
def gripping : List Action := [.output ⟨.text "gripper", true⟩, .output ⟨.text "gripper", false⟩]

/-- Building the frame of the world anew gives it again. -/
theorem world_rebuild : (Frame.world : Frame Float).rebuild = .ok .world :=
  Outcome.toOption_eq_some.mp (by decide +kernel)

/-- The frames of that movement are kept by a file. -/
theorem placing_framesKept :
    (Action.movement placing (some (.robotTarget place))).FramesKept := by
  intro f hf
  have hf : f = .world := by
    simpa [Action.frames, Action.frames.toolFrames, Action.frames.workObjectFrames, placing, place,
      WorkObject.default] using hf
  rw [hf, world_rebuild]

/-- That movement is made from data. -/
theorem placing_made : (Action.movement placing (some (.robotTarget place))).Made := by
  have hmake : RobotTarget.make (.text "place") .world (.int 0) .undefined .const = .ok place := by
    unfold RobotTarget.make
    rw [world_rebuild]
    rfl
  have hcompose : (Frame.world : Frame Float).compose .world = .ok .world :=
    Outcome.toOption_eq_some.mp (by decide +kernel)
  have hpose : Action.globalFrame .default (some (.robotTarget place)) = .ok (some .world) := by
    have hobject : WorkObject.globalFrame .default = .ok .world := hcompose
    unfold Action.globalFrame
    simp [hobject, hcompose, place, present, pure, Except.pure]
  have hcopy : (Action.robotTarget place).duplicate = .ok (.robotTarget place) := by
    refine Action.duplicate_eq ⟨rfl, rfl⟩ fun f hf => ?_
    obtain rfl : f = .world := by simpa [Action.frames, place] using hf
    exact world_rebuild
  have hmoved : Action.moveTo (some (.robotTarget place)) none (.int 1) (.int 5) none none
      (some ⟨.text "gripper", false⟩) = .ok (.movement placing (some (.robotTarget place))) := by
    unfold Action.moveTo
    rw [Option.mapM_some, hcopy, Outcome.ok_map, Outcome.ok_bind]
    exact Action.makeMovement_eq (m := placing)
      ⟨⟨_, rfl, Speed.settled_ofTable 5 true⟩, MoveType.settled_known .linear, ⟨5, rfl⟩, hpose⟩
  refine .movement (.robotTarget hmake) ?_ hmoved
  rintro s ⟨⟩

/-! ### Decoding and encoding -/

/-- Decoding undoes encoding, for an action and for a file. An action that was made has a record and
is read back from it; actions that are saved to a file that can be opened are loaded from it in
their order. The frames of the actions are ones that building anew gives again, and the format gives
back the document of the file. -/
theorem decoding_undoes_encoding :
    (∀ a : Action, a.Made → a.FramesKept →
      ∃ v, a.toRecord = .ok v ∧ Action.ofRecord v = .ok a) ∧
    ∀ (actions : List Action) (path : Path) (s s₁ : Store),
      (∀ a ∈ actions, a.Made ∧ a.FramesKept) →
      (∀ v, content actions = .ok v → Document.read (Document.write v) = .ok v) →
      (do Access.makeDirectories path.parent; Access.write path "" : Access Unit).run s =
        (.ok (), s₁) →
      ∃ s', (save actions path).run s = (.ok (), s') ∧ load s' path = .ok actions := by
  refine ⟨fun a hmade hframes => Action.exists_record hmade.settled hframes, ?_⟩
  intro actions path s s₁ hactions hdocument hopen
  -- The document holds the records, and the format gives it back.
  obtain ⟨records, hrecords, hreads⟩ := exists_records hactions
  have hcontent : content actions = .ok (.record [("actions", .list records)]) := by
    rw [content, hrecords]
    rfl
  obtain ⟨s', hsave, hwhole, hread⟩ := save_returns hcontent hopen
  exact ⟨s', hsave, (load_eq hwhole hread (hdocument _ hcontent)).trans hreads⟩

/-- The movement and its target are read back, and so is a file of two outputs. -/
theorem decoding_undoes_encoding_placing :
    (∃ v, Action.toRecord (.movement placing (some (.robotTarget place))) = .ok v ∧
      Action.ofRecord v = .ok (.movement placing (some (.robotTarget place)))) ∧
    ∃ s', (save gripping ⟨"", ["place.yaml"]⟩).run ⟨[]⟩ = (.ok (), s') ∧
      load s' ⟨"", ["place.yaml"]⟩ = .ok gripping := by
  refine ⟨decoding_undoes_encoding.1 _ placing_made placing_framesKept, ?_⟩
  obtain ⟨_, hopen⟩ := Outcome.run_of_isOk (σ := Store) (s := ⟨[]⟩)
    (x := do
      Access.makeDirectories (Path.parent ⟨"", ["place.yaml"]⟩)
      Access.write ⟨"", ["place.yaml"]⟩ "") (by decide +kernel)
  refine decoding_undoes_encoding.2 _ _ _ _ ?_ ?_ hopen
  · intro a ha
    simp only [gripping, List.mem_cons, List.not_mem_nil, or_false] at ha
    obtain rfl | rfl := ha
    · exact ⟨.output _, fun f hf => nomatch hf⟩
    · exact ⟨.output _, fun f hf => nomatch hf⟩
  · -- The document is written and read by evaluation.
    intro v hv
    have hread : (content gripping).toOption.bind
        (fun v => (Document.read (Document.write v)).toOption) =
        (content gripping).toOption := by
      decide +kernel
    rw [hv] at hread
    exact Outcome.toOption_eq_some.mp hread

end ActionFile

end RobotProgram
