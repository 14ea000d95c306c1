import Mathlib.Tactic.Common
import RobotProgram.Config.Catalog

/-!
# Questions to a catalog

A catalog reads its directory at the first question. A reading that fails leaves the robots that
were read in the table, and the next question reads again from the start. This puts the same robots
into the same places (`fill_fill`), so reading is idempotent, whether it fails or not
(`load_run_load`), and a catalog that was asked stays in the state that the first question left it
in. Every question is answered from that state, as a new catalog answers it
(`outcomes_as_on_new`).
-/

namespace RobotProgram.Config.Catalog

open Files (Path Store)

/-! ### Filling a table -/

/-- A table into which robots are put, one after the other. -/
def fill (table added : List (String × RobotSettings)) : List (String × RobotSettings) :=
  added.foldl (fun t r => setRobot r.1 r.2 t) table

section Tables

variable {table added : List (String × RobotSettings)} {m n : String} {q r : RobotSettings}

/-- A robot that is set adds its name to the table. -/
theorem mem_names_setRobot {k : String} :
    k ∈ (setRobot n r table).map (·.1) ↔ k = n ∨ k ∈ table.map (·.1) := by
  induction table with
  | nil => simp [setRobot]
  | cons e table ih =>
    by_cases he : e.1 = n
    · simp [setRobot, he]
    · simp only [setRobot, beq_iff_eq, he, if_false, List.map_cons, List.mem_cons, ih]
      tauto

/-- Of two robots put under one name the second counts. -/
theorem setRobot_setRobot : setRobot n q (setRobot n r table) = setRobot n q table := by
  induction table with
  | nil => simp [setRobot]
  | cons e table ih =>
    by_cases he : e.1 = n
    · simp [setRobot, he]
    · simp [setRobot, he, ih]

/-- A robot whose name has its place can be put there before or after another one. -/
theorem setRobot_comm (h : n ∈ table.map (·.1)) (hmn : m ≠ n) :
    setRobot m q (setRobot n r table) = setRobot n r (setRobot m q table) := by
  induction table with
  | nil => simp at h
  | cons e table ih =>
    by_cases hm : e.1 = m
    · simp [setRobot, hm, hmn]
    · by_cases hn : e.1 = n
      · simp [setRobot, hn, hmn.symm]
      · have hrest : n ∈ table.map (·.1) := by simpa [Ne.symm hn] using h
        simp [setRobot, hm, hn, ih hrest]

/-- Robots that are filled in keep the names of the table. -/
theorem mem_names_fill (h : n ∈ table.map (·.1)) : n ∈ (fill table added).map (·.1) := by
  induction added generalizing table with
  | nil => exact h
  | cons e added ih => exact ih (mem_names_setRobot.mpr (.inr h))

/-- A robot does not count if another one is put under its name later on. -/
theorem fill_setRobot_of_mem (h : n ∈ table.map (·.1)) (hadded : n ∈ added.map (·.1)) :
    fill (setRobot n r table) added = fill table added := by
  induction added generalizing table with
  | nil => cases hadded
  | cons e added ih =>
    obtain ⟨k, q⟩ := e
    change fill (setRobot k q (setRobot n r table)) added = fill (setRobot k q table) added
    by_cases hk : k = n
    · rw [hk, setRobot_setRobot]
    · have hrest : n ∈ added.map (·.1) := by simpa [Ne.symm hk] using hadded
      rw [setRobot_comm h hk]
      exact ih (mem_names_setRobot.mpr (.inr h)) hrest

/-- A robot whose name has its place can be put there before or after others. -/
theorem fill_setRobot_of_notMem (h : n ∈ table.map (·.1)) (hadded : n ∉ added.map (·.1)) :
    fill (setRobot n r table) added = setRobot n r (fill table added) := by
  induction added generalizing table with
  | nil => rfl
  | cons e added ih =>
    obtain ⟨k, q⟩ := e
    have hrest : k ≠ n ∧ n ∉ added.map (·.1) := by
      simpa [eq_comm, not_or] using hadded
    calc fill (setRobot n r table) ((k, q) :: added)
        = fill (setRobot k q (setRobot n r table)) added := rfl
      _ = fill (setRobot n r (setRobot k q table)) added := by rw [setRobot_comm h hrest.1]
      _ = setRobot n r (fill (setRobot k q table) added) :=
        ih (mem_names_setRobot.mpr (.inr h)) hrest.2

/-- The same robots put into a table once more change nothing. -/
theorem fill_fill (table added : List (String × RobotSettings)) :
    fill (fill table added) added = fill table added := by
  induction added generalizing table with
  | nil => rfl
  | cons e added ih =>
    obtain ⟨n, r⟩ := e
    have hplace : n ∈ (setRobot n r table).map (·.1) := mem_names_setRobot.mpr (.inl rfl)
    change fill (setRobot n r (fill (setRobot n r table) added)) added =
      fill (setRobot n r table) added
    by_cases hadded : n ∈ added.map (·.1)
    · rw [fill_setRobot_of_mem (mem_names_fill hplace) hadded, ih]
    · rw [← fill_setRobot_of_notMem hplace hadded, setRobot_setRobot, ih]

end Tables

/-! ### Reading -/

/-- Mapping the answer to a question changes nothing in the catalog. -/
theorem run_map {α β : Type} (g : α → β) (x : Query α) (c : Catalog) :
    (g <$> x).run c = (g <$> (x.run c).1, (x.run c).2) := by
  change (ExceptT.map g x).run c = _
  simp only [ExceptT.map, ExceptT.run, ExceptT.mk, bind, StateT.bind]
  rcases x c with ⟨_ | a, c'⟩ <;> rfl

section Readers

variable [Host] {s : Store} {c : Catalog}

/-- The robots in files up to the first that fails, and how the reading ends. -/
def readRobots (s : Store) : List Path → List (String × RobotSettings) × Outcome Unit
  | [] => ([], .ok ())
  | file :: files =>
    match readRobot s file with
    | .error f => ([], .error f)
    | .ok none => readRobots s files
    | .ok (some robot) => ((file.stem, robot) :: (readRobots s files).1, (readRobots s files).2)

/-- Loading robot files fills in the robots that can be read, up to the first fault. -/
theorem loadRobots_run (s : Store) (files : List Path) (c : Catalog) :
    (loadRobots s files).run c = ((readRobots s files).2,
      { c with robots := fill c.robots (readRobots s files).1 }) := by
  induction files generalizing c with
  | nil => rfl
  | cons file files ih =>
    unfold loadRobots readRobots
    rw [Outcome.run_bind]
    cases readRobot s file with
    | error f => rfl
    | ok found =>
      cases found with
      | none => exact ih c
      | some robot => exact ih { c with robots := setRobot file.stem robot c.robots }

/-- The robots of a directory up to the first that fails, and how the reading ends. -/
def readDirectory (s : Store) (directory : Path) : List (String × RobotSettings) × Outcome Unit :=
  readRobots s (robotFiles s directory)

/-- Settings of programs that are read take the place of those before. -/
def takeProgram (c : Catalog) : Outcome (Option Value) → Outcome Unit × Catalog
  | .error f => (.error f, c)
  | .ok program => (.ok (), { c with program := program.getD c.program, loaded := true })

/-- A reading puts the robots into the table, and goes on to the settings of programs if all of them
are read. -/
theorem load_run (s : Store) (c : Catalog) :
    (load s).run c = match readDirectory s c.directory with
      | (robots, .error f) => (.error f, { c with robots := fill c.robots robots })
      | (robots, .ok ()) =>
        takeProgram { c with robots := fill c.robots robots } (readProgram s c.directory) := by
  -- The directory is looked up first, and this changes nothing.
  refine (Outcome.run_bind (loadRobots s (robotFiles s c.directory)) _ c).trans ?_
  rw [loadRobots_run, readDirectory]
  rcases readRobots s (robotFiles s c.directory) with ⟨robots, f | ⟨⟩⟩
  · rfl
  · simp only [Outcome.run_bind]
    cases readProgram s c.directory with
    | error f => rfl
    | ok program => cases program <;> rfl

/-- To read again changes nothing, whether the reading fails or not. -/
theorem load_run_load (s : Store) (c : Catalog) :
    (load s).run ((load s).run c).2 = (load s).run c := by
  have hagain := load_run s ((load s).run c).2
  rw [hagain, load_run s c]
  rcases hrobots : readDirectory s c.directory with ⟨robots, f | ⟨⟩⟩
  · simp only [hrobots, fill_fill]
  · cases hprogram : readProgram s c.directory with
    | error f => simp only [takeProgram, hrobots, hprogram, fill_fill]
    | ok program =>
      cases program <;> simp only [takeProgram, hrobots, hprogram, fill_fill, Option.getD]

/-- A catalog counts as loaded exactly when a reading has gone well. -/
theorem loaded_load (hc : c.loaded = false) :
    ((load s).run c).2.loaded = true ↔ ((load s).run c).1 = .ok () := by
  rw [load_run]
  rcases readDirectory s c.directory with ⟨robots, f | ⟨⟩⟩
  · simp [hc]
  · cases readProgram s c.directory <;> simp [takeProgram, hc]

/-- The first file that cannot be read gives the fault. -/
theorem readRobots_of_error {file : Path} {f : Fault} (h : readRobot s file = .error f)
    (files : List Path) : (readRobots s (file :: files)).2 = .error f := by
  rw [readRobots, h]

/-- A file that can be read leaves the outcome to the files after it. -/
theorem readRobots_of_ok {file : Path} {found : Option RobotSettings}
    (h : readRobot s file = .ok found) (files : List Path) :
    (readRobots s (file :: files)).2 = (readRobots s files).2 := by
  rw [readRobots, h]
  cases found <;> rfl

/-- Files are read before others if nothing among them fails. -/
theorem readRobots_append {before : List Path} (h : ∀ p ∈ before, ∃ r, readRobot s p = .ok r)
    (files : List Path) : (readRobots s (before ++ files)).2 = (readRobots s files).2 := by
  induction before with
  | nil => rfl
  | cons file before ih =>
    rw [List.forall_mem_cons] at h
    obtain ⟨⟨r, hr⟩, hbefore⟩ := h
    rw [List.cons_append, readRobots_of_ok hr, ih hbefore]

/-- Where a reading fails: at the first file of a robot that does, or else at the settings of
programs. -/
inductive FailsWith (s : Store) (directory : Path) (f : Fault) : Prop where
  | robot {before after : List Path} {file : Path} :
    robotFiles s directory = before ++ file :: after →
    (∀ p ∈ before, ∃ r, readRobot s p = .ok r) → readRobot s file = .error f →
    FailsWith s directory f
  | program :
    (∀ p ∈ robotFiles s directory, ∃ r, readRobot s p = .ok r) →
    readProgram s directory = .error f → FailsWith s directory f

/-- Either all files are read, or there is a first one that fails. -/
theorem exists_first_fault (s : Store) (files : List Path) :
    (∀ p ∈ files, ∃ r, readRobot s p = .ok r) ∨
      ∃ before file after f, files = before ++ file :: after ∧
        (∀ p ∈ before, ∃ r, readRobot s p = .ok r) ∧ readRobot s file = .error f := by
  induction files with
  | nil => exact .inl nofun
  | cons file files ih =>
    cases hfile : readRobot s file with
    | error f => exact .inr ⟨[], file, files, f, rfl, nofun, hfile⟩
    | ok r =>
      obtain hfiles | ⟨before, failing, after, f, rfl, hbefore, hfailing⟩ := ih
      · exact .inl (List.forall_mem_cons.mpr ⟨⟨r, hfile⟩, hfiles⟩)
      · exact .inr ⟨file :: before, failing, after, f, rfl,
          List.forall_mem_cons.mpr ⟨⟨r, hfile⟩, hbefore⟩, hfailing⟩

/-- How a reading ends: as the files of robots do, and then as the settings of programs. -/
theorem load_fst (s : Store) (c : Catalog) :
    ((load s).run c).1 = (readRobots s (robotFiles s c.directory)).2 >>= fun _ =>
      (fun _ => ()) <$> readProgram s c.directory := by
  rw [load_run, readDirectory]
  rcases readRobots s (robotFiles s c.directory) with ⟨robots, f | ⟨⟩⟩
  · rfl
  · cases readProgram s c.directory <;> rfl

/-- If all robot files can be read, loading ends as reading the program settings does. -/
theorem load_fst_of_files (h : ∀ p ∈ robotFiles s c.directory, ∃ r, readRobot s p = .ok r) :
    ((load s).run c).1 = (fun _ => ()) <$> readProgram s c.directory := by
  have hend := readRobots_append h []
  rw [List.append_nil] at hend
  rw [load_fst, hend]
  rfl

/-- A reading fails exactly where the file of a robot or the settings of programs do. -/
theorem load_eq_error_iff {f : Fault} :
    ((load s).run c).1 = .error f ↔ FailsWith s c.directory f := by
  have hfails {g : Fault} (h : FailsWith s c.directory g) : ((load s).run c).1 = .error g := by
    cases h with
    | robot hsplit hbefore hfile =>
      rw [load_fst, hsplit, readRobots_append hbefore, readRobots_of_error hfile]
      rfl
    | program hfiles hprogram =>
      rw [load_fst_of_files hfiles, hprogram]
      rfl
  refine ⟨fun h => ?_, hfails⟩
  obtain hfiles | ⟨before, file, after, g, hsplit, hbefore, hfile⟩ :=
    exists_first_fault s (robotFiles s c.directory)
  · rw [load_fst_of_files hfiles] at h
    cases hprogram : readProgram s c.directory with
    | ok program =>
      rw [hprogram] at h
      cases h
    | error g =>
      rw [hprogram] at h
      obtain rfl := Except.error.inj h
      exact .program hfiles hprogram
  · have hg : FailsWith s c.directory g := .robot hsplit hbefore hfile
    obtain rfl := Except.error.inj (h.symm.trans (hfails hg))
    exact hg

/-! ### Questions -/

/-- The questions that a catalog is asked. -/
inductive Question where
  | load
  | names
  | robot (name : Value)
  | build (name : Value)
  | settings

/-- What a catalog answers. -/
inductive Answer where
  | done
  | names (names : List String)
  | robot (r : RobotSettings)
  | built (r : Robot Float)
  | settings (p : Program.Settings)

/-- A catalog is loaded once. -/
theorem ensureLoaded_run (s : Store) (c : Catalog) :
    (ensureLoaded s).run c = if c.loaded then (.ok (), c) else (load s).run c := by
  have hget : (ensureLoaded s).run c =
      ((if !c.loaded then load s else pure ()) : Query Unit).run c := rfl
  rw [hget]
  cases c.loaded <;> rfl

/-- A question after a reading finds the directory read, or reads it again. -/
theorem ensureLoaded_run_load (hc : c.loaded = false) :
    (ensureLoaded s).run ((load s).run c).2 = (load s).run c := by
  rw [ensureLoaded_run]
  split_ifs with hloaded
  · exact Prod.ext ((loaded_load hc).mp hloaded).symm rfl
  · exact load_run_load s c

/-- A computation that is started when the directory has been read, and only looks at what was
read. -/
theorem run_after_ensureLoaded {α : Type} {d : Catalog} {k : Query α} {o : Catalog → Outcome α}
    (hk : ∀ c, k.run c = (o c, c)) (hd : (ensureLoaded s).run d = (load s).run c) :
    (ensureLoaded s >>= fun _ => k).run d =
      (((load s).run c).1 >>= fun _ => o ((load s).run c).2, ((load s).run c).2) := by
  rw [Outcome.run_bind, hd]
  rcases (load s).run c with ⟨f | ⟨⟩, c'⟩
  · rfl
  · exact hk c'

namespace Question

/-- The question as it is asked. -/
def query (s : Store) : Question → Query Answer
  | load => (fun _ => .done) <$> Catalog.load s
  | names => .names <$> Catalog.names s
  | robot name => .robot <$> Catalog.robot s name
  | build name => .built <$> Catalog.build s name
  | settings => .settings <$> Catalog.settings s

/-- The answer of a catalog that has been read. -/
def answer (c : Catalog) : Question → Outcome Answer
  | load => .ok .done
  | names => .ok (.names (c.robots.map (·.1)))
  | robot name => .robot <$> find c.robots name
  | build name => .built <$> (find c.robots name >>= RobotSettings.build)
  | settings => (fun es => .settings (.ofEntries es)) <$> c.program.mapping

/-- A question reads the directory, or finds it read, and is then answered from what was read. -/
theorem query_run {d : Catalog} (hload : (Catalog.load s).run d = (Catalog.load s).run c)
    (hensure : (ensureLoaded s).run d = (Catalog.load s).run c) (q : Question) :
    (q.query s).run d = (((Catalog.load s).run c).1 >>= fun _ =>
      q.answer ((Catalog.load s).run c).2, ((Catalog.load s).run c).2) := by
  have hrobot (name : Value) : (Catalog.robot s name).run d =
      (((Catalog.load s).run c).1 >>= fun _ => find ((Catalog.load s).run c).2.robots name,
        ((Catalog.load s).run c).2) :=
    run_after_ensureLoaded (o := fun c => find c.robots name) (fun _ => rfl) hensure
  cases q with
  | load =>
    rw [query, run_map, hload]
    rcases (Catalog.load s).run c with ⟨_ | ⟨⟩, c'⟩ <;> rfl
  | names =>
    have hnames : (Catalog.names s).run d = _ :=
      run_after_ensureLoaded (o := fun c => .ok (c.robots.map (·.1))) (fun _ => rfl) hensure
    rw [query, run_map, hnames]
    rcases (Catalog.load s).run c with ⟨_ | ⟨⟩, c'⟩ <;> rfl
  | robot name =>
    rw [query, run_map, hrobot]
    rcases (Catalog.load s).run c with ⟨_ | ⟨⟩, c'⟩ <;> rfl
  | build name =>
    have hbuild : (Catalog.build s name).run d =
        (((Catalog.load s).run c).1 >>= fun _ =>
          find ((Catalog.load s).run c).2.robots name >>= RobotSettings.build,
          ((Catalog.load s).run c).2) := by
      rw [Catalog.build, Outcome.run_bind, hrobot]
      rcases (Catalog.load s).run c with ⟨_ | ⟨⟩, c'⟩
      · rfl
      · simp only [Outcome.ok_bind]
        cases find c'.robots name <;> rfl
    rw [query, run_map, hbuild]
    rcases (Catalog.load s).run c with ⟨_ | ⟨⟩, c'⟩ <;> rfl
  | settings =>
    have hsettings : (Catalog.settings s).run d = _ :=
      run_after_ensureLoaded (o := fun c => Program.Settings.ofEntries <$> c.program.mapping)
        (fun c => by
          change ((liftM c.program.mapping : Query _) >>= fun es =>
            pure (Program.Settings.ofEntries es)).run c = _
          rw [Outcome.run_bind]
          cases c.program.mapping <;> rfl) hensure
    rw [query, run_map, hsettings]
    rcases (Catalog.load s).run c with ⟨_ | ⟨⟩, c'⟩
    · rfl
    · simp only [answer, Outcome.ok_bind]
      cases c'.program.mapping <;> rfl

end Question

/-- The outcomes of questions that a catalog is asked one after the other. -/
def outcomes (s : Store) (c : Catalog) : List Question → List (Outcome Answer)
  | [] => []
  | q :: qs => ((q.query s).run c).1 :: outcomes s ((q.query s).run c).2 qs

/-- Every question leaves a catalog as a reading does, so the next one finds it so. -/
theorem outcomes_eq {d : Catalog} (hc : c.loaded = false)
    (hload : (load s).run d = (load s).run c) (hensure : (ensureLoaded s).run d = (load s).run c)
    (questions : List Question) :
    outcomes s d questions = questions.map fun q =>
      ((load s).run c).1 >>= fun _ => q.answer ((load s).run c).2 := by
  induction questions generalizing d with
  | nil => rfl
  | cons q questions ih =>
    rw [outcomes, List.map_cons, Question.query_run hload hensure,
      ih (load_run_load s c) (ensureLoaded_run_load hc)]

/-- Whatever a new catalog is asked, each question has the outcome that it has on a new catalog. If
the directory cannot be read, at the file of a robot or at the settings of programs, each question
fails with the fault of that reading. -/
theorem outcomes_as_on_new {directory : Path} (h : make s directory = .ok c)
    (questions : List Question) :
    outcomes s c questions = questions.map (fun q => ((q.query s).run c).1) ∧
      ∀ f, (((load s).run c).1 = .error f ↔ FailsWith s directory f) ∧
        (FailsWith s directory f → ∀ o ∈ outcomes s c questions, o = .error f) := by
  obtain ⟨hc, rfl⟩ : c.loaded = false ∧ c.directory = directory := by
    unfold make at h
    split_ifs at h
    obtain rfl := Except.ok.inj h
    exact ⟨rfl, rfl⟩
  have hensure : (ensureLoaded s).run c = (load s).run c := by
    rw [ensureLoaded_run, hc]
    rfl
  have houtcomes := outcomes_eq hc rfl hensure questions
  constructor
  · rw [houtcomes]
    refine List.map_congr_left fun q _ => ?_
    rw [Question.query_run rfl hensure]
  · refine fun f => ⟨load_eq_error_iff, fun hf o ho => ?_⟩
    rw [houtcomes, List.mem_map] at ho
    obtain ⟨q, -, rfl⟩ := ho
    rw [load_eq_error_iff.mpr hf]
    rfl

end Readers

/-- A directory with the files of two robots, the second of which has no name. -/
def halfReadable : Store :=
  ⟨[(["config"], .directory), (["config", "robots"], .directory),
    (["config", "robots", "arm.yaml"],
      .document (.record [("robot", .record [("name", .text "Arm")])])),
    (["config", "robots", "leg.yaml"], .document (.record [("robot", .record [])]))]⟩

/-- The robot files of that store. -/
theorem halfReadable_files : robotFiles halfReadable (.ofText "config") =
    [.ofText "config/robots/arm.yaml", .ofText "config/robots/leg.yaml"] := by
  have hplace : halfReadable.locate ((Path.ofText "config").child "robots") =
      .ok ["config", "robots"] := rfl
  have hsorted : ["arm.yaml", "leg.yaml"].mergeSort (fun a b => decide (a ≤ b)) =
      ["arm.yaml", "leg.yaml"] := List.mergeSort_of_pairwise (by decide +kernel)
  have hnames : halfReadable.namesIn ((Path.ofText "config").child "robots") =
      ["arm.yaml", "leg.yaml"] := by
    rw [Store.namesIn, hplace]
    exact hsorted
  rw [robotFiles, hnames]
  decide +kernel

/-- The first robot is read and stays in the table, and yet no question is ever answered. -/
theorem outcomes_as_on_new_half :
    ∃ c f, make halfReadable (.ofText "config") = .ok c ∧
      FailsWith halfReadable (.ofText "config") f ∧
      ((load halfReadable).run c).2.robots.map (·.1) = ["arm"] ∧
      ∀ o ∈ outcomes halfReadable c [.names, .robot (.text "arm"), .load, .settings, .names],
        o = .error f := by
  have hmake : make halfReadable (.ofText "config") = .ok { directory := .ofText "config" } := rfl
  have hfails : FailsWith halfReadable (.ofText "config")
      (.robotFile "config/robots/leg.yaml" [⟨[.key "name"], .missing⟩]) := by
    refine @FailsWith.robot _ _ _ _ [_] [] _ halfReadable_files ?_ rfl
    intro p hp
    obtain rfl := List.mem_singleton.mp hp
    exact ⟨_, rfl⟩
  refine ⟨_, _, hmake, hfails, ?_, ((outcomes_as_on_new hmake _).2 _).2 hfails⟩
  rw [load_run, readDirectory, halfReadable_files]
  rfl

end RobotProgram.Config.Catalog
