import RobotProgram.Proofs.Printing
import RobotProgram.Proofs.RunResults

/-!
# Two ways to refuse a program

Checking an action file runs a request that is not strict and refuses the diagnostics itself, while
generating strictly leaves them to the run. The strict run is the other one with its result hardened
(`run_strict`), so that both commands decide about the same result.

They print different texts, though, a fixed line and the module, and the output may refuse a text or
show it without its codes of colours. `check_iff_strict` says on every host when each of them ends
well, that the two refuse the same files if the output takes all characters, and what a strict one
prints: the module, unless it has codes that the output drops.
-/

namespace RobotProgram

namespace Pipeline

open Files (Path)

namespace Result

/-- The result as a strict run has it: a success with diagnostics is an error. -/
def harden (r : Result) : Result :=
  if r.success && !r.diagnostics.isEmpty then
    { r with
      success := false
      errors := r.errors ++ [toString r.diagnostics.length ++ " diagnostic(s) in strict mode"] }
  else r

variable {r : Result}

/-- A result that failed stays as it is. -/
theorem harden_of_failed (h : r.success = false) : r.harden = r := by
  simp [harden, h]

/-- A run that ends is hardened by ending it strictly. -/
theorem harden_finish (h : r.success = false) (path : Option Path) :
    (r.finish false path).harden = r.finish true path := by
  cases hdiagnostics : r.diagnostics.isEmpty <;> simp [harden, finish, hdiagnostics, h]

/-- A strict run succeeds if the other one does, without diagnostics. -/
theorem success_harden : r.harden.success = true ↔ r.success = true ∧ r.diagnostics = [] := by
  cases hsuccess : r.success <;> cases hdiagnostics : r.diagnostics <;>
    simp [harden, hsuccess, hdiagnostics]

/-- A result without diagnostics stays as it is. -/
theorem harden_of_quiet (h : r.diagnostics = []) : r.harden = r := by
  simp [harden, h]

end Result

/-- A strict run does what the other one does, and hardens its result. -/
theorem run_strict {Cell Actions Product : Type} (stages : Stages Cell Actions Product) :
    run stages true = Result.harden <$> run stages false := by
  unfold run
  rw [map_bind]
  refine bind_congr fun robot => ?_
  cases robot with
  | error e => rw [map_pure, Result.harden_of_failed rfl]
  | ok cell =>
  rw [map_bind]
  refine bind_congr fun actions => ?_
  cases actions with
  | error e => rw [map_pure, Result.harden_of_failed rfl]
  | ok actions =>
  rw [map_bind]
  refine bind_congr fun product => ?_
  cases product with
  | error e => rw [map_pure, Result.harden_of_failed rfl]
  | ok product =>
  cases stages.write with
  | none => rw [map_pure, Result.harden_finish rfl]
  | some write =>
  rw [map_bind]
  refine bind_congr fun path => ?_
  cases path with
  | error e => rw [map_pure, Result.harden_of_failed rfl]
  | ok path => rw [map_pure, Result.harden_finish rfl]

namespace Request

variable [Host] {q : Request} {s s' : Session} {r : Result}

/-- The result that a request returns is consistent. -/
theorem consistent_of_execute (h : q.execute.run s = (.ok r, s')) :
    r.Consistent q.plan q.strict := by
  have hwrite : q.stages.write.isSome = q.outputPath.truthy := by
    unfold stages
    cases q.outputPath.truthy <;> rfl
  obtain ⟨r', s₁, hrun, hconsistent, -⟩ :=
    exists_result q hwrite fun stage f s' hfails => hfails.isReported_of_run h
  obtain ⟨⟨rfl⟩, rfl⟩ := hrun.symm.trans h
  exact hconsistent

/-- A request that is made strict does the same, and hardens the result. -/
theorem execute_strict (q : Request) (h : q.strict = false) :
    { q with strict := true }.execute.run s = (.ok r, s') ↔
      ∃ r₀, q.execute.run s = (.ok r₀, s') ∧ r₀.harden = r := by
  have hmap : { q with strict := true }.execute = Result.harden <$> q.execute := by
    unfold execute
    rw [h]
    exact run_strict q.stages
  rw [hmap, ← bind_pure_comp, Outcome.run_bind]
  rcases q.execute.run s with ⟨f | r₁, s₁⟩
  · constructor
    · rintro ⟨⟩
    · rintro ⟨r₀, ⟨⟩, -⟩
  · constructor
    · rintro ⟨⟨⟩, rfl⟩
      exact ⟨r₁, rfl, rfl⟩
    · rintro ⟨r₀, ⟨⟨⟩, rfl⟩, rfl⟩
      rfl

end Request

end Pipeline

namespace Command

open Pipeline (Request Result Session StageReport)

/-! ### Replies -/

section

variable [Host]

/-- A run that generates a module is answered well if it succeeds. -/
theorem status_generateReply (r : Result) : (generateReply r).status = 0 ↔ r.success = true := by
  unfold generateReply
  cases r.success with
  | false => exact iff_of_false Nat.one_ne_zero Bool.false_ne_true
  | true => cases r.outputPath <;> exact iff_of_true rfl rfl

/-- A run that succeeds without diagnostics prints the module as the output shows texts. -/
theorem generateReply_of_quiet {r : Result} {text : String} (hsuccess : r.success = true)
    (hdiagnostics : r.diagnostics = []) (hpath : r.outputPath = none)
    (htext : r.moduleText = some text) :
    generateReply r = .success [.text (Host.echoed text)] := by
  simp [generateReply, diagnosticsShown, hsuccess, hdiagnostics, hpath, htext]

/-- A reply of one text is printed if the output takes the text. -/
theorem printed_text {text : String} : (Reply.success [.text text]).Printed ↔ Host.Takes text := by
  simp [Reply.Printed, Reply.success, Display.texts]

/-- A command on an action file answers with the reply to its request, if the file is there. -/
theorem runRequest_eq_ok {file : String} {q : Request} {reply : Result → Reply} {s : Session}
    {a : Reply} (ha : a.status = 0) :
    ((runRequest file q reply).run s).1 = .ok a ↔
      isThere s.store file = true ∧ ∃ r s', q.execute.run s = (.ok r, s') ∧ reply r = a := by
  have hrun : (runRequest file q reply).run s =
      (if isThere s.store file then do return reply (← q.execute) else return .misuse).run s := rfl
  rw [hrun]
  split_ifs with hthere
  · rw [Outcome.run_bind]
    rcases q.execute.run s with ⟨f | r, s'⟩
    · refine iff_of_false nofun ?_
      rintro ⟨-, r, s₁, ⟨⟩, -⟩
    · constructor
      · rintro ⟨⟩
        exact ⟨hthere, r, s', rfl, rfl⟩
      · rintro ⟨-, r', s₁, ⟨⟨⟩, rfl⟩, rfl⟩
        rfl
  · refine iff_of_false ?_ fun h => hthere h.1
    rintro ⟨⟩
    cases ha

end

/-- A run is checked well if it succeeds without diagnostics, and then a line is printed. -/
theorem checkReply_status (r : Result) :
    (checkReply r).status = 0 ↔ r.success = true ∧ r.diagnostics = [] := by
  unfold checkReply
  cases hsuccess : r.success <;> cases hdiagnostics : r.diagnostics <;>
    simp [Reply.failure, Reply.success]

/-- The line that is printed where there are no diagnostics. -/
def quietLine : String := "✓ No diagnostics" ++ "\n"

/-- A run that succeeds without diagnostics prints a line. -/
theorem checkReply_of_quiet {r : Result} (hsuccess : r.success = true)
    (hdiagnostics : r.diagnostics = []) : checkReply r = .success [.text quietLine] := by
  have hline : Display.line "✓ No diagnostics" = .text quietLine := rfl
  rw [← hline]
  simp [checkReply, hsuccess, hdiagnostics]

/-! ### Command lines -/

section

variable {switches : List Switch} {mixed : Bool} {done : Arguments} {word : String}
  {rest : List String}

/-- A word that does not start with a dash is not the end of the switches. -/
theorem ne_of_not_dashed (h : word.startsWith "-" = false) : word ≠ "--" := by
  rintro rfl
  cases h.symm.trans (show "--".startsWith "-" = true by decide +kernel)

/-- A word that does not start with a dash is no switch, and may end the switches. -/
theorem read?_word (h : word.startsWith "-" = false) :
    Arguments.read? switches mixed done (word :: rest) =
      if mixed then Arguments.read? switches true (done.add [word]) rest
      else some (done.add (word :: rest)) := by
  rw [Arguments.read?.eq_def]
  cases mixed <;> simp [ne_of_not_dashed h, h]

/-- A word that starts with a dash, and is not made of dashes, is a switch. -/
def isSwitch (word : String) : Bool := word.startsWith "-" && word != "-" && word != "--"

/-- A switch takes the next word as its value. -/
theorem read?_valueNext (name : String) (hswitch : isSwitch word = true)
    (h : switchWord? switches word = some (.valueNext name)) (value : String) :
    Arguments.read? switches mixed done (word :: value :: rest) =
      Arguments.read? switches mixed (done.give name value) rest := by
  simp only [isSwitch, Bool.and_eq_true, bne_iff_ne] at hswitch
  simp [Arguments.read?, hswitch, h]

/-- A switch takes no value. -/
theorem read?_flag (name : String) (hswitch : isSwitch word = true)
    (h : switchWord? switches word = some (.flag name)) :
    Arguments.read? switches mixed done (word :: rest) =
      Arguments.read? switches mixed (done.give name "") rest := by
  simp only [isSwitch, Bool.and_eq_true, bne_iff_ne] at hswitch
  simp [Arguments.read?, hswitch, h]

/-- The settings of a command line that names a directory. -/
def settingOf (directory : String) : Setting := ⟨directory, "WARNING", false⟩

/-- A command line that checks a file. -/
theorem ofArguments_check (directory robot : String) (hfile : file.startsWith "-" = false) :
    Invocation.ofArguments ["--config-dir", directory, "check", file, "-r", robot] =
      .task (settingOf directory) (.check file robot) := by
  have hwords : Arguments.read? checkSwitches true {} [file, "-r", robot] =
      some ⟨[("--robot", robot)], [file]⟩ := by
    rw [read?_word hfile, if_pos rfl,
      read?_valueNext "--robot" (by decide +kernel) (by decide +kernel)]
    rfl
  unfold Invocation.ofArguments
  rw [read?_valueNext "--config-dir" (by decide +kernel) (by decide +kernel),
    read?_word (by decide +kernel)]
  change Invocation.ofWords (settingOf directory) checkSwitches [file, "-r", robot]
    Invocation.checkTask? = _
  unfold Invocation.ofWords
  rw [hwords]
  rfl

/-- A command line that generates the module of a file strictly. -/
theorem ofArguments_strict (directory robot : String) (hfile : file.startsWith "-" = false) :
    Invocation.ofArguments ["--config-dir", directory, "generate", file, "-r", robot, "--strict"] =
      .task (settingOf directory) (.generate file robot none none true) := by
  have hwords : Arguments.read? generateSwitches true {} [file, "-r", robot, "--strict"] =
      some ⟨[("--robot", robot), ("--strict", "")], [file]⟩ := by
    rw [read?_word hfile, if_pos rfl,
      read?_valueNext "--robot" (by decide +kernel) (by decide +kernel),
      read?_flag "--strict" (by decide +kernel) (by decide +kernel)]
    rfl
  unfold Invocation.ofArguments
  rw [read?_valueNext "--config-dir" (by decide +kernel) (by decide +kernel),
    read?_word (by decide +kernel)]
  change Invocation.ofWords (settingOf directory) generateSwitches [file, "-r", robot, "--strict"]
    Invocation.generateTask? = _
  unfold Invocation.ofWords
  rw [hwords]
  rfl

end

/-! ### The two commands -/

section

variable [Host] {setting : Setting} {file robot : String} {s : Session}

/-- The request of a command ends all its stages well and has no diagnostics. -/
def Clears (q : Request) (s : Session) (r : Result) (s' : Session) : Prop :=
  q.execute.run s = (.ok r, s') ∧ r.steps = q.plan.map .passed ∧ r.diagnostics = []

/-- A request that is not strict ends all its stages well exactly when it succeeds. -/
theorem clears_iff (q : Request) (hq : q.strict = false) {r : Result} {s' : Session} :
    Clears q s r s' ↔
      q.execute.run s = (.ok r, s') ∧ r.success = true ∧ r.diagnostics = [] := by
  unfold Clears
  refine and_congr_right fun hrun => and_congr_left fun _ => ?_
  have hsuccess := (Request.consistent_of_execute hrun).success
  simpa [hq] using hsuccess.symm

/-- A request of a command that is clear has a module, which is not written. -/
theorem Clears.moduleText {r : Result} {s' : Session}
    (h : Clears (request setting file robot) s r s') :
    r.outputPath = none ∧ ∃ text, r.moduleText = some text := by
  obtain ⟨hrun, hsteps, -⟩ := h
  have hconsistent := Request.consistent_of_execute hrun
  have hplan : (request setting file robot).plan = [.loadRobot, .loadActions, .generate] := rfl
  constructor
  · rw [← Option.not_isSome_iff_eq_none, hconsistent.outputPath, hsteps, hplan]
    decide
  · refine Option.isSome_iff_exists.mp (hconsistent.moduleText.mpr ?_)
    rw [hsteps, hplan]
    decide

/-- Checking ends well if the request is clear and the output takes the line of that. -/
theorem exitStatus_check :
    exitStatus ((Invocation.task setting (.check file robot)).run.run s).1 = 0 ↔
      isThere s.store file = true ∧ (∃ r s', Clears (request setting file robot) s r s') ∧
        Host.Takes quietLine := by
  rw [exitStatus_run]
  constructor
  · rintro ⟨a, hreply, hstatus, hprinted⟩
    obtain ⟨hthere, r, s', hrun, rfl⟩ := (runRequest_eq_ok hstatus).mp hreply
    obtain ⟨hsuccess, hdiagnostics⟩ := (checkReply_status r).mp hstatus
    rw [checkReply_of_quiet hsuccess hdiagnostics, printed_text] at hprinted
    exact ⟨hthere, ⟨r, s', (clears_iff _ rfl).mpr ⟨hrun, hsuccess, hdiagnostics⟩⟩, hprinted⟩
  · rintro ⟨hthere, ⟨r, s', hclears⟩, htakes⟩
    obtain ⟨hrun, hsuccess, hdiagnostics⟩ := (clears_iff _ rfl).mp hclears
    refine ⟨.success [.text quietLine], (runRequest_eq_ok rfl).mpr ?_, rfl, printed_text.mpr htakes⟩
    exact ⟨hthere, r, s', hrun, checkReply_of_quiet hsuccess hdiagnostics⟩

/-- Generating strictly answers with a good reply exactly when the request is clear. It prints the
module of the run that is not strict. -/
theorem strict_reply_iff {a : Reply} (ha : a.status = 0) :
    ((Invocation.task setting (.generate file robot none none true)).reply.run s).1 = .ok a ↔
      isThere s.store file = true ∧ ∃ r s' text, Clears (request setting file robot) s r s' ∧
        r.moduleText = some text ∧ a = .success [.text (Host.echoed text)] := by
  refine (runRequest_eq_ok (q := { request setting file robot with strict := true }) ha).trans
    (and_congr_right fun _ => ?_)
  have hstrict {r : Result} {s' : Session} :
      { request setting file robot with strict := true }.execute.run s = (.ok r, s') ↔
        ∃ r₀, (request setting file robot).execute.run s = (.ok r₀, s') ∧ r₀.harden = r :=
    Request.execute_strict _ rfl
  constructor
  · rintro ⟨r, s', hrun, rfl⟩
    obtain ⟨r₀, hrun₀, rfl⟩ := hstrict.mp hrun
    obtain ⟨hsuccess, hdiagnostics⟩ := Result.success_harden.mp ((status_generateReply _).mp ha)
    have hclears : Clears (request setting file robot) s r₀ s' :=
      (clears_iff _ rfl).mpr ⟨hrun₀, hsuccess, hdiagnostics⟩
    obtain ⟨hpath, text, htext⟩ := hclears.moduleText
    refine ⟨r₀, s', text, hclears, htext, ?_⟩
    rw [Result.harden_of_quiet hdiagnostics]
    exact generateReply_of_quiet hsuccess hdiagnostics hpath htext
  · rintro ⟨r, s', text, hclears, htext, rfl⟩
    obtain ⟨hrun, hsuccess, hdiagnostics⟩ := (clears_iff _ rfl).mp hclears
    refine ⟨r, s', hstrict.mpr ⟨r, hrun, Result.harden_of_quiet hdiagnostics⟩, ?_⟩
    exact generateReply_of_quiet hsuccess hdiagnostics hclears.moduleText.1 htext

/-- Generating strictly ends well if the request is clear and the output takes its module. -/
theorem exitStatus_strict :
    exitStatus ((Invocation.task setting (.generate file robot none none true)).run.run s).1 = 0 ↔
      isThere s.store file = true ∧ ∃ r s' text, Clears (request setting file robot) s r s' ∧
        r.moduleText = some text ∧ Host.Takes (Host.echoed text) := by
  rw [exitStatus_run]
  constructor
  · rintro ⟨a, hreply, hstatus, hprinted⟩
    obtain ⟨hthere, r, s', text, hclears, htext, rfl⟩ := (strict_reply_iff hstatus).mp hreply
    exact ⟨hthere, r, s', text, hclears, htext, printed_text.mp hprinted⟩
  · rintro ⟨hthere, r, s', text, hclears, htext, htakes⟩
    refine ⟨_, (strict_reply_iff ?_).mpr ⟨hthere, r, s', text, hclears, htext, rfl⟩, ?_, ?_⟩
    · rfl
    · rfl
    · exact printed_text.mpr htakes

/-- Command lines that check an action file and that generate its module strictly, without an output
file and another module name, both need the file to be there, all stages to end well and no
diagnostics. What decides besides is what the output takes of the texts that they print: a fixed
line, and the module. So they end well for the same files if the output takes all characters. What
the strict one prints is the module of the run that is not strict as the output shows it, which is
the module itself only if the output shows codes of colours or the module has none. -/
theorem check_iff_strict {checkWords strictWords : List String}
    (hcheck : Invocation.ofArguments checkWords = .task setting (.check file robot))
    (hstrict : Invocation.ofArguments strictWords =
      .task setting (.generate file robot none none true)) (s : Session) :
    (exitStatus ((Invocation.ofArguments checkWords).run.run s).1 = 0 ↔
      isThere s.store file = true ∧ (∃ r s', Clears (request setting file robot) s r s') ∧
        Host.Takes quietLine) ∧
    (exitStatus ((Invocation.ofArguments strictWords).run.run s).1 = 0 ↔
      isThere s.store file = true ∧ ∃ r s' text, Clears (request setting file robot) s r s' ∧
        r.moduleText = some text ∧ Host.Takes (Host.echoed text)) ∧
    ((∀ c, Host.outputTakes c = true) →
      (exitStatus ((Invocation.ofArguments checkWords).run.run s).1 = 0 ↔
        exitStatus ((Invocation.ofArguments strictWords).run.run s).1 = 0)) ∧
    (exitStatus ((Invocation.ofArguments strictWords).run.run s).1 = 0 →
      ∃ r s' text, (request setting file robot).execute.run s = (.ok r, s') ∧
        r.moduleText = some text ∧
        ((Invocation.ofArguments strictWords).run.run s).1 =
          .ok (.success [.text (Host.echoed text)]) ∧
        (Host.echoed text = text ↔ Host.showsColours = true ∨ ¬Text.HasCode text)) := by
  rw [hcheck, hstrict]
  refine ⟨exitStatus_check, exitStatus_strict, fun hall => ?_, fun h => ?_⟩
  · -- Where all texts are taken, only the request is left to decide, and it is the same one.
    have htakes (text : String) : Host.Takes text := fun c _ => hall c
    rw [exitStatus_check, exitStatus_strict]
    refine and_congr_right fun _ => ⟨?_, ?_⟩
    · rintro ⟨⟨r, s', hclears⟩, -⟩
      obtain ⟨-, text, htext⟩ := hclears.moduleText
      exact ⟨r, s', text, hclears, htext, htakes _⟩
    · rintro ⟨r, s', text, hclears, -, -⟩
      exact ⟨⟨r, s', hclears⟩, htakes _⟩
  · obtain ⟨hthere, r, s', text, hclears, htext, htakes⟩ := exitStatus_strict.mp h
    refine ⟨r, s', text, hclears.1, htext, Invocation.run_eq_ok.mpr ⟨?_, ?_⟩, Host.echoed_eq_self⟩
    · exact (strict_reply_iff rfl).mpr ⟨hthere, r, s', text, hclears, htext, rfl⟩
    · exact printed_text.mpr htakes

end

/-- A document with a single action, which sets the output of a name. -/
def outputFile (name : String) : Value :=
  .record [("actions", .list [.record [("type", .text "DigitalOutput"), ("version", .int 2001000),
    ("name", .text name)]])]

/-- A directory with a robot whose axes all go up, and files that set outputs of several names: a
word, one with a code of colours, and half of a surrogate pair. -/
def outputSession : Session where
  store := ⟨[(["config"], .directory), (["config", "robots"], .directory),
    (["config", "robots", "arm.yaml"], .document Request.uprightRobot),
    (["word.yaml"], .document (outputFile "do1")),
    (["code.yaml"], .document (outputFile "\x1b[31mdo1")),
    (["half.yaml"], .document (outputFile (String.singleton (Text.ofCode 0xD800))))]⟩

/-- A command line that checks a file. -/
def checkWords (file : String) : List String :=
  ["--config-dir", "config", "check", file, "-r", "arm"]

/-- A command line that generates the module of a file strictly. -/
def strictWords (file : String) : List String :=
  ["--config-dir", "config", "generate", file, "-r", "arm", "--strict"]

/-- Both commands end well for the word. They do for the code too, but what the strict one prints is
not the module. The half passes the check, and its module is not printed at all. -/
theorem check_iff_strict_outputs :
    (exitStatus ((Invocation.ofArguments (checkWords "word.yaml")).run.run outputSession).1 = 0 ∧
      exitStatus ((Invocation.ofArguments (strictWords "word.yaml")).run.run outputSession).1 =
        0) ∧
    (∃ r s' text, (request (settingOf "config") "code.yaml" "arm").execute.run outputSession =
        (.ok r, s') ∧ r.moduleText = some text ∧
      ((Invocation.ofArguments (strictWords "code.yaml")).run.run outputSession).1 =
        .ok (.success [.text (Host.echoed text)]) ∧ Host.echoed text ≠ text) ∧
    (∃ r s', Clears (request (settingOf "config") "half.yaml" "arm") outputSession r s') ∧
      exitStatus ((Invocation.ofArguments (checkWords "half.yaml")).run.run outputSession).1 = 0 ∧
      exitStatus ((Invocation.ofArguments (strictWords "half.yaml")).run.run outputSession).1 ≠
        0 := by
  have hall (file : String) (hfile : file.startsWith "-" = false) :=
    check_iff_strict (ofArguments_check "config" "arm" hfile)
      (ofArguments_strict "config" "arm" hfile) outputSession
  have hword := hall "word.yaml" (by decide +kernel)
  have hcode := hall "code.yaml" (by decide +kernel)
  have hhalf := hall "half.yaml" (by decide +kernel)
  have hstrict : exitStatus ((Invocation.ofArguments (strictWords "word.yaml")).run.run
      outputSession).1 = 0 := by decide +kernel
  have hcheck : exitStatus ((Invocation.ofArguments (checkWords "half.yaml")).run.run
      outputSession).1 = 0 := by decide +kernel
  refine ⟨⟨?_, hstrict⟩, ?_, (hhalf.1.mp hcheck).2.1, hcheck, by decide +kernel⟩
  · obtain ⟨hthere, r, s', text, hclears, -, -⟩ := hword.2.1.mp hstrict
    exact hword.1.mpr ⟨hthere, ⟨r, s', hclears⟩, (hhalf.1.mp hcheck).2.2⟩
  · obtain ⟨r, s', text, hrun, htext, hprinted, -⟩ := hcode.2.2.2 (by decide +kernel)
    have hmodule : let module := ((request (settingOf "config") "code.yaml" "arm").execute.run
        outputSession).1.toOption.bind Result.moduleText
        module.map Host.echoed ≠ module := by decide +kernel
    refine ⟨r, s', text, hrun, htext, hprinted, fun hsame => hmodule ?_⟩
    simp [hrun, Except.toOption, htext, hsame]

end Command

end RobotProgram
