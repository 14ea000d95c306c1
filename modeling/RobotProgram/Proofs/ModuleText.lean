import Mathlib.Data.List.DropRight
import RobotProgram.Proofs.Generation
import RobotProgram.Proofs.LineBreaks

/-!
# What a module's text holds

A module is its lines, each followed by the line ending. A buffered line is never empty
(`Reached.filled`), so the empty line between the declarations and the procedure is the first one
after the comments, whatever the indentation is. `Settings.readModule` looks for it and gives the
declaration lines and the instruction lines of a text, with nothing but the settings
(`readModule_eq`). So a module determines its program (`module_text_determines_program`).
-/

namespace RobotProgram

/-- Where the parts of a list need the same text, they are made of it, and nothing is needed where
there are none. -/
theorem Outcome.mapM_with_eq_ok {o : Outcome String} {f : String → String → String}
    {xs ys : List String} :
    (xs.mapM fun x => (do return f (← o) x : Outcome String)) = .ok ys ↔
      ∃ t, (xs ≠ [] → o = .ok t) ∧ ys = xs.map (f t) := by
  cases o with
  | ok t =>
    change xs.mapM (fun x => (pure (f t x) : Outcome String)) = _ ↔ _
    rw [List.mapM_pure, pure_eq_ok, eq_comm]
    constructor
    · rintro rfl
      exact ⟨t, fun _ => rfl, rfl⟩
    · rintro ⟨t', ht, rfl⟩
      cases xs with
      | nil => rfl
      | cons x xs => rw [Except.ok.inj (ht (List.cons_ne_nil x xs))]
  | error e =>
    cases xs with
    | nil =>
      constructor
      · intro h
        exact ⟨"", fun hne => absurd rfl hne, (Except.ok.inj h).symm⟩
      · rintro ⟨_, _, rfl⟩
        rfl
    | cons x xs =>
      rw [List.mapM_cons]
      constructor
      · nofun
      · rintro ⟨_, ht, _⟩
        exact absurd (ht (List.cons_ne_nil x xs)) nofun

namespace Program

/-! ### Buffers -/

/-- What registrations, added instructions and diagnostics make of empty buffers. -/
inductive Reached : Run → Prop
  | empty (events : List Event) : Reached ⟨{}, events⟩
  | register {r : Run} (h : Reached r) (name : Value) (d : Declared) (line : String) :
      Reached ((register name d line).run r).2
  | addInstruction {r : Run} (h : Reached r) (line : String) :
      Reached ((addInstruction line).run r).2
  | addDiagnostic {r : Run} (h : Reached r) (message : String) :
      Reached ((addDiagnostic message).run r).2

/-- Buffers without empty lines. -/
structure Buffers.Filled (b : Buffers) : Prop where
  declarations : ∀ line ∈ b.declarations, line ≠ ""
  instructions : ∀ line ∈ b.instructions, line ≠ ""

/-- A line is added to others unless it is empty. -/
theorem ne_empty_of_mem {lines : List String} (h : ∀ l ∈ lines, l ≠ "") (line : String) :
    ∀ l ∈ if line.isEmpty then lines else lines ++ [line], l ≠ "" := by
  split_ifs with hempty
  · exact h
  · rw [List.forall_mem_append, List.forall_mem_singleton]
    exact ⟨h, by rwa [String.isEmpty_iff] at hempty⟩

/-- A registration leaves no empty line. -/
theorem Buffers.Filled.register {r : Run} (h : r.buffers.Filled) (name : Value) (d : Declared)
    (line : String) : ((register name d line).run r).2.buffers.Filled := by
  rw [Emit.run_register]
  split
  · exact h
  · split_ifs
    · exact h
    · exact ⟨ne_empty_of_mem h.declarations line, h.instructions⟩

/-- An instruction that is added leaves no empty line. -/
theorem Buffers.Filled.addInstruction {r : Run} (h : r.buffers.Filled) (line : String) :
    ((addInstruction line).run r).2.buffers.Filled := by
  have hinstructions := ne_empty_of_mem h.instructions line
  unfold Program.addInstruction
  by_cases hempty : line.isEmpty = true
  · rw [if_pos hempty]
    exact h
  · rw [if_neg hempty]
    rw [if_neg hempty] at hinstructions
    exact ⟨h.declarations, hinstructions⟩

/-- Buffers that steps lead to have no empty lines. -/
theorem Reached.filled {r : Run} (h : Reached r) : r.buffers.Filled := by
  induction h with
  | empty events => exact ⟨nofun, nofun⟩
  | register _ name d line ih => exact ih.register name d line
  | addInstruction _ line ih => exact ih.addInstruction line
  | addDiagnostic _ message ih => exact ⟨ih.declarations, ih.instructions⟩

/-! ### Lines of a module -/

/-- The pieces of a module between its line endings, for some header comments and a doubled
indentation. Nothing stands behind the last line ending. -/
def Settings.layout (s : Settings) (comments : List Value) (double : String) (b : Buffers) :
    List String :=
  ["MODULE " ++ s.moduleName.toText] ++
    comments.map (fun c => s.indent.toText ++ s.comment c) ++
    b.declarations.map (s.indent.toText ++ ·) ++
    ["", s.indent.toText ++ "PROC " ++ s.procedureName.toText ++ "()"] ++
    b.instructions.map (double ++ ·) ++
    [s.indent.toText ++ "ENDPROC", "ENDMODULE", ""]

/-- What settings give for the layout of a program: their header comments, and their doubled
indentation if an instruction needs it. -/
structure Settings.Lays (s : Settings) (b : Buffers) (comments : List Value) (double : String) :
    Prop where
  comments : s.headerComments.parts = .ok comments
  double : b.instructions ≠ [] → s.doubleIndent = .ok double

/-- Settings and program lines without line breaks. -/
structure OneLined (s : Settings) (b : Buffers) : Prop where
  moduleName : IsLine s.moduleName.toText
  procedureName : IsLine s.procedureName.toText
  indent : IsLine s.indent.toText
  commentMark : IsLine s.commentMark.toText
  comments : ∀ comments, s.headerComments.parts = .ok comments → ∀ c ∈ comments, IsLine c.toText
  declarations : ∀ line ∈ b.declarations, IsLine line
  instructions : ∀ line ∈ b.instructions, IsLine line

section

variable {s : Settings} {b : Buffers} {comments : List Value} {double : String}

/-- A module of lines is laid out in lines. -/
theorem OneLined.layout (h : OneLined s b) (hlays : s.Lays b comments double) :
    ∀ line ∈ s.layout comments double b, IsLine line := by
  have hcomment (c : Value) (hc : c ∈ comments) : IsLine (s.indent.toText ++ s.comment c) :=
    isLine_append.mpr
      ⟨h.indent, isLine_append.mpr ⟨h.commentMark, h.comments _ hlays.comments c hc⟩⟩
  have hdeclaration (line : String) (hline : line ∈ b.declarations) :
      IsLine (s.indent.toText ++ line) :=
    isLine_append.mpr ⟨h.indent, h.declarations line hline⟩
  have hinstruction (line : String) (hline : line ∈ b.instructions) : IsLine (double ++ line) :=
    -- The doubled indentation is there, as there is an instruction.
    have hdouble := hlays.double (List.ne_nil_of_mem hline)
    isLine_append.mpr ⟨s.isLine_doubleIndent h.indent hdouble, h.instructions line hline⟩
  have hopening : IsLine (s.indent.toText ++ "PROC " ++ s.procedureName.toText ++ "()") := by
    simp only [isLine_append]
    exact ⟨⟨⟨h.indent, by decide⟩, h.procedureName⟩, by decide⟩
  have hmodule : IsLine ("MODULE " ++ s.moduleName.toText) :=
    isLine_append.mpr ⟨by decide, h.moduleName⟩
  have hclosing : IsLine (s.indent.toText ++ "ENDPROC") :=
    isLine_append.mpr ⟨h.indent, by decide⟩
  have hempty : IsLine "" := by decide
  have hend : IsLine "ENDMODULE" := by decide
  simp only [Settings.layout, List.forall_mem_append, List.forall_mem_map, List.forall_mem_cons]
  exact ⟨⟨⟨⟨⟨⟨hmodule, nofun⟩, hcomment⟩, hdeclaration⟩, hempty, hopening, nofun⟩, hinstruction⟩,
    hclosing, hend, hempty, nofun⟩

/-- A layout in lines is found again when the text is split at the line ending. -/
theorem OneLined.pieces_layout {ending : String} (h : OneLined s b)
    (hbreak : ending = "\n" ∨ ending = "\r\n") (hlays : s.Lays b comments double) :
    pieces ending (String.intercalate ending (s.layout comments double b)) =
      s.layout comments double b := by
  have hlines := h.layout hlays
  have hne : s.layout comments double b ≠ [] := by simp [Settings.layout]
  rcases hbreak with rfl | rfl
  · have hsep : "\n".toList = ['\n'] := rfl
    exact pieces_intercalate hsep hne fun line hline hmem => (hlines line hline '\n' hmem).1 rfl
  · have hsep : "\r\n".toList = ['\r', '\n'] := rfl
    exact pieces_intercalate hsep hne fun line hline hmem => (hlines line hline '\r' hmem).2 rfl

end

/-- Lines that are each followed by a line ending, as a joined text. -/
theorem intercalate_append_ending {ending : String} {lines : List String} (h : lines ≠ []) :
    String.intercalate ending lines ++ ending = String.intercalate ending (lines ++ [""]) := by
  rw [String.intercalate_append_of_ne_nil h (List.cons_ne_nil _ _), String.intercalate_singleton,
    String.append_empty]

/-- The text of a module is its layout, joined by the line ending. -/
theorem Generator.moduleText_eq_ok {g : Generator} {ending : String}
    (hending : g.settings.lineEnding = .text ending) {b : Buffers} {text : String} :
    g.moduleText b = .ok text ↔ ∃ comments double, g.settings.Lays b comments double ∧
      text = String.intercalate ending (g.settings.layout comments double b) := by
  have hbreak : g.settings.lineBreak = .ok ending := by rw [Settings.lineBreak, hending]
  -- The empty piece of the layout is what the last line ending leaves.
  have hlayout (comments : List Value) (double : String) :
      String.intercalate ending (g.settings.layout comments double b) =
        String.intercalate ending (["MODULE " ++ g.settings.moduleName.toText] ++
          comments.map (fun c => g.settings.indent.toText ++ g.settings.comment c) ++
          b.declarations.map (g.settings.indent.toText ++ ·) ++
          ["", g.settings.indent.toText ++ "PROC " ++ g.settings.procedureName.toText ++ "()"] ++
          b.instructions.map (double ++ ·) ++
          [g.settings.indent.toText ++ "ENDPROC", "ENDMODULE"]) ++ ending := by
    rw [intercalate_append_ending (by simp), List.append_assoc _ [_, _] [""]]
    rfl
  simp only [moduleText, moduleLines, indentedInstructions, Outcome.bind_eq_ok,
    Outcome.pure_eq_ok, Outcome.mapM_with_eq_ok, hbreak, Except.ok.injEq, hlayout]
  constructor
  · rintro ⟨_, ⟨comments, hcomments, _, ⟨double, hdouble, rfl⟩, rfl⟩, _, rfl, rfl⟩
    exact ⟨comments, double, ⟨hcomments, hdouble⟩, rfl⟩
  · rintro ⟨comments, double, ⟨hcomments, hdouble⟩, rfl⟩
    exact ⟨_, ⟨comments, hcomments, _, ⟨double, hdouble, rfl⟩, rfl⟩, _, rfl, rfl⟩

/-! ### Reading a module -/

/-- A line without the indentation before it. -/
def unindent (indent line : String) : String :=
  String.ofList (line.toList.drop indent.toList.length)

/-- A line is indented, and read without the indentation. -/
theorem unindent_append (indent line : String) : unindent indent (indent ++ line) = line := by
  rw [unindent, String.toList_append, List.drop_left, String.ofList_toList]

/-- Lines are indented, and read without the indentation. -/
theorem map_unindent (indent : String) (lines : List String) :
    (lines.map (indent ++ ·)).map (unindent indent) = lines := by
  rw [List.map_map]
  exact List.map_id'' (unindent_append indent) lines

/-- The declaration lines and the instruction lines of a module's text. The declarations stand
between the header comments and the first empty line. The instructions stand behind that line and
the opening of the procedure, and before the closing of the procedure, the closing of the module
and the end of the text. -/
def Settings.readModule (s : Settings) (text : String) : Outcome (List String × List String) := do
  let comments ← s.headerComments.parts
  let body := (pieces (← s.lineBreak) text).drop (1 + comments.length)
  let declarations := body.takeWhile (· ≠ "")
  let instructions := ((body.drop declarations.length).drop 2).rdrop 3
  return (declarations.map (unindent s.indent.toText),
    ← instructions.mapM fun line => do return unindent (← s.doubleIndent) line)

/-- A text whose pieces are a layout without empty program lines is read as the program. -/
theorem Settings.readModule_eq {s : Settings} {ending text double : String} {b : Buffers}
    {comments : List Value} (hending : s.lineEnding = .text ending) (hb : b.Filled)
    (hlays : s.Lays b comments double) (htext : pieces ending text = s.layout comments double b) :
    s.readModule text = .ok (b.declarations, b.instructions) := by
  have hbreak : s.lineBreak = .ok ending := by rw [lineBreak, hending]
  have hbody : (pieces ending text).drop (1 + comments.length) =
      b.declarations.map (s.indent.toText ++ ·) ++
        (["", s.indent.toText ++ "PROC " ++ s.procedureName.toText ++ "()"] ++
          (b.instructions.map (double ++ ·) ++
            [s.indent.toText ++ "ENDPROC", "ENDMODULE", ""])) := by
    rw [htext, layout]
    simp only [List.append_assoc]
    rw [← List.append_assoc ["MODULE " ++ s.moduleName.toText]]
    exact List.drop_left' (by simp [Nat.add_comm])
  -- An indented declaration is not empty, as the declaration is not.
  have hdeclarations : ∀ line ∈ b.declarations.map (s.indent.toText ++ ·),
      decide (line ≠ "") = true := by
    rw [List.forall_mem_map]
    intro line hline
    rw [decide_eq_true_iff, ne_eq, String.append_eq_empty_iff, not_and]
    exact fun _ => hb.declarations line hline
  have hinstructions : (b.instructions.map (double ++ ·)).mapM
      (fun line => (do return unindent (← s.doubleIndent) line : Outcome String)) =
        .ok b.instructions := by
    rw [Outcome.mapM_with_eq_ok]
    refine ⟨double, fun hne => hlays.double ?_, (map_unindent double b.instructions).symm⟩
    rintro hnil
    exact hne (by rw [hnil, List.map_nil])
  have hprefix : ((pieces ending text).drop (1 + comments.length)).takeWhile (· ≠ "") =
      b.declarations.map (s.indent.toText ++ ·) := by
    rw [hbody, List.takeWhile_append_of_pos hdeclarations]
    exact List.append_nil _
  have hsplit (xs ys opening closing : List String) (hopening : opening.length = 2)
      (hclosing : closing.length = 3) :
      (((xs ++ (opening ++ (ys ++ closing))).drop xs.length).drop 2).rdrop 3 = ys := by
    rw [List.drop_left, ← hopening, List.drop_left, List.rdrop, List.length_append, hclosing,
      Nat.add_sub_cancel, List.take_left]
  simp only [readModule, hlays.comments, hbreak, Outcome.ok_bind, hprefix, map_unindent]
  rw [hbody, hsplit _ _ _ _ rfl rfl, hinstructions]
  rfl

/-- Header comments in a list and an indentation that is a text lay out every program. -/
theorem Settings.lays_of_text {s : Settings} {comments : List Value} {indent : String}
    (hcomments : s.headerComments = .list comments) (hindent : s.indent = .text indent)
    (b : Buffers) : s.Lays b comments (indent ++ indent) where
  comments := by rw [hcomments, Value.parts]
  double := fun _ => by rw [doubleIndent, hindent]

/-- The text of a module is there when the settings lay the program out, as those with a list of
comments and a text for the indentation do (`Settings.lays_of_text`). Split at the line ending it
gives the layout, and its declarations and instructions are read from it with the settings alone.
So programs with the same text have the same declarations and instructions. -/
theorem module_text_determines_program {g : Generator} {ending : String}
    (hending : g.settings.lineEnding = .text ending) (hbreak : ending = "\n" ∨ ending = "\r\n")
    {r : Run} (hr : Reached r) (hlines : OneLined g.settings r.buffers) :
    ((∃ text, g.moduleText r.buffers = .ok text) ↔
      ∃ comments double, g.settings.Lays r.buffers comments double) ∧
    ∀ text, g.moduleText r.buffers = .ok text →
      (∃ comments double, g.settings.Lays r.buffers comments double ∧
        pieces ending text = g.settings.layout comments double r.buffers) ∧
      g.settings.readModule text = .ok (r.buffers.declarations, r.buffers.instructions) ∧
      ∀ (g' : Generator) (r' : Run), g'.settings = g.settings → Reached r' →
        OneLined g.settings r'.buffers → g'.moduleText r'.buffers = .ok text →
          r'.buffers.declarations = r.buffers.declarations ∧
          r'.buffers.instructions = r.buffers.instructions := by
  -- What holds of one program with a text is used for both programs with the same text.
  have hread {g' : Generator} {r' : Run} {text : String} (hsettings : g'.settings = g.settings)
      (hr' : Reached r') (hlines' : OneLined g.settings r'.buffers)
      (htext : g'.moduleText r'.buffers = .ok text) :
      (∃ comments double, g.settings.Lays r'.buffers comments double ∧
        pieces ending text = g.settings.layout comments double r'.buffers) ∧
      g.settings.readModule text = .ok (r'.buffers.declarations, r'.buffers.instructions) := by
    rw [← hsettings] at hending hlines' ⊢
    obtain ⟨comments, double, hlays, rfl⟩ := (Generator.moduleText_eq_ok hending).mp htext
    have hpieces := hlines'.pieces_layout hbreak hlays
    exact ⟨⟨comments, double, hlays, hpieces⟩,
      Settings.readModule_eq hending hr'.filled hlays hpieces⟩
  constructor
  · constructor
    · rintro ⟨text, htext⟩
      obtain ⟨comments, double, hlays, -⟩ := (Generator.moduleText_eq_ok hending).mp htext
      exact ⟨comments, double, hlays⟩
    · rintro ⟨comments, double, hlays⟩
      exact ⟨_, (Generator.moduleText_eq_ok hending).mpr ⟨comments, double, hlays, rfl⟩⟩
  · intro text htext
    obtain ⟨hpieces, hprogram⟩ := hread rfl hr hlines htext
    refine ⟨hpieces, hprogram, ?_⟩
    intro g' r' hsettings hr' hlines' htext'
    obtain ⟨-, hprogram'⟩ := hread hsettings hr' hlines' htext'
    rw [hprogram, Except.ok.injEq, Prod.mk.injEq] at hprogram'
    exact ⟨hprogram'.1.symm, hprogram'.2.symm⟩

/-- A generator whose only header comment leaves an empty line. -/
def unmarked : Generator where
  robot := Generator.benchRobot
  settings :=
    { lineEnding := .text "\r\n", indent := .text "", commentMark := .text ""
      headerComments := .list [.text ""] }

/-- A run that declares a number and adds one instruction. -/
def stopping : Run :=
  ((addInstruction "Stop;").run ((register (.text "n") (.value .null) "VAR num n;").run {}).2).2

/-- The module of that run. -/
def stoppingText : String :=
  "MODULE MainModule\r\n\r\nVAR num n;\r\n\r\n" ++
    "PROC main()\r\nStop;\r\nENDPROC\r\nENDMODULE\r\n"

/-- The empty line of the header is not taken for the one before the procedure. -/
theorem module_text_determines_program_unmarked :
    unmarked.moduleText stopping.buffers = .ok stoppingText ∧
      unmarked.settings.readModule stoppingText = .ok (["VAR num n;"], ["Stop;"]) := by
  have hreached : Reached stopping := .addInstruction (.register (.empty []) _ _ _) _
  have hcomments : ∀ comments, unmarked.settings.headerComments.parts = .ok comments →
      ∀ c ∈ comments, IsLine c.toText := by
    rintro _ ⟨⟩
    decide
  have hlines : OneLined unmarked.settings stopping.buffers :=
    ⟨by decide, by decide, by decide, by decide, hcomments, by decide, by decide⟩
  have htext : unmarked.moduleText stopping.buffers = .ok stoppingText := rfl
  have hprogram := module_text_determines_program rfl (.inr rfl) hreached hlines
  exact ⟨htext, (hprogram.2 _ htext).2.1⟩

end Program

end RobotProgram
